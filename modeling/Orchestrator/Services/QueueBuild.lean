import Orchestrator.Services.RouteChecks

/-!
# Services — queueing a build

`BuildService.queue_build`: freeze the inputs of a build, its route check included, in a build
record and a manifest; snapshot the workspace under a lease; mark the inputs ready; dispatch.
-/

namespace Orchestrator
open Interleaving

namespace BuildService

/-- The record `queue_build` creates: not ready yet, with the checked row frozen in it. -/
def newBuild (b : BuildId) (appid gitRef commit : String) (compose : Compose)
    (checked : RouteCheckResult) (dynamicRole : AgentRole) (createdAt : DateTime) :
    BuildJob where
  buildId := b
  appid
  gitRef
  stage := some "queued"
  stageHistory := ["queued"]
  gitCommitSha := some commit
  composeSnapshot := some compose
  inputsReady := false
  routeCheckId := some checked.checkId
  routeCheckGeneration := some checked.generation
  requireRouteSnapshot := some checked.requireRoute
  staticAgentRoleVersion := some checked.staticAgentRoleVersion
  dynamicAgentRoleVersion := some dynamicRole.agentRoleVersion
  routeProbePayload := checked.probePayload
  routeDynamicRoleSnapshot := some dynamicRole
  staticCheckPassed := some true
  createdAt

/-- The manifest of a new build. -/
def newManifest (S : Settings) (b : BuildId) (appid : String) (app : UserAppRecord) :
    BuildResources where
  buildId := b
  appid
  namespace_ := some (S.buildNamespace appid b)
  repositoryUrl := some app.repositoryUrl
  environmentCiphertext := app.environmentCiphertext

/-- `except RouteCheckInputError as exc: raise BuildInputError(str(exc))`. -/
def asBuildInput {α : Type} (p : P α) : P α :=
  p.tryCatch fun e =>
    if e.kind = .routeCheckInput then fault .buildInput e.message else .raise e

/-- The fields of a completed snapshot. -/
def snapshotFields (b : BuildId) (s : Snapshot) : BuildFields where
  workspaceSnapshot := .set (some b)
  workspaceFileCount := .set s.fileCount
  workspaceArchiveSha256 := .set (some s.archiveSha256)

/-- The body of the lease: the snapshot, then `inputs_ready`. -/
def prepareInputs (S : Settings) (appid : String) (b : BuildId) :
    Option ResourceTracker → P Unit
  | none => fault .buildInput
      "Build input snapshot preparation is already owned by another operation"
  | some tr => do
      let path := S.snapshotPath appid b
      let _ ← tr.record { kind := .workspace, name := path, target := "workspace" }
      match ← (orRaise (call (.snapshot appid b))).attempt with
      | .error e =>
          if e.kind = .workspaceError then
            tr.guard
            let _ ← fail b e.message (some "precheck")
            fault .buildInput e.message
          else Prog.raise e
      | .ok snapshot =>
          tr.guard
          let _ ← call (.updateBuild b (snapshotFields b snapshot))
          let _ ← tr.record { kind := .workspace, name := path, target := "workspace",
                              state := .present }
          tr.guard
          match ← call (.updateBuild b { inputsReady := .set true }) with
          | some _ => return ()
          | none => fault .buildInput "Unable to persist the completed build input snapshot"

/-- The message to the workers. -/
def dispatchBuild (appid : String) (b : BuildId) : P Unit := do
  match ← (orRaise (call (.dispatchBuild b))).attempt with
  | .error _ =>
      let _ ← fail b "Unable to enqueue build task" (some "precheck")
      fault .buildInput "Unable to enqueue build task"
  | .ok taskId =>
      match ← call (.updateBuild b { celeryTaskId := .set (some taskId) }) with
      | none => fault .notFound "Build not found after queueing"
      | some _ => recordEvent appid (some b) "build.dispatched" "Build task dispatched"

def composeRequired : String :=
  "A user-provided Docker Compose document with services is required before creating a build"

def queueBuild (S : Settings) (appid : String) (requestRef : Option String) : P Unit := do
  match ← call (.getApp appid) with
  | none => fault .notFound "App not found"
  | some app => match app.compose with
    | none => fault .buildInput composeRequired
    | some compose =>
        if compose.services.isEmpty then fault .buildInput composeRequired
        else if falsy app.requireRoute then fault .buildInput buildGateError
        else
          let (commit, checked) ← asBuildInput do
            let commit ← RouteCheckService.resolveCommit S app requestRef
            let checked ← RouteCheckService.requireStaticPass app commit none
            return (commit, checked)
          let dynamicRole ← AgentRoleService.get .dynamicDebugAgent
          let b ← call .uuid4
          let now ← call .utcNow
          let gitRef := match requestRef with
            | some r => if r == "" then app.gitRef else r
            | none => app.gitRef
          call (.createBuild (newBuild b appid gitRef commit compose checked dynamicRole now))
          let _ ← orRaise (call (.ensureBuildResources (newManifest S b appid app)))
          buildLease b [.notStarted] (prepareInputs S appid b)
          recordEvent appid (some b) "build.queued" "Build queued"
          dispatchBuild appid b

end BuildService

end Orchestrator
