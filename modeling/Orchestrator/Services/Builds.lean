import Orchestrator.Services.Leases

/-!
# Services — build records

`BuildService` of `services.py`, without `queue_build`: events, reading a build, and the two
methods that move one to another status.

* `allowedBuildTransitions`: `ALLOWED_BUILD_TRANSITIONS`.
* `transition`: reads the build, checks the table, and writes on the condition that the status
  is still the one it read.
* `fail`: `transition` to `FAILED`, with the alert; a finished build is left as it is.
-/

namespace Orchestrator
open Interleaving

/-- `BuildService._event`. -/
def recordEvent (appid : String) (b : Option BuildId) (kind message : String)
    (level : EventLevel := .info) : P Unit := do
  let eventId ← call .uuid4
  call (.appendEvent ⟨eventId, appid, b, kind, message, level⟩)

def allowedBuildTransitions : BuildStatus → List BuildStatus
  | .queued => [.validating, .failed, .cancelled]
  | .validating => [.triggering, .failed, .cancelled]
  | .triggering => [.building, .failed, .cancelled]
  | .building => [.deploying, .failed, .cancelled]
  | .deploying => [.succeeded, .failed, .cancelled]
  | .succeeded | .failed | .cancelled => []

namespace BuildService

def getBuild (b : BuildId) : P BuildJob := do
  match ← call (.getBuild b) with
  | some build => return build
  | none => fault .notFound "Build not found"

/-- The stage history of a build that enters `stage`. -/
def stageHistory (build : BuildJob) (stage : Option String) : List String :=
  let history := match build.stageHistory, build.stage with
    | [], some s => if s == "" then [] else [s]
    | history, _ => history
  let history := match stage with
    | some s => if history.getLast? == some s then history else history ++ [s]
    | none => history
  history.drop (history.length - 32)

/-- The fields `transition` writes beside the status. -/
def transitionFields (build : BuildJob) (target : BuildStatus) (fields : BuildFields) :
    BuildFields :=
  let stage := match fields.stage with
    | .keep => some target.value
    | .set s => s
  { fields with stage := .set stage, stageHistory := .set (stageHistory build stage) }

def transition (b : BuildId) (target : BuildStatus) (fields : BuildFields := {}) :
    P BuildJob := do
  let build ← getBuild b
  if build.status = target then return build
  else if build.status.terminal ∨ target ∉ allowedBuildTransitions build.status then
    fault .invalidBuildTransition
      ("Cannot transition build from " ++ build.status.value ++ " to " ++ target.value)
  else
    let _ ← call .utcNow
    match ← call (.transitionBuild b [build.status] target
        (transitionFields build target fields)) with
    | none =>
        let current ← getBuild b
        if current.status = target then return current
        else fault .invalidBuildTransition "Concurrent build status update"
    | some updated =>
        recordEvent updated.appid (some b) ("build." ++ target.value)
          ("Build is " ++ target.value) (if target = .failed then .error else .info)
        return updated

/-- The fields of a failure; a site is kept when the caller names none. -/
def failFields (message : String) (failureSite : Option String) : BuildFields where
  error := .set (some message)
  stage := .set (some "failed")
  failureSite := match failureSite with
    | some site => .set (some site)
    | none => .keep

def fail (b : BuildId) (message : String) (failureSite : Option String) : P BuildJob := do
  let build ← getBuild b
  if build.status.terminal then return build
  else
    let failed ← transition b .failed (failFields message failureSite)
    let alertId ← call .uuid4
    call (.createAlert ⟨alertId, failed.appid, some failed.buildId, "error", message⟩)
    recordEvent failed.appid (some failed.buildId) "build.alert" message .error
    return failed

end BuildService

end Orchestrator
