import Orchestrator.Runtime.Tasks

/-!
# Runtime — a sample system

One application with one service, external parties that work, and the schedules that take its
first build from the submission of its static check to its delivery.  Witnesses and
counterexamples are played on it.
-/

namespace Orchestrator
open Interleaving

namespace Sample

def commit : String := "aaaaaaaaaaaaaaaaaaaaaaaaaaaaaaaaaaaaaaaa"

/-- The identifier the first thread after the static check draws for its build. -/
def build : BuildId := ⟨2, 0⟩

def settings : Settings where
  publicHost := some "host"
  publicScheme := "http"
  celeryMaxPollAttempts := 10
  celeryPollIntervalSeconds := 10
  celeryRecoveryIntervalSeconds := 10
  deploymentReadinessTimeoutSeconds := 10
  routeCheckLeaseSeconds := 60
  failureSummaryMaxChars := 100
  gitlab := true
  workspaceDownloadBaseUrl := none
  isHttpUrl _ := true
  readinessHost := .ok (some "host")
  buildNamespace appid _ := appid
  imageRepository appid := .ok appid
  expectedRepository appid := appid
  snapshotPath appid _ := appid
  decryptEnvironment _ := .ok []
  resolveApplicationEnvironment c _ := .ok c
  validateSourceCompose _ := .ok ()
  validateBuildCompose _ _ := .ok ()
  validateArtifactTopology _ _ := .ok ()
  validateDeploymentCompose _ := .ok ()
  asParameters _ := .ok ()
  isJsonSchema _ := true
  protobuf := ⟨Empty, fun _ => none, fun _ _ => none⟩
  arrangement := .stable

def compose : Compose := ⟨[("web", { image := some "app:2x0-web", build := true })], [], "git"⟩

def app : UserAppRecord :=
  ⟨"app", "repository", "main", none, some compose, some "/route", none, none⟩

def deployment : List ServiceDeployment :=
  [⟨"service", "web", "app-web", "app:2x0-web", none, [{ targetPort := 80, publishedPort := some 8080 }]⟩]

/-- A request that any answer with the status 200 satisfies. -/
def payload : Json :=
  .obj [("method", .str "GET"), ("query_params", .obj []), ("body", .null),
    ("assertions", .obj [("expected_status_list", .arr [.num 200])])]

/-- Every external party does what it is asked for. -/
def replies : Answers
  | .validateRepositoryRef _ _ => .ok commit
  | .discoverCompose _ _ => .ok ("docker-compose.yml", compose)
  | .dispatchStaticCheck _ _ | .dispatchBuild _ => .ok "task"
  | .runStaticAgent _ _ => .ok ⟨some true, some false, some [], some "found", some payload⟩
  | .inspectCheckout _ => .ok ("", false)
  | .snapshot _ _ => .ok ⟨0, "archive"⟩
  | .resolveCompose _ _ _ c => .ok c
  | .triggerBuild _ _ | .getQueueItem _ => .ok ⟨"queue/", some 1, false, by decide⟩
  | .getJenkinsBuild n => .ok ⟨n, false, some "SUCCESS"⟩
  | .getResultArtifact _ => .ok ⟨some build, some commit, ["app:2x0-web"],
      [("app:2x0-web",
        "sha256:aaaaaaaaaaaaaaaaaaaaaaaaaaaaaaaaaaaaaaaaaaaaaaaaaaaaaaaaaaaaaaaa")], compose⟩
  | .getResourceArtifact _ => .ok ⟨some build, some true, some true, some "docker:node", some true,
      some [⟨some "app:2x0-web", some true, none⟩]⟩
  | .getFailureDiagnostic _ => .ok ""
  | .deploy _ _ _ => .ok deployment
  | .docker (.deployBuild _ _ _) => .done (.ok deployment)
  | .docker (.removeBuildTag _ _ _ _) => .done (.ok "waiting_gc")
  | .docker (.discover _) | .docker (.waitContainersStopped _)
  | .docker (.assertDirectoryUnused _ _) | .docker (.remove _ _) | .docker (.verifyEmpty _) =>
      .done (.ok ())
  | .runProbe _ _ _ => .ok ⟨true, .null⟩
  | .collectLogs _ => .ok .null
  | .runDebugAgent _ _ => .ok ⟨some "report", none⟩
  | .guard _ _ | .dispatchBuildCleanup _ | .dispatchDynamicCheck _ _ | .schedulePoll _ _
  | .scheduleStart _ | .checkoutCommit _ _ | .deleteBuildSnapshot _ _ _ | .openDocker
  | .connectPort _ _ _ _ => .ok ()
  -- The calls below are not those of external parties: no reply of theirs is ever used.
  | .uuid4 => ⟨0, 0⟩
  | .utcNow => .now 0
  | .getApp _ | .updateApp _ _ | .getAgentRole _ | .saveAgentRole _ _ | .getRouteCheck _
  | .findRouteCheck _ _ _ _ | .updateRouteCheck _ _ _ | .getBuild _ | .updateBuild _ _
  | .transitionBuild _ _ _ _ | .getBuildResources _ | .updateBuildResources _ _ _
  | .claimBuildLease _ _ _ _ => none
  | .ensureRouteCheck c => (c, false)
  | .deleteRouteCheck _ _ _ _ => false
  | .ensureBuildResources _ | .putBuildResource _ _ _ => .error (exc .runtimeError "")
  | .listPendingRouteChecks | .listActiveBuilds | .listPendingDynamicBuilds
  | .listCleanupResources | .listServices _ | .listUserImages _ => []
  | .createBuild _ | .releaseBuildLease _ _ | .saveService _ | .saveUserImage _ | .appendEvent _
  | .createAlert _ => ()

def world : World where
  repo :=
    { apps := (∅ : Table String UserAppRecord).insert "app" app
      agentRoles := ((∅ : Table RoleKey AgentRole).insert .staticBuildAgent
        (AgentRoleService.defaultRole .staticBuildAgent)).insert .dynamicDebugAgent
        (AgentRoleService.defaultRole .dynamicDebugAgent) }
  clock := 0
  draws _ := 0

/-- The system before anything has happened. -/
def start : Config (orchestrator settings) := Machine.boot (orchestrator settings) world

theorem boot : Boot start where
  threads _ := rfl
  log := rfl
  repo := ⟨rfl, rfl, rfl, rfl, rfl, rfl⟩

abbrev Schedule := List (Move (orchestrator settings))

/-- Thread `t` makes its next `n` calls. -/
def calls (t n : Nat) : Schedule := List.replicate n (.run t replies)

/-- Thread `t` starts `task` and makes its first `n` calls. -/
def doing (t : Nat) (task : Task) (n : Nat) : Schedule := .start t task :: calls t n

/-- The static check is submitted and passes. -/
def checked : Schedule := doing 0 (.submitStatic "app" none false) 8 ++
  doing 1 (.staticRouteCheck ⟨0, 0⟩ none) 11

/-- A build is queued. -/
def queued : Schedule := checked ++ doing 2 (.queueBuild "app" none) 28

/-- It is started, polled and delivered. -/
def delivered : Schedule := queued ++ doing 3 (.startBuild build none) 55 ++
  doing 4 (.pollBuild build 0 none) 84

/-- The configuration a schedule leads to. -/
def reached (ms : Schedule) (h : (Machine.play start ms).isSome = true) :
    Config (orchestrator settings) := (Machine.play start ms).get h

theorem reached_run (ms : Schedule) (h : (Machine.play start ms).isSome = true) :
    Run Anything start (reached ms h) := .of_play (Option.some_get h).symm

theorem reached_calling {C : World → List (Event (orchestrator settings)) → Nat → Op → Prop}
    (check : World → List (Event (orchestrator settings)) → Nat → Op → Bool)
    (hcheck : ∀ w l t op, check w l t op = true → C w l t op) (ms : Schedule)
    (h : (Machine.play start ms).isSome = true) (hm : Machine.calls check start ms = true) :
    Run (Calling C) start (reached ms h) := .of_calls hcheck (Option.some_get h).symm hm

theorem delivered_plays : (Machine.play start delivered).isSome = true := by decide +kernel

end Sample

end Orchestrator
