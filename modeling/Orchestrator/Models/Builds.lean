import Orchestrator.Models.Scalars
import Mathlib.Tactic.Simps.Basic

/-!
# Models — applications, builds and checks

`UserAppRecord`, `BuildJob`, `AgentRole`, `RouteCheckResult` and the records a delivery leaves
behind, with the fields that the modelled functions read or write.  Left out are the timestamps
that only feed listings and reports (`updated_at`, `started_at`, `finished_at`) and the
diagnostic payloads stored beside `error` (`error_detail`, `raw_log_excerpt`, `failure_logs`),
which no modelled function reads back.

A `model_copy(update=fields)` is `modelCopy`, with one `Change` for each field that some
modelled function updates.
-/

namespace Orchestrator

/-! ### Compose documents -/

structure ComposeService where
  image : Option String := none
  build : Bool := false
  expose : List String := []
  deriving DecidableEq, Repr

/-- A Compose document: its services by name, the names of its top-level volumes, and
`x-orchestrator-build-source`. -/
structure Compose where
  services : List (String × ComposeService)
  volumes : List String := []
  buildSource : String := "git"
  deriving DecidableEq, Repr

/-! ### Applications and roles -/

/-- `environment_ciphertext` is a string where the record is validated; the copy a worker makes
from a manifest is not. -/
structure UserAppRecord where
  appid : String
  repositoryUrl : String
  gitRef : String
  environmentCiphertext : Option String
  compose : Option Compose
  requireRoute : Option String
  composeSourceFile : Option String := none
  composeSourceCommit : Option String := none
  deriving DecidableEq, Repr

inductive AuthorizationMode where
  | never | onRequest | untrusted
  deriving DecidableEq, Repr

inductive SandboxMode where
  | dangerFullAccess | workspaceWrite | readOnly
  deriving DecidableEq, Repr

inductive ReasoningEffort where
  | none | minimal | low | medium | high | xhigh | max | ultra
  deriving DecidableEq, Repr

structure AgentRuntimeConfig where
  authorizationMode : AuthorizationMode := .never
  sandboxMode : SandboxMode := .dangerFullAccess
  skipGitRepoCheck : Bool := true
  model : Option String := none
  reasoningEffort : Option ReasoningEffort := none
  timeoutSeconds : Nat := 900
  deriving DecidableEq, Repr

structure AgentRole where
  roleKey : RoleKey
  prompt : String
  outputSchema : Json := .obj []
  runtimeConfig : AgentRuntimeConfig := {}
  agentRoleVersion : Nat := 1

/-- The `runtime_config` of an update: the keys that were given. -/
structure RuntimeConfigPatch where
  authorizationMode : Change AuthorizationMode := .keep
  sandboxMode : Change SandboxMode := .keep
  skipGitRepoCheck : Change Bool := .keep
  model : Change (Option String) := .keep
  reasoningEffort : Change (Option ReasoningEffort) := .keep
  timeoutSeconds : Change Nat := .keep

/-- `AgentRoleUpdate`, dumped without the fields that were not given. -/
structure AgentRoleUpdate where
  prompt : Change String := .keep
  outputSchema : Change Json := .keep
  runtimeConfig : Change RuntimeConfigPatch := .keep

/-- `{**values, **patch}`. -/
def AgentRuntimeConfig.merge (c : AgentRuntimeConfig) (p : RuntimeConfigPatch) :
    AgentRuntimeConfig where
  authorizationMode := p.authorizationMode.apply c.authorizationMode
  sandboxMode := p.sandboxMode.apply c.sandboxMode
  skipGitRepoCheck := p.skipGitRepoCheck.apply c.skipGitRepoCheck
  model := p.model.apply c.model
  reasoningEffort := p.reasoningEffort.apply c.reasoningEffort
  timeoutSeconds := p.timeoutSeconds.apply c.timeoutSeconds

/-- The successor of a role under an update. -/
@[simps] def AgentRole.patched (r : AgentRole) (u : AgentRoleUpdate) : AgentRole where
  roleKey := r.roleKey
  prompt := u.prompt.apply r.prompt
  outputSchema := u.outputSchema.apply r.outputSchema
  runtimeConfig := match u.runtimeConfig with
    | .keep => r.runtimeConfig
    | .set p => r.runtimeConfig.merge p
  agentRoleVersion := r.agentRoleVersion + 1

/-! ### Route checks -/

/-- One probe response, as `probe_result` keeps it. -/
structure ProbeReport where
  passed : Bool
  body : Json := .null

/-- `probe_result` of a build or of a route check. -/
structure ProbeResult where
  initial : Option ProbeReport := none
  retry : Option ProbeReport := none
  final : Option ProbeReport := none
  containerLogs : Option Json := none

structure RouteCheckResult where
  checkId : CheckId
  appId : String
  commitId : String
  requireRoute : String
  staticAgentRoleVersion : Nat
  dynamicAgentRoleVersion : Option Nat
  generation : Nat := 1
  repositoryUrl : String := ""
  gitRef : String := "main"
  staticRoleSnapshot : Option AgentRole := none
  dynamicRoleSnapshot : Option AgentRole := none
  staticTaskId : Option String := none
  staticRunToken : Option Uuid := none
  staticLeaseExpiresAt : Option DateTime := none
  dispatchError : Option String := none
  dynamicBuildId : Option BuildId := none
  dynamicRunId : Option Uuid := none
  staticStatus : StaticStatus := .queued
  dynamicStatus : DynamicStatus := .pending
  diffList : List String := []
  probePayload : Option Json := none
  staticReportText : Option String := none
  staticCheckPassed : Option Bool := none
  probeResult : Option ProbeResult := none
  dynamicReportText : Option String := none
  dynamicCheckPassed : Option Bool := none

structure RouteCheckFields where
  dynamicAgentRoleVersion : Change (Option Nat) := .keep
  generation : Change Nat := .keep
  repositoryUrl : Change String := .keep
  gitRef : Change String := .keep
  staticRoleSnapshot : Change (Option AgentRole) := .keep
  dynamicRoleSnapshot : Change (Option AgentRole) := .keep
  staticTaskId : Change (Option String) := .keep
  staticRunToken : Change (Option Uuid) := .keep
  staticLeaseExpiresAt : Change (Option DateTime) := .keep
  dispatchError : Change (Option String) := .keep
  dynamicBuildId : Change (Option BuildId) := .keep
  dynamicRunId : Change (Option Uuid) := .keep
  staticStatus : Change StaticStatus := .keep
  dynamicStatus : Change DynamicStatus := .keep
  diffList : Change (List String) := .keep
  probePayload : Change (Option Json) := .keep
  staticReportText : Change (Option String) := .keep
  staticCheckPassed : Change (Option Bool) := .keep
  probeResult : Change (Option ProbeResult) := .keep
  dynamicReportText : Change (Option String) := .keep
  dynamicCheckPassed : Change (Option Bool) := .keep

@[simps] def RouteCheckResult.modelCopy (c : RouteCheckResult) (f : RouteCheckFields) :
    RouteCheckResult where
  checkId := c.checkId
  appId := c.appId
  commitId := c.commitId
  requireRoute := c.requireRoute
  staticAgentRoleVersion := c.staticAgentRoleVersion
  dynamicAgentRoleVersion := f.dynamicAgentRoleVersion.apply c.dynamicAgentRoleVersion
  generation := f.generation.apply c.generation
  repositoryUrl := f.repositoryUrl.apply c.repositoryUrl
  gitRef := f.gitRef.apply c.gitRef
  staticRoleSnapshot := f.staticRoleSnapshot.apply c.staticRoleSnapshot
  dynamicRoleSnapshot := f.dynamicRoleSnapshot.apply c.dynamicRoleSnapshot
  staticTaskId := f.staticTaskId.apply c.staticTaskId
  staticRunToken := f.staticRunToken.apply c.staticRunToken
  staticLeaseExpiresAt := f.staticLeaseExpiresAt.apply c.staticLeaseExpiresAt
  dispatchError := f.dispatchError.apply c.dispatchError
  dynamicBuildId := f.dynamicBuildId.apply c.dynamicBuildId
  dynamicRunId := f.dynamicRunId.apply c.dynamicRunId
  staticStatus := f.staticStatus.apply c.staticStatus
  dynamicStatus := f.dynamicStatus.apply c.dynamicStatus
  diffList := f.diffList.apply c.diffList
  probePayload := f.probePayload.apply c.probePayload
  staticReportText := f.staticReportText.apply c.staticReportText
  staticCheckPassed := f.staticCheckPassed.apply c.staticCheckPassed
  probeResult := f.probeResult.apply c.probeResult
  dynamicReportText := f.dynamicReportText.apply c.dynamicReportText
  dynamicCheckPassed := f.dynamicCheckPassed.apply c.dynamicCheckPassed

/-- The scalar `expected` of `update_route_check`, as the code's callers use it. -/
structure RouteCheckExpectation where
  generation : Expect Nat := .any
  staticStatus : Expect StaticStatus := .any
  staticRunToken : Expect (Option Uuid) := .any
  staticLeaseExpiresAt : Expect (Option DateTime) := .any
  dynamicBuildId : Expect (Option BuildId) := .any
  dynamicRunId : Expect (Option Uuid) := .any

def RouteCheckExpectation.holds (e : RouteCheckExpectation) (c : RouteCheckResult) : Bool :=
  e.generation.holds c.generation && e.staticStatus.holds c.staticStatus &&
  e.staticRunToken.holds c.staticRunToken &&
  e.staticLeaseExpiresAt.holds c.staticLeaseExpiresAt &&
  e.dynamicBuildId.holds c.dynamicBuildId && e.dynamicRunId.holds c.dynamicRunId

/-! ### Builds -/

structure BuildJob where
  buildId : BuildId
  appid : String
  gitRef : String
  inputsReady : Bool := true
  gitCommitSha : Option String := none
  composeSnapshot : Option Compose := none
  workspaceSnapshot : Option BuildId := none
  workspaceFileCount : Nat := 0
  workspaceArchiveSha256 : Option String := none
  status : BuildStatus := .queued
  celeryTaskId : Option String := none
  jenkinsQueueUrl : Option String := none
  jenkinsBuildNumber : Option Nat := none
  images : List String := []
  serviceIds : List String := []
  routeCheckId : Option CheckId := none
  routeCheckGeneration : Option Nat := none
  requireRouteSnapshot : Option String := none
  staticAgentRoleVersion : Option Nat := none
  dynamicAgentRoleVersion : Option Nat := none
  routeProbePayload : Option Json := none
  routeDynamicRoleSnapshot : Option AgentRole := none
  staticCheckPassed : Option Bool := none
  dynamicCheckPassed : Option Bool := none
  dynamicStatus : DynamicStatus := .pending
  dynamicRunId : Option Uuid := none
  dynamicInitialStarted : Bool := false
  dynamicDebugStarted : Bool := false
  dynamicRetryStarted : Bool := false
  dynamicRetryPayload : Option Json := none
  dynamicDispatchError : Option String := none
  teardownRequired : Bool := false
  teardownStatus : Option TeardownStatus := none
  dynamicReportText : Option String := none
  probeResult : Option ProbeResult := none
  error : Option String := none
  failureSite : Option String := none
  stage : Option String := none
  stageHistory : List String := []
  lastPolledAt : Option DateTime := none
  createdAt : DateTime := ⟨0, some 0⟩

/-- The `fields` of `update_build` and `transition_build`.  `status` is not among them: the
second sets it from its own argument, the first never does. -/
structure BuildFields where
  inputsReady : Change Bool := .keep
  gitCommitSha : Change (Option String) := .keep
  workspaceSnapshot : Change (Option BuildId) := .keep
  workspaceFileCount : Change Nat := .keep
  workspaceArchiveSha256 : Change (Option String) := .keep
  celeryTaskId : Change (Option String) := .keep
  jenkinsQueueUrl : Change (Option String) := .keep
  jenkinsBuildNumber : Change (Option Nat) := .keep
  images : Change (List String) := .keep
  serviceIds : Change (List String) := .keep
  dynamicAgentRoleVersion : Change (Option Nat) := .keep
  routeDynamicRoleSnapshot : Change (Option AgentRole) := .keep
  dynamicCheckPassed : Change (Option Bool) := .keep
  dynamicStatus : Change DynamicStatus := .keep
  dynamicRunId : Change (Option Uuid) := .keep
  dynamicInitialStarted : Change Bool := .keep
  dynamicDebugStarted : Change Bool := .keep
  dynamicRetryStarted : Change Bool := .keep
  dynamicRetryPayload : Change (Option Json) := .keep
  dynamicDispatchError : Change (Option String) := .keep
  teardownRequired : Change Bool := .keep
  teardownStatus : Change (Option TeardownStatus) := .keep
  dynamicReportText : Change (Option String) := .keep
  probeResult : Change (Option ProbeResult) := .keep
  error : Change (Option String) := .keep
  failureSite : Change (Option String) := .keep
  stage : Change (Option String) := .keep
  stageHistory : Change (List String) := .keep
  lastPolledAt : Change (Option DateTime) := .keep

@[simps] def BuildJob.modelCopy (j : BuildJob) (f : BuildFields) : BuildJob where
  buildId := j.buildId
  appid := j.appid
  gitRef := j.gitRef
  inputsReady := f.inputsReady.apply j.inputsReady
  gitCommitSha := f.gitCommitSha.apply j.gitCommitSha
  composeSnapshot := j.composeSnapshot
  workspaceSnapshot := f.workspaceSnapshot.apply j.workspaceSnapshot
  workspaceFileCount := f.workspaceFileCount.apply j.workspaceFileCount
  workspaceArchiveSha256 := f.workspaceArchiveSha256.apply j.workspaceArchiveSha256
  status := j.status
  celeryTaskId := f.celeryTaskId.apply j.celeryTaskId
  jenkinsQueueUrl := f.jenkinsQueueUrl.apply j.jenkinsQueueUrl
  jenkinsBuildNumber := f.jenkinsBuildNumber.apply j.jenkinsBuildNumber
  images := f.images.apply j.images
  serviceIds := f.serviceIds.apply j.serviceIds
  routeCheckId := j.routeCheckId
  routeCheckGeneration := j.routeCheckGeneration
  requireRouteSnapshot := j.requireRouteSnapshot
  staticAgentRoleVersion := j.staticAgentRoleVersion
  dynamicAgentRoleVersion := f.dynamicAgentRoleVersion.apply j.dynamicAgentRoleVersion
  routeProbePayload := j.routeProbePayload
  routeDynamicRoleSnapshot := f.routeDynamicRoleSnapshot.apply j.routeDynamicRoleSnapshot
  staticCheckPassed := j.staticCheckPassed
  dynamicCheckPassed := f.dynamicCheckPassed.apply j.dynamicCheckPassed
  dynamicStatus := f.dynamicStatus.apply j.dynamicStatus
  dynamicRunId := f.dynamicRunId.apply j.dynamicRunId
  dynamicInitialStarted := f.dynamicInitialStarted.apply j.dynamicInitialStarted
  dynamicDebugStarted := f.dynamicDebugStarted.apply j.dynamicDebugStarted
  dynamicRetryStarted := f.dynamicRetryStarted.apply j.dynamicRetryStarted
  dynamicRetryPayload := f.dynamicRetryPayload.apply j.dynamicRetryPayload
  dynamicDispatchError := f.dynamicDispatchError.apply j.dynamicDispatchError
  teardownRequired := f.teardownRequired.apply j.teardownRequired
  teardownStatus := f.teardownStatus.apply j.teardownStatus
  dynamicReportText := f.dynamicReportText.apply j.dynamicReportText
  probeResult := f.probeResult.apply j.probeResult
  error := f.error.apply j.error
  failureSite := f.failureSite.apply j.failureSite
  stage := f.stage.apply j.stage
  stageHistory := f.stageHistory.apply j.stageHistory
  lastPolledAt := f.lastPolledAt.apply j.lastPolledAt
  createdAt := j.createdAt

/-- `model_copy(update={**fields, "status": status})`. -/
@[simps] def BuildJob.moveTo (j : BuildJob) (target : BuildStatus) (f : BuildFields) : BuildJob :=
  { j.modelCopy f with status := target }

/-! ### What a delivery leaves behind -/

structure PublishedPort where
  targetPort : Nat
  publishedPort : Option Nat := none
  protocol : String := "tcp"
  mode : String := "ingress"
  deriving DecidableEq, Repr

structure DeploymentService where
  serviceId : String
  appid : String
  buildId : BuildId
  serviceName : String
  image : String
  status : String
  endpoint : Option String := none
  publishedPorts : List PublishedPort := []
  deriving DecidableEq, Repr

structure UserImage where
  appid : String
  buildId : BuildId
  reference : String
  deriving DecidableEq, Repr

inductive EventLevel where
  | info | warning | error
  deriving DecidableEq, Repr

structure AppEvent where
  eventId : Uuid
  appid : String
  buildId : Option BuildId
  kind : String
  message : String
  level : EventLevel := .info
  deriving DecidableEq, Repr

structure Alert where
  alertId : Uuid
  appid : String
  buildId : Option BuildId
  severity : String
  message : String
  deriving DecidableEq, Repr

end Orchestrator
