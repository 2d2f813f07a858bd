import Orchestrator.Services.Cleanup
import Orchestrator.Services.RouteChecks

/-!
# Services — dynamic route checks

`dynamic_checks.py`: the probe of a deployed build, its single retry, and the teardown of a
delivery that failed.

* `submit`: an explicit recheck; it reopens a `SUCCEEDED` build under its own lease.
* `claimResult`, `syncResult`: the aggregate row of the route check follows the build.
* `execute`: the run itself, under the lease of the worker.  Each outcome is written before the
  step that depends on it; a failure anywhere ends in `finish`.
* `teardown`, `syncTeardown`, `recover`: cleaning up after a failed delivery.

`execute` catches an exception with the locals `result` and `report` as they are where it was
raised: `Progress` holds them, and `stage` hands them to the handler.
-/

namespace Orchestrator
open Interleaving

namespace DynamicCheckService

def dynamicFailed : String := "动态路由检查失败"

/-- `_save`: guard, then write. -/
def save (b : BuildId) (fields : BuildFields) (guard : P Unit) : P BuildJob := do
  guard
  match ← call (.updateBuild b fields) with
  | some saved => return saved
  | none => fault .notFound "Build not found"

/-! ### The aggregate row -/

/-- The row is still the static check the build froze. -/
def isFrozenCheck (build : BuildJob) (row : RouteCheckResult) : Bool :=
  some row.generation == build.routeCheckGeneration && row.staticCheckPassed == some true &&
  row.appId == build.appid && some row.commitId == build.gitCommitSha &&
  some row.requireRoute == build.requireRouteSnapshot &&
  some row.staticAgentRoleVersion == build.staticAgentRoleVersion

/-- The fields of a claim of the row for a run. -/
def claimFields (build : BuildJob) : RouteCheckFields where
  dynamicBuildId := .set (some build.buildId)
  dynamicRunId := .set build.dynamicRunId
  dynamicAgentRoleVersion := .set build.dynamicAgentRoleVersion
  dynamicRoleSnapshot := .set build.routeDynamicRoleSnapshot
  dynamicStatus := .set (if build.dynamicStatus = .queued then .queued else .running)
  dynamicCheckPassed := .set none
  dynamicReportText := .set none
  probeResult := .set none

def superseded {α : Type} : P α :=
  fault .routeCheckInput "The frozen static check is unavailable or superseded"

/-- `get_route_check(build.route_check_id) if build.route_check_id else None`. -/
def frozenRow (build : BuildJob) : P (Option RouteCheckResult) :=
  match build.routeCheckId with
  | some c => call (.getRouteCheck c)
  | none => .ret none

def claimResult (build : BuildJob) (guard : P Unit) (allowClaim : Bool) : P Unit := do
  match ← frozenRow build with
  | none => superseded
  | some row =>
      if isFrozenCheck build row = false then superseded
      else
        guard
        if (row.dynamicBuildId, row.dynamicRunId) ≠ (some build.buildId, build.dynamicRunId) ∧
            allowClaim = false then return ()
        else match ← call (.updateRouteCheck row.checkId (claimFields build)
            { generation := .eq row.generation, dynamicBuildId := .eq row.dynamicBuildId
              dynamicRunId := .eq row.dynamicRunId }) with
          | some _ => return ()
          | none =>
              let current ← call (.getRouteCheck row.checkId)
              if current.any (isFrozenCheck build) then return () else superseded

/-- The result of the build, as the row keeps it. -/
def syncFields (build : BuildJob) : RouteCheckFields where
  dynamicStatus := .set build.dynamicStatus
  dynamicCheckPassed := .set build.dynamicCheckPassed
  dynamicReportText := .set build.dynamicReportText
  probeResult := .set build.probeResult
  dynamicAgentRoleVersion := .set build.dynamicAgentRoleVersion

def syncResult (build : BuildJob) (guard : P Unit) : P Unit := do
  match build.routeCheckId with
  | none => return ()
  | some c =>
      guard
      -- No row has the generation `None`.
      match build.routeCheckGeneration with
      | none => return ()
      | some generation =>
          let _ ← call (.updateRouteCheck c (syncFields build)
            { generation := .eq generation, dynamicBuildId := .eq (some build.buildId)
              dynamicRunId := .eq build.dynamicRunId })
          return ()

/-! ### Submission -/

/-- The fields of a recheck: a fresh run, with everything of the last one cleared. -/
def recheckFields (run : Uuid) (role : AgentRole) : BuildFields where
  dynamicRunId := .set (some run)
  dynamicStatus := .set .queued
  dynamicCheckPassed := .set none
  dynamicInitialStarted := .set false
  dynamicDebugStarted := .set false
  dynamicRetryStarted := .set false
  dynamicRetryPayload := .set none
  dynamicDispatchError := .set none
  dynamicReportText := .set none
  probeResult := .set none
  dynamicAgentRoleVersion := .set (some role.agentRoleVersion)
  routeDynamicRoleSnapshot := .set (some role)
  error := .set none

def acceptsRecheck (build : BuildJob) : Bool :=
  build.status == .deploying || build.status == .succeeded

/-- The body of the lease of `submit`: the run that was already there, or the one it starts. -/
def reopen (b : BuildId) : Option ResourceTracker → P (BuildJob ⊕ BuildJob)
  | none => fault .routeCheckConflict "A build operation is already running"
  | some tr => do
      let build ← BuildService.getBuild b
      if build.dynamicStatus = .queued ∨ build.dynamicStatus = .running then
        return .inl build
      else if acceptsRecheck build = false ∨ build.teardownRequired then
        fault .routeCheckConflict "Build is no longer available for a dynamic check"
      else
        let role ← AgentRoleService.get .dynamicDebugAgent
        let run ← call .uuid4
        tr.guard
        match ← call (.transitionBuild b [build.status] .deploying (recheckFields run role)) with
        | none => fault .routeCheckConflict "Build changed concurrently"
        | some changed =>
            claimResult changed tr.guard true
            return .inr changed

/-- The message of a recheck. -/
def dispatchRun (b : BuildId) (run : Option Uuid) : P Unit := do
  match ← (orRaise (call (.dispatchDynamicCheck b run))).attempt with
  | .ok _ => return ()
  | .error _ =>
      let _ ← call (.updateBuild b
        { dynamicDispatchError := .set (some "Unable to enqueue dynamic check") })
      fault .routeCheckUnavailable
        "Unable to enqueue dynamic check; the saved run will be recovered"

def submit (appId : String) (b : BuildId) : P BuildJob := do
  let app ← call (.getApp appId)
  let build ← BuildService.getBuild b
  match app with
  | none => fault .notFound "Build not found for this application"
  | some app =>
      if build.appid ≠ appId then
        fault .notFound "Build not found for this application"
      else if acceptsRecheck build = false then
        fault .routeCheckConflict "Dynamic checks require a running deployment"
      else
        let m ← call (.getBuildResources b)
        if m.all (·.cleanupStatus != .notStarted) ∨ build.teardownRequired then
          fault .routeCheckConflict "Build resources are unavailable or being cleaned up"
        else if build.serviceIds.isEmpty then
          fault .routeCheckConflict "Build deployment has not started its services"
        else
          let _ ← RouteCheckService.verifyBuildGate build app
          match ← buildLease b [.notStarted] (reopen b) with
          | .inl build => return build
          | .inr build =>
              dispatchRun b build.dynamicRunId
              BuildService.getBuild b

/-! ### Endpoints and redaction -/

/-- A declared `expose` entry, as a TCP port; it raises where `int` does. -/
def exposedPort (entry : String) : Except Exc (Option Nat) :=
  match entry.splitOn "/" with
  | [port] | [port, "tcp"] =>
      if Addresses.isDigit port.toList then
        match Addresses.int? port.toList with
        | some n => .ok (if isPort n then some n else none)
        | none => .error (exc .valueError "invalid literal for int() with base 10")
      else .ok none
  | _ => .ok none

/-- A bracketed IPv6 host, without its brackets. -/
def unbracket (host : String) : String :=
  let chars := host.toList
  if chars.head? = some '[' ∧ chars.getLast? = some ']' then
    String.ofList (chars.drop 1).dropLast
  else host

/-- The public host of the settings, where it is not empty. -/
def publicHost (S : Settings) : Option String :=
  (S.publicHost.map unbracket).filter (· != "")

/-- `resource.metadata.get("compose_service") or service.service_name`. -/
def composeName (s : DeploymentService) (r : BuildResource) : String :=
  match r.metadata.get .composeService with
  | some name => if name == "" then s.serviceName else name
  | none => s.serviceName

/-- A published port, at the public host if there is one. -/
def publishedEndpoint (S : Settings) (scheme name : String) (s : DeploymentService)
    (p : PublishedPort) : Except Exc ProbeEndpoint :=
  match publicHost S, p.publishedPort.filter (· != 0) with
  | some host, some number => ProbeEndpoint.make name host number scheme (some p.targetPort)
  | _, _ => ProbeEndpoint.make name s.serviceName p.targetPort scheme (some p.targetPort)

/-- A declared port that is not published, at the service itself. -/
def exposedEndpoint (scheme name : String) (s : DeploymentService) (entry : String) :
    Except Exc (Option ProbeEndpoint) := do
  match ← exposedPort entry with
  | none => return none
  | some n =>
      if n ∈ s.publishedPorts.map (·.targetPort) then return none
      else return some (← ProbeEndpoint.make name s.serviceName n scheme (some n))

/-- The endpoints of one service of the build. -/
def serviceEndpoints (S : Settings) (scheme : String) (build : BuildJob) (s : DeploymentService)
    (r : BuildResource) : Except Exc (List ProbeEndpoint) := do
  let name := composeName s r
  let published ← (s.publishedPorts.filter (·.protocol == "tcp")).mapM
    (publishedEndpoint S scheme name s)
  let source := (build.composeSnapshot.elim [] Compose.services).lookup name
  let exposed ← (source.elim [] ComposeService.expose).mapM (exposedEndpoint scheme name s)
  return published ++ exposed.filterMap id

/-- The resources of the manifest that own a running service. -/
def ownedService (m : BuildResources) (serviceId : String) : Option BuildResource :=
  m.resources.reverse.find? fun r => r.kind == .service && r.managed && !falsy r.nativeId &&
    r.state == .present && r.nativeId == some serviceId

def probeScheme (S : Settings) (grpc : Bool) : String :=
  if grpc then (if S.publicScheme == "https" then "grpcs" else "grpc") else S.publicScheme

/-- The endpoints of the build, from its manifest and the service records of its application. -/
def endpointsOf (S : Settings) (build : BuildJob) (grpc : Bool) (m : BuildResources)
    (services : List DeploymentService) : Except Exc (List ProbeEndpoint) := do
  let found ← services.mapM fun s =>
    if s.buildId = build.buildId ∧ s.serviceId ∈ build.serviceIds then
      match ownedService m s.serviceId with
      | some r => serviceEndpoints S (probeScheme S grpc) build s r
      | none => .ok []
    else .ok []
  return found.flatten

def endpoints (S : Settings) (build : BuildJob) (payload : Json) : P (List ProbeEndpoint) := do
  match ← call (.getBuildResources build.buildId) with
  | none => return []
  | some m =>
      if m.appid ≠ build.appid then return []
      else
        let services ← call (.listServices build.appid)
        Prog.ofExcept (endpointsOf S build (S.isGrpc payload) m services)

def secrets (build : BuildJob) (extra : Option Json := none) : P Secrets := do
  let m ← call (.getBuildResources build.buildId)
  return ⟨m.bind (·.environmentCiphertext), build.routeProbePayload, build.dynamicRetryPayload,
    extra⟩

def redactText (S : Settings) (build : BuildJob) (text : String)
    (extra : Option Json := none) : P String := do
  let hidden ← secrets build extra
  return S.scrubText hidden text

def redactJson (S : Settings) (build : BuildJob) (value : Json) : P Json := do
  let hidden ← secrets build
  return S.scrub hidden value

/-- Redaction reaches the texts of a report, not its verdict. -/
def redactReport (S : Settings) (build : BuildJob) (r : ProbeReport) : P ProbeReport := do
  let body ← redactJson S build r.body
  return { r with body }

def redactResult (S : Settings) (build : BuildJob) (r : ProbeResult) : P ProbeResult := do
  let hidden ← secrets build
  let scrub (x : ProbeReport) : ProbeReport := { x with body := S.scrub hidden x.body }
  return ⟨r.initial.map scrub, r.retry.map scrub, r.final.map scrub,
    r.containerLogs.map (S.scrub hidden)⟩

/-! ### Execution -/

/-- The fields `_finish` saves. -/
def finishFields (passed : Bool) (result : ProbeResult) (report : Option String) :
    BuildFields where
  dynamicStatus := .set (if passed then .succeeded else .failed)
  dynamicCheckPassed := .set (some passed)
  probeResult := .set (some result)
  dynamicReportText := .set (if passed then none else report)
  dynamicDispatchError := .set none
  teardownRequired := if passed then .keep else .set true
  teardownStatus := if passed then .keep else .set (some .pending)

/-- `value or default`, on texts. -/
def orText (value : Option String) (default : String) : String :=
  if falsy value then default else value.getD default

/-- `redact_text(build, report)[:4000] if report else None`. -/
def shownReport (S : Settings) (build : BuildJob) (report : Option String) :
    P (Option String) :=
  if falsy report then .ret none
  else do
    let text ← redactText S build (report.getD "")
    return some (clip 4000 text)

def finish (S : Settings) (b : BuildId) (passed : Bool) (result : ProbeResult)
    (report : Option String) (guard : P Unit) : P BuildJob := do
  let build ← BuildService.getBuild b
  let report ← shownReport S build report
  let result ← redactResult S build result
  let saved ← save b (finishFields passed result report) guard
  let build ← (if passed then .ret saved
    else do
      guard
      BuildService.fail b (orText report dynamicFailed) (some "dynamic_check") : P BuildJob)
  syncResult build guard
  return build

/-- The locals of `execute` that its handlers read. -/
structure Progress where
  result : ProbeResult
  report : Option String

/-- The `try` of `execute` ends with a build, or with an exception and the locals there. -/
abbrev Outcome := Except (Exc × Progress) BuildJob

/-- A step of the `try`, at the locals `st`. -/
def stage {α : Type} (st : Progress) (p : P α) (k : α → P Outcome) : P Outcome :=
  p.attempt.bind fun
    | .ok a => k a
    | .error e => .ret (.error (e, st))

/-- The last step of the `try`. -/
def settle (st : Progress) (p : P BuildJob) : P Outcome := stage st p fun build => .ret (.ok build)

/-- Up to the first probe: the run, its claim of the row, the request and the endpoints. -/
def prepareRun (S : Settings) (b : BuildId) (build : BuildJob) (guard : P Unit) :
    P (BuildJob × Json × List ProbeEndpoint) := do
  let build ← (if build.dynamicRunId = none then do
      let run ← call .uuid4
      save b { dynamicRunId := .set (some run) } guard
    else .ret build : P BuildJob)
  claimResult build guard (build.dynamicStatus = .pending)
  let build ← save b { dynamicStatus := .set .running, dynamicDispatchError := .set none } guard
  let original ← Prog.ofExcept
    (S.validateProbePayload build.routeProbePayload build.requireRouteSnapshot)
  let endpoints ← endpoints S build original
  return (build, original, endpoints)

/-- The single retry. -/
def retryProbe (S : Settings) (b : BuildId) (endpoints : List ProbeEndpoint) (retry : Json)
    (guard : P Unit) (st : Progress) : P Outcome :=
  let probe : P (ProbeReport × ProbeReport × ProbeReport) := do
    let build ← save b { dynamicRetryStarted := .set true } guard
    let retried ← orRaise (call (.runProbe b retry endpoints))
    let first ← redactReport S build retried
    let second ← redactReport S build retried
    return (retried, first, second)
  stage st probe fun (retried, first, second) =>
    let result := { st.result with retry := some first, final := some second }
    let report := if retried.passed then st.report else
      some (orText st.report dynamicFailed ++
        "；唯一一次探针重试仍未通过，请结合最终响应修复代码或运行配置")
    settle ⟨result, report⟩ (finish S b retried.passed result report guard)

/-- The debug agent's turn, once: logs, the agent, and its repaired request. -/
def debugRun (S : Settings) (b : BuildId) (build : BuildJob) (original : Json)
    (endpoints : List ProbeEndpoint) (guard : P Unit) (st : Progress) : P Outcome :=
  let collect : P Json := do
    let logs ← orRaise (call (.collectLogs b))
    redactJson S build logs
  stage st collect fun logs =>
    let st := { st with result := { st.result with containerLogs := some logs } }
    let ask : P (BuildJob × DebugOutput) := do
      let build ← save b { dynamicDebugStarted := .set true, probeResult := .set (some st.result) }
        guard
      syncResult build guard
      match build.routeDynamicRoleSnapshot with
      | none => fault .valueError "validation error for AgentRole"
      | some role =>
          if role.roleKey ≠ .dynamicDebugAgent ∨
              some role.agentRoleVersion ≠ build.dynamicAgentRoleVersion then
            fault .routeCheckInput "Dynamic agent role snapshot does not match this build"
          else
            let _ ← redactJson S build original
            let output ← orRaise (call (.runDebugAgent b role))
            guard
            return (build, output)
    stage st ask fun (build, output) =>
      let invalid := exc .routeCheckInput "Debug Agent must return retry_payload and report_text"
      match output.reportText with
      | none => .ret (.error (invalid, st))
      | some agentReport =>
          let redacted : P String := do
            let text ← redactText S build agentReport (output.retryPayload.getD none)
            return clip 4000 text
          stage st redacted fun text =>
            let st := { st with report := some text }
            stage st (save b { dynamicReportText := .set (some text) } guard) fun build =>
              match output.retryPayload with
              | none => .ret (.error (invalid, st))
              | some none =>
                  settle st (finish S b false st.result
                    (some (orText st.report "Debug Agent 未能构造可恢复的探针请求")) guard)
              | some (some retry) =>
                  let accept : P Json := do
                    let retry ← Prog.ofExcept
                      (S.retryPayload original retry build.requireRouteSnapshot)
                    let _ ← save b { dynamicRetryPayload := .set (some retry)
                                     dynamicReportText := .set st.report } guard
                    return retry
                  stage st accept fun retry =>
                    retryProbe S b endpoints retry guard st

/-- What follows the first probe. -/
def afterInitial (S : Settings) (b : BuildId) (build : BuildJob) (original : Json)
    (endpoints : List ProbeEndpoint) (guard : P Unit) (st : Progress) : P Outcome :=
  let end_ (passed : Bool) (report : Option String) : P Outcome :=
    settle st (finish S b passed st.result report guard)
  if st.result.initial.any (·.passed) then end_ true none
  else match st.result.retry with
    | some retried => end_ retried.passed build.dynamicReportText
    | none =>
        if build.dynamicRetryStarted then
          end_ false (some "唯一一次探针重试被中断；未重复执行重试")
        else
          let st := { st with report := build.dynamicReportText }
          match build.dynamicRetryPayload with
          | none =>
              if build.dynamicDebugStarted then
                let interrupted := "Debug Agent 执行被中断；未重复调用或额外重试"
                let text := if falsy st.report then interrupted
                  else st.report.getD "" ++ "；" ++ interrupted
                settle st (finish S b false st.result (some text) guard)
              else debugRun S b build original endpoints guard st
          | some retry =>
              stage st (Prog.ofExcept (S.retryPayload original retry build.requireRouteSnapshot))
                fun retry => retryProbe S b endpoints retry guard st

/-- The `try` of `execute`. -/
def runCheck (S : Settings) (b : BuildId) (build : BuildJob) (guard : P Unit) (st : Progress) :
    P Outcome :=
  stage st (prepareRun S b build guard) fun (build, original, endpoints) =>
    if st.result.initial.isSome then afterInitial S b build original endpoints guard st
    else if build.dynamicInitialStarted then
      settle st (finish S b false st.result
        (some "首次探针执行被中断；为避免重复请求已终止交付") guard)
    else
      let probe : P (BuildJob × ProbeReport × ProbeReport) := do
        let build ← save b { dynamicInitialStarted := .set true } guard
        let initial ← orRaise (call (.runProbe b original endpoints))
        let first ← redactReport S build initial
        let second ← redactReport S build initial
        return (build, first, second)
      stage st probe fun (_, first, second) =>
        let st := { st with
          result := { st.result with initial := some first, final := some second } }
        let keep : P BuildJob := do
          let build ← save b { probeResult := .set (some st.result) } guard
          syncResult build guard
          return build
        stage st keep fun build => afterInitial S b build original endpoints guard st

/-- What the handlers of `execute` report. -/
def caughtReport (e : Exc) (report : Option String) : String :=
  if e.kind = .routeCheckConflict ∨ e.kind = .routeCheckInput ∨ e.kind = .agentExecution ∨
      e.isValueError then
    let safe := if e.kind = .routeCheckInput ∨ e.kind = .agentExecution then e.message
      else "动态检查输入或角色配置无效"
    if falsy report then safe
    else report.getD "" ++ "；Debug Agent 重试请求未能安全执行：" ++ safe
  else
    let safe := "动态检查或 Debug Agent 执行失败；请检查受控探针和 Agent 运行环境"
    if falsy report then safe else report.getD "" ++ "；" ++ safe

/-- A build whose check failed is failed too, if a crash came between. -/
def failInterrupted (b : BuildId) (build : BuildJob) (guard : P Unit) : P BuildJob :=
  if build.dynamicStatus = .failed ∧ build.status = .deploying then do
    guard
    BuildService.fail b (orText build.dynamicReportText dynamicFailed) (some "dynamic_check")
  else .ret build

def execute (S : Settings) (b : BuildId) (guard : P Unit) : P BuildJob := do
  let build ← BuildService.getBuild b
  if build.dynamicStatus = .succeeded ∨ build.dynamicStatus = .failed then
    let build ← failInterrupted b build guard
    syncResult build guard
    return build
  else if build.status ≠ .deploying then
    fault .routeCheckConflict "Dynamic checks must run before delivery succeeds"
  else
    match ← runCheck S b build guard ⟨build.probeResult.getD {}, build.dynamicReportText⟩ with
    | .ok build => return build
    | .error (e, st) =>
        if e.kind = .resourceConflict then Prog.raise e
        else finish S b false st.result (some (caughtReport e st.report)) guard

/-! ### Teardown and recovery -/

/-- The teardown status that goes with a manifest. -/
def teardownStatusOf (m : Option BuildResources) : TeardownStatus :=
  match m with
  | none => .partialFailed
  | some m => match m.cleanupStatus with
    | .succeeded => .succeeded
    | .partialFailed => .partialFailed
    | .running => .running
    | .notStarted | .queued => .pending

def syncTeardown (b : BuildId) : P Unit := do
  let build ← BuildService.getBuild b
  let m ← call (.getBuildResources b)
  if build.teardownRequired = false ∧ build.teardownStatus = none then return ()
  else
    let status := teardownStatusOf m
    let _ ← call (.updateBuild b { teardownStatus := .set (some status)
                                   teardownRequired := .set (status ≠ .succeeded) })
    return ()

def teardown (S : Settings) (b : BuildId) (cleanup : P Unit) : P Unit := do
  let build ← BuildService.getBuild b
  if build.teardownRequired = false then syncTeardown b
  else
    let attempt : P Unit := do
      let _ ← requestCleanup S b false
      let _ ← call (.updateBuild b { teardownStatus := .set (some .running) })
      cleanup
    match ← attempt.attempt with
    | .error _ =>
        let _ ← call (.updateBuild b { teardownStatus := .set (some .partialFailed)
                                       teardownRequired := .set true })
        return ()
    | .ok _ => syncTeardown b

/-- The body of the lease of `recover`; `false` skips the teardown. -/
def recordFailure (b : BuildId) : Option ResourceTracker → P Bool
  | none => return false
  | some tr => do
      let current ← BuildService.getBuild b
      let current ← failInterrupted b current tr.guard
      if current.dynamicStatus = .failed then syncResult current tr.guard
      return true

def recoverBuild (S : Settings) (build : BuildJob) : P Unit := do
  let b := build.buildId
  let m ← call (.getBuildResources b)
  let now ← call .utcNow
  if m.any fun m => m.leaseOwner.isSome && !leaseExpired m.leaseExpiresAt now then return ()
  else if build.teardownRequired then
    let proceed ← (if build.dynamicStatus = .failed then
        buildLease b [.notStarted, .partialFailed] (recordFailure b)
      else .ret true : P Bool)
    if proceed then teardown S b (runCleanup S b)
  else if (build.dynamicStatus = .queued ∨ build.dynamicStatus = .running) ∧
      build.status = .deploying then
    let _ ← (orRaise (call (.dispatchDynamicCheck b build.dynamicRunId))).attempt
    return ()
  else return ()

def recover (S : Settings) : P Unit := do
  let builds ← call .listPendingDynamicBuilds
  Prog.forEach builds (recoverBuild S)

end DynamicCheckService

end Orchestrator
