import Orchestrator.Services.DynamicChecks

/-!
# Services — the worker

`WorkerRuntime` of `worker_runtime.py`: one delivery of a task is one run of one of its methods.

* `runBuildOperation`: the lease around every operation on a build, and the teardown after it.
* `startBody`: validation, the route gate, and the Jenkins trigger.
* `pollBody`: Jenkins, and the deployment once it has finished; `resumeDeployment` goes on with
  one that was interrupted.
* `completeDeployment`: artifact, images, services, ports; then `completeDynamicDeployment`.
* `failDelivery`: what every failure in between leads to.
-/

namespace Orchestrator
open Interleaving

namespace WorkerRuntime
variable (S : Settings)

/-! ### Reading the inputs of a build -/

/-- `_application`: the application, with the inputs the manifest of the build froze. -/
def application (build : BuildJob) : P UserAppRecord := do
  match ← call (.getApp build.appid) with
  | none => fault .notFound "Application for build was not found"
  | some app =>
      match ← call (.getBuildResources build.buildId) with
      | none => return app
      | some m =>
          if m.ownershipVersion = 1 then
            return { app with repositoryUrl := m.repositoryUrl.getD ""
                              environmentCiphertext := m.environmentCiphertext }
          else return app

/-- `_isolated`. -/
def isolated (build : BuildJob) : P Bool := do
  let m ← call (.getBuildResources build.buildId)
  return m.any (·.ownershipVersion == 1)

/-- `_workspace_compose`. -/
def workspaceCompose (build : BuildJob) (compose : Compose) : P Compose := do
  if compose.services.isEmpty then
    fault .buildInput "Build compose document must contain services"
  else match build.workspaceSnapshot with
    | none => return compose
    | some snapshot =>
        let isolated ← isolated build
        orRaise (call (.resolveCompose isolated build.appid snapshot compose))

/-- `WorkspaceStore.build_source`. -/
def buildSource (compose : Compose) : Except Exc String :=
  if compose.buildSource = "git" ∨ compose.buildSource = "workspace" then .ok compose.buildSource
  else .error (exc .workspaceError "x-orchestrator-build-source must be git or workspace")

def workspaceArchiveUrl (build : BuildJob) (compose : Compose) : Except Exc String := do
  let source ← buildSource compose
  if source = "workspace" ∧ build.workspaceFileCount = 0 then
    .error (exc .buildInput
      "Workspace build source is empty; upload files before creating the build")
  else if build.workspaceFileCount = 0 ∧ source ≠ "workspace" then .ok ""
  else match S.workspaceDownloadBaseUrl with
    | none => .error (exc .buildInput
        "ORCHESTRATOR_WORKSPACE_DOWNLOAD_BASE_URL must be reachable from the Jenkins builder")
    | some base =>
        if S.isHttpUrl base = false then .error (exc .buildInput
          "ORCHESTRATOR_WORKSPACE_DOWNLOAD_BASE_URL must be reachable from the Jenkins builder")
        else if build.workspaceSnapshot = none then
          .error (exc .buildInput "Workspace build snapshot is missing; create a new build")
        else .ok (base ++ "/api/v1/workspace/" ++ build.appid ++ "/builds/" ++ build.buildId.hex ++
          "/archive")

/-! ### Failure -/

/-- `_safe_error`. -/
def safeErrorText (e : Exc) (fallback : String) : String :=
  if e.isValueError ∨ e.isJenkinsError ∨ e.kind = .dockerService ∨ e.kind = .gitlabError then
    let message := e.message.trimAscii.toString
    if message.isEmpty then fallback
    else clip (if e.isJenkinsError then S.failureSummaryMaxChars
      else min 2000 S.failureSummaryMaxChars) message
  else fallback

/-- `_infer_failure_site`. -/
def inferFailureSite (build : BuildJob) (e : Exc) : String :=
  match e.failureSite with
  | some site => site
  | none =>
      if e.kind = .buildInput then match build.status with
        | .queued | .validating => "precheck"
        | .triggering => "triggering"
        | _ => "validating"
      else if e.isJenkinsError then "jenkins"
      else match build.status with
        | .deploying => "deploy"
        | .building => "jenkins"
        | .validating => "validating"
        | .triggering => "triggering"
        | _ => "worker"

/-- What a failed delivery writes before the build is failed. -/
def failedDeliveryFields (report : String) : BuildFields where
  dynamicCheckPassed := .set (some false)
  dynamicStatus := .set .failed
  dynamicReportText := .set (some report)
  teardownRequired := .set true
  teardownStatus := .set (some .pending)

/-- The aggregate row, told of a failed delivery. -/
def failedRowFields (current : BuildJob) (report : String) : RouteCheckFields where
  dynamicBuildId := .set (some current.buildId)
  dynamicRunId := .set current.dynamicRunId
  dynamicAgentRoleVersion := .set current.dynamicAgentRoleVersion
  dynamicRoleSnapshot := .set current.routeDynamicRoleSnapshot
  dynamicStatus := .set .failed
  dynamicCheckPassed := .set (some false)
  dynamicReportText := .set (some report)
  probeResult := .set current.probeResult

def failRow (current : BuildJob) (report : String) (tr : ResourceTracker) : P Unit := do
  match ← DynamicCheckService.frozenRow current with
  | none => return ()
  | some row =>
      if some row.generation ≠ current.routeCheckGeneration then return ()
      else
        tr.guard
        let _ ← call (.updateRouteCheck row.checkId (failedRowFields current report)
          { generation := .eq row.generation, dynamicBuildId := .eq row.dynamicBuildId
            dynamicRunId := .eq row.dynamicRunId })
        return ()

/-- `_fail`. -/
def failDelivery (b : BuildId) (e : Exc) (fallback : String) (tr : ResourceTracker) :
    P Unit := do
  tr.guard
  let current ← BuildService.getBuild b
  let report := safeErrorText S e fallback
  let site := inferFailureSite current e
  if current.status = .deploying then
    let _ ← call (.updateBuild b (failedDeliveryFields report))
    let _ ← BuildService.fail b report (some site)
    failRow current report tr
  else
    let _ ← BuildService.fail b report (some site)
    return ()

/-! ### Teardown -/

def cleanupBuild (b : BuildId) : P Unit :=
  (runCleanup S b).ensuring (DynamicCheckService.syncTeardown b)

def teardownIfRequired (b : BuildId) : P Unit := do
  match ← call (.getBuild b) with
  | none => return ()
  | some build =>
      if build.teardownRequired = false then return ()
      else
        let m ← call (.getBuildResources b)
        let now ← call .utcNow
        if m.any fun m => m.leaseOwner.isSome && !leaseExpired m.leaseExpiresAt now then return ()
        else
          (DynamicCheckService.teardown S b (cleanupBuild S b)).tryCatch fun _ => do
            let _ ← call (.updateBuild b { teardownRequired := .set true
                                           teardownStatus := .set (some .partialFailed) })
            return ()

/-! ### The lease around an operation -/

/-- The body of the lease: a conflict is the end of it where the lease is lost as well. -/
def underLease (b : BuildId) (operation : ResourceTracker → P Unit) :
    Option ResourceTracker → P Unit
  | none => do
      let _ ← BuildService.getBuild b
      return ()
  | some tr =>
      (do
        tr.guard
        operation tr : P Unit).tryCatch fun e =>
          if e.kind = .resourceConflict then do
            match ← tr.guard.attempt with
            | .error _ =>
                let _ ← BuildService.getBuild b
                return ()
            | .ok _ => Prog.raise e
          else Prog.raise e

/-- The `try` of `_run_build_operation`: the operation, under its lease. -/
def operate (b : BuildId) (operation : ResourceTracker → P Unit) : P Unit := do
  let build ← BuildService.getBuild b
  if build.status.terminal ∨ build.inputsReady = false then return ()
  else
    let _ ← orRaise (call (.ensureBuildResources
      { buildId := b, appid := build.appid, ownershipVersion := 0 }))
    buildLease b [.notStarted] (underLease b operation)

def runBuildOperation (b : BuildId) (operation : ResourceTracker → P Unit) : P Unit :=
  (operate b operation).ensuring (teardownIfRequired S b)

def schedulePoll (b : BuildId) (attempt : Nat) (tr : ResourceTracker) : P Unit := do
  tr.guard
  orRaise (call (.schedulePoll b attempt))

/-! ### Starting a build -/

/-- `update_build(...) or build`. -/
def updateOr (build : BuildJob) (fields : BuildFields) : P BuildJob := do
  let updated ← call (.updateBuild build.buildId fields)
  return updated.getD build

/-- The git reference of a build: the frozen commit, or `ref`. -/
def gitRefOr (build : BuildJob) (ref : String) : String :=
  if falsy build.gitCommitSha then ref else build.gitCommitSha.getD ref

def tooLongTag (b : BuildId) (name : String) : Bool := (b.hex ++ "-" ++ name).length > 128

/-- The pure checks of the Compose document of a build. -/
def checkCompose (build : BuildJob) (app : UserAppRecord) (compose : Compose) : P String := do
  let runtime ← workspaceCompose build compose
  let environment ← Prog.ofExcept (S.decryptEnvironment app.environmentCiphertext)
  let runtime ← Prog.ofExcept (S.resolveApplicationEnvironment runtime environment)
  Prog.ofExcept (S.validateSourceCompose runtime)
  let isolated ← isolated build
  if isolated then
    Prog.ofExcept (S.validateBuildCompose runtime environment)
    if compose.services.any fun s => tooLongTag build.buildId s.1 then
      fault .buildInput "Build-exclusive image tags must fit Docker's 128-character limit"
  let source ← Prog.ofExcept (buildSource compose)
  if source = "git" ∧ app.repositoryUrl = "" ∧ compose.services.any (·.2.build) then
    fault .buildInput ("A repository_url is required for git builds; " ++
      "use x-orchestrator-build-source: workspace for uploaded sources")
  else return source

/-- The commit GitLab resolves the reference to, where the build has none yet. -/
def pinnedRef (build : BuildJob) (app : UserAppRecord) (source : String)
    (tr : ResourceTracker) : P (BuildJob × String) :=
  if S.gitlab ∧ app.repositoryUrl ≠ "" ∧ source ≠ "workspace" ∧ build.gitCommitSha = none then do
    let sha ← orRaise (call (.validateRepositoryRef app.repositoryUrl build.gitRef))
    tr.guard
    let build ← updateOr build { gitCommitSha := .set (some sha) }
    recordEvent app.appid (some build.buildId) "build.gitlab_ref_validated"
      "GitLab repository reference validated"
    return (build, sha)
  else .ret (build, build.gitRef)

/-- `VALIDATING`: the checks, the immutable commit, and the step to `TRIGGERING`. -/
def validateInputs (build : BuildJob) (app : UserAppRecord) (compose : Compose)
    (tr : ResourceTracker) : P (BuildJob × String) := do
  let source ← checkCompose S build app compose
  recordEvent app.appid (some build.buildId) "build.compose_validated"
    "Build compose input validated"
  let (build, ref) ← pinnedRef S build app source tr
  let ref := gitRefOr build ref
  tr.guard
  let build ← BuildService.transition build.buildId .triggering
  return (build, ref)

/-- The build past `VALIDATING`, and the reference Jenkins is to build. -/
def validated (build : BuildJob) (app : UserAppRecord) (compose : Option Compose)
    (tr : ResourceTracker) : P (BuildJob × String) :=
  if build.status = .validating then
    match compose with
    | none => fault .buildInput "Build compose document must be a mapping"
    | some compose => validateInputs S build app compose tr
  else .ret (build, gitRefOr build build.gitRef)

/-- The request for Jenkins; it names the build only where the build is isolated. -/
def jenkinsRequest (build : BuildJob) (app : UserAppRecord) (compose : Compose) (ref : String) :
    P JenkinsBuildRequest := do
  let imageRepository ← Prog.ofExcept (S.imageRepository app.appid)
  let url ← Prog.ofExcept (workspaceArchiveUrl S build compose)
  let isolated ← isolated build
  let request : JenkinsBuildRequest :=
    { appid := app.appid, repositoryUrl := app.repositoryUrl, gitRef := ref, compose
      imageRepository, workspaceArchiveUrl := url
      workspaceArchiveSha256 := build.workspaceArchiveSha256.getD ""
      buildId := if isolated then some build.buildId else none }
  Prog.ofExcept (S.asParameters request)
  return request

def recordPlannedImages (build : BuildJob) (app : UserAppRecord) (compose : Compose)
    (tr : ResourceTracker) : P Unit := do
  let isolated ← isolated build
  if isolated then
    Prog.forEach compose.services fun s => do
      let repository ← Prog.ofExcept (S.imageRepository app.appid)
      let _ ← tr.record { kind := .registryImage, target := "harbor"
                          name := imageReference repository build.buildId s.1 }
      return ()

/-- The gate at trigger time, on the build and the application as they are now. -/
def gate (b : BuildId) : P RouteCheckResult := do
  let current ← BuildService.getBuild b
  match ← call (.getApp current.appid) with
  | none => fault .notFound "Application for build was not found"
  | some app => RouteCheckService.verifyBuildGate current app

/-- `update_build_resources(b, {"jenkins_trigger_pending": pending}, {"lease_owner": owner})`. -/
def setTriggerPending (b : BuildId) (pending : Bool) (tr : ResourceTracker) : P Unit := do
  let _ ← call (.updateBuildResources b { jenkinsTriggerPending := .set pending }
    { leaseOwner := .eq tr.owner })
  return ()

/-- The trigger itself, with the flag around it. -/
def triggerJenkins (build : BuildJob) (request : JenkinsBuildRequest) (tr : ResourceTracker) :
    P BuildJob := do
  let b := build.buildId
  setTriggerPending b true tr
  let queued ← (orRaise (call (.triggerBuild b request))).tryCatch fun e =>
    if e.kind = .jenkinsNotStarted then do
      tr.guard
      setTriggerPending b false tr
      Prog.raise e
    else Prog.raise e
  tr.guard
  let build ← updateOr build { jenkinsQueueUrl := .set (some queued.queueUrl) }
  setTriggerPending b false tr
  return build

/-- `TRIGGERING` without a queue item. -/
def trigger (build : BuildJob) (app : UserAppRecord) (compose : Option Compose) (ref : String)
    (tr : ResourceTracker) : P BuildJob := do
  tr.guard
  let m ← currentManifest build.buildId
  if m.jenkinsTriggerPending then
    fault .buildInput
      "Jenkins trigger outcome is unknown; verify external execution before retrying"
  else match compose with
    | none => fault .runtimeError "'NoneType' object is not subscriptable"
    | some compose =>
        recordPlannedImages S build app compose tr
        let request ← jenkinsRequest S build app compose ref
        tr.guard
        let _ ← gate build.buildId
        tr.guard
        let build ← triggerJenkins build request tr
        recordEvent app.appid (some build.buildId) "build.jenkins_triggered"
          "Jenkins build triggered"
        return build

/-- The `try` of `_start_build`. -/
def startSteps (build : BuildJob) (taskId : Option String) (app : UserAppRecord)
    (tr : ResourceTracker) : P Unit := do
  let compose := match build.composeSnapshot with
    | some c => some c
    | none => app.compose
  tr.guard
  let build ← (if build.celeryTaskId = none ∧ falsy taskId = false then
      updateOr build { celeryTaskId := .set taskId }
    else .ret build : P BuildJob)
  let build ← (if build.status = .queued then BuildService.transition build.buildId .validating
    else .ret build : P BuildJob)
  let (build, ref) ← validated S build app compose tr
  let build ← (if build.status = .triggering ∧ falsy build.jenkinsQueueUrl then
      trigger S build app compose ref tr
    else .ret build : P BuildJob)
  let build ← (if build.status = .triggering then do
      tr.guard
      BuildService.transition build.buildId .building
    else .ret build : P BuildJob)
  if build.status = .building ∨ build.status = .deploying then
    schedulePoll build.buildId 0 tr

/-- `_start_build`. -/
def startBody (b : BuildId) (taskId : Option String) (tr : ResourceTracker) : P Unit := do
  let build ← BuildService.getBuild b
  if build.status.terminal then return ()
  else
    let app ← application build
    (startSteps S build taskId app tr).tryCatch fun e =>
      failDelivery S b e "Build validation or Jenkins trigger failed" tr

/-! ### Deployment -/

/-- `_complete_dynamic_deployment`. -/
def completeDynamicDeployment (b : BuildId) (tr : ResourceTracker) : P Unit := do
  tr.guard
  let checked ← DynamicCheckService.execute S b tr.guard
  tr.guard
  let current ← BuildService.getBuild b
  if current.status.terminal ∨ checked.status.terminal then return ()
  else if current.dynamicCheckPassed ≠ some true ∨ current.dynamicStatus ≠ .succeeded ∨
      current.teardownRequired then return ()
  else
    let succeeded ← BuildService.transition b .succeeded
    recordEvent succeeded.appid (some succeeded.buildId) "build.deployed"
      "Docker Services deployment completed"

/-- `_probe_public_ports`: every published TCP port accepts a connection. -/
def probePublicPorts (b : BuildId) (deployment : List ServiceDeployment) : P Unit := do
  match S.readinessHost with
  | .error e => Prog.raise e
  | .ok none => return ()
  | .ok (some host) =>
      Prog.forEach deployment fun s =>
        Prog.forEach s.ports fun p =>
          match p.publishedPort with
          | some published =>
              if p.protocol = "tcp" then
                orRaise (call (.connectPort b host s.serviceName published))
              else return ()
          | none => return ()

/-- `to_models`. -/
def toModel (appid : String) (b : BuildId) (s : ServiceDeployment) : DeploymentService where
  serviceId := s.serviceId
  appid
  buildId := b
  serviceName := s.serviceName
  image := s.image
  status := "deployed"
  endpoint := s.endpoint
  publishedPorts := s.ports

/-- The artifact belongs to this build, and pins a commit: the one to save, if any. -/
def checkArtifactSource (build : BuildJob) (source : Compose) (artifact : JenkinsResultArtifact) :
    Except Exc (Option String) := do
  if artifact.buildId ≠ some build.buildId then
    .error (exc .buildInput
      "Jenkins artifact does not match the isolated build; upgrade the pipeline contract")
  else
    let kind ← buildSource source
    if kind ≠ "workspace" ∧ source.services.any (·.2.build) then
      match artifact.actualCommit.filter isLowerSha with
      | none => .error (exc .buildInput
          "Jenkins artifact is missing its immutable checkout commit")
      | some commit =>
          if falsy build.gitCommitSha = false ∧ build.gitCommitSha ≠ some commit then
            .error (exc .buildInput "Jenkins checkout commit does not match the frozen build input")
          else .ok (some commit)
    else .ok none

/-- `re.fullmatch(r"sha256:[a-f0-9]{64}", text)`. -/
def isDigest (text : String) : Bool :=
  "sha256:".isPrefixOf text && (text.toList.drop 7).length == 64 &&
    (text.toList.drop 7).all fun c => ('0' ≤ c && c ≤ '9') || ('a' ≤ c && c ≤ 'f')

/-- The images of the artifact are the build-exclusive ones of its services, with digests. -/
def checkArtifactImages (build : BuildJob) (repository : String) (deployment : Compose)
    (artifact : JenkinsResultArtifact) : Except Exc Unit :=
  if deployment.services.any fun s =>
      s.2.image != some (imageReference repository build.buildId s.1) then
    .error (exc .buildInput "Jenkins service image does not match its build-exclusive reference")
  else if artifact.images.any fun r =>
      !(repository ++ ":" ++ build.buildId.hex ++ "-").isPrefixOf r then
    .error (exc .buildInput "Jenkins artifact contains a non-build-exclusive image reference")
  else if artifact.images.any fun r => !(artifact.imageDigests.lookup r).any isDigest then
    .error (exc .buildInput "Jenkins artifact is missing a verified build image digest")
  else
    let deployed := deployment.services.filterMap (·.2.image)
    if artifact.images.all (· ∈ deployed) ∧ deployed.all (· ∈ artifact.images) then .ok ()
    else .error (exc .buildInput
      "Jenkins artifact image inventory does not match deployment services")

/-- The checks of an isolated build on its artifact; the commit is saved before the images are
looked at. -/
def checkIsolatedArtifact (build : BuildJob) (source deployment : Compose)
    (artifact : JenkinsResultArtifact) (tr : ResourceTracker) : P BuildJob := do
  let commit ← Prog.ofExcept (checkArtifactSource build source artifact)
  let build ← (match commit with
    | some commit => do
        tr.guard
        updateOr build { gitCommitSha := .set (some commit) }
    | none => .ret build : P BuildJob)
  let repository ← Prog.ofExcept (S.imageRepository build.appid)
  Prog.ofExcept (checkArtifactImages build repository deployment artifact)
  return build

def registerImage (build : BuildJob) (artifact : JenkinsResultArtifact) (tr : ResourceTracker)
    (reference : String) : P Unit := do
  let isolated ← isolated build
  if isolated then
    let _ ← tr.record
      { kind := .registryImage, name := reference, target := "harbor", state := .present
        metadata := some [(.buildId, some build.buildId.hex),
          (.digest, artifact.imageDigests.lookup reference)] }
  call (.saveUserImage ⟨build.appid, build.buildId, reference⟩)

/-- The Compose document the deployment runs. -/
def deploymentCompose (build : BuildJob) (app : UserAppRecord) (source : Option Compose)
    (artifact : JenkinsResultArtifact) : P (Compose × Compose) := do
  match source with
  | none => fault .buildInput "Build compose document must be a mapping"
  | some source =>
      Prog.ofExcept (S.validateArtifactTopology source artifact.compose)
      let compose ← workspaceCompose build artifact.compose
      let environment ← Prog.ofExcept (S.decryptEnvironment app.environmentCiphertext)
      let compose ← Prog.ofExcept (S.resolveApplicationEnvironment compose environment)
      Prog.ofExcept (S.validateDeploymentCompose compose)
      return (source, compose)

/-- Services, their records, and the ports. -/
def rollOut (build : BuildJob) (compose : Compose) (tr : ResourceTracker) : P Unit := do
  let isolated ← isolated build
  let deployment ← (if isolated then tr.docker (.deployBuild build.appid build.buildId compose)
    else orRaise (call (.deploy build.buildId build.appid compose)) : P (List ServiceDeployment))
  tr.guard
  let records := deployment.map (toModel build.appid build.buildId)
  Prog.forEach records fun r => do
    tr.guard
    call (.saveService r)
  tr.guard
  let build ← updateOr build { serviceIds := .set (records.map (·.serviceId)) }
  probePublicPorts S build.buildId deployment
  completeDynamicDeployment S build.buildId tr

/-- `_complete_deployment`. -/
def completeDeployment (build : BuildJob) (number : Nat) (tr : ResourceTracker) : P Unit := do
  let artifact ← orRaise (call (.getResultArtifact number))
  let app ← application build
  let source := match build.composeSnapshot with
    | some c => some c
    | none => app.compose
  let (source, compose) ← deploymentCompose S build app source artifact
  tr.guard
  let isolated ← isolated build
  let build ← (if isolated then checkIsolatedArtifact S build source compose artifact tr
    else .ret build : P BuildJob)
  Prog.forEach artifact.images (registerImage build artifact tr)
  if build.status = .building then
    let build ← BuildService.transition build.buildId .deploying { images := .set artifact.images }
    recordEvent build.appid (some build.buildId) "build.images_registered"
      "Jenkins build images registered"
    rollOut S build compose tr
  else if build.status = .deploying then rollOut S build compose tr
  else
    let _ ← BuildService.getBuild build.buildId
    return ()

/-- `_resume_deployment`: records that exist stand for a deployment that was done. -/
def resumeDeployment (build : BuildJob) (tr : ResourceTracker) : P Unit := do
  let services ← call (.listServices build.appid)
  let records := services.filter (·.buildId == build.buildId)
  if build.serviceIds ≠ [] ∨ records ≠ [] ∨ build.dynamicStatus ≠ .pending then
    let build ← (if build.serviceIds = [] ∧ records ≠ [] then do
        tr.guard
        updateOr build { serviceIds := .set (records.map (·.serviceId)) }
      else .ret build : P BuildJob)
    completeDynamicDeployment S build.buildId tr
  else match build.jenkinsBuildNumber with
    | none => fault .jenkinsError "Jenkins build number is missing for deployment recovery"
    | some number => completeDeployment S build number tr

/-! ### Polling -/

/-- `_jenkins_failure_diagnostic`, as the error it leads to. -/
def jenkinsFailure (build : BuildJob) (number : Nat) (result : Option String) : P Exc := do
  let message := "Jenkins build finished with " ++ (if falsy result then "unknown result"
    else result.getD "") ++ "；Jenkins #" ++ toString number
  let diagnose : P String := do
    let app ← application build
    let _ ← Prog.ofExcept (S.decryptEnvironment app.environmentCiphertext)
    orRaise (call (.getFailureDiagnostic number))
  match ← diagnose.attempt with
  | .ok summary => return ⟨.jenkinsError, message ++ "；" ++ summary, some "jenkins"⟩
  | .error _ => return ⟨.jenkinsError, message ++
      "；错误详情暂不可用（无法读取或解析 Jenkins 控制台日志）；请查看该 Jenkins 构建的控制台",
      some "jenkins"⟩

/-- What follows once Jenkins has assigned a build number. -/
def pollExecution (build : BuildJob) (attempt number : Nat) (tr : ResourceTracker) : P Unit := do
  let current ← orRaise (call (.getJenkinsBuild number))
  tr.guard
  let now ← call .utcNow
  let _ ← call (.updateBuild build.buildId { lastPolledAt := .set (some now) })
  match current.state with
  | .building | .unknown => schedulePoll build.buildId (attempt + 1) tr
  | .succeeded => completeDeployment S build current.number tr
  | .failed | .cancelled =>
      let e ← jenkinsFailure S build current.number current.result
      Prog.raise e

/-- The `try` of `_poll_build`. -/
def pollSteps (build : BuildJob) (attempt : Nat) (tr : ResourceTracker) : P Unit := do
  if build.status = .deploying then resumeDeployment S build tr
  else if falsy build.jenkinsQueueUrl then
    fault .jenkinsError "Jenkins queue reference is missing"
  else match build.jenkinsBuildNumber with
    | some number => pollExecution S build attempt number tr
    | none =>
        let queue ← orRaise (call (.getQueueItem (build.jenkinsQueueUrl.getD "")))
        tr.guard
        if queue.cancelled then fault .jenkinsError "Jenkins build was cancelled"
        else
          let now ← call .utcNow
          match queue.buildNumber with
          | none =>
              let _ ← call (.updateBuild build.buildId { lastPolledAt := .set (some now) })
              schedulePoll build.buildId (attempt + 1) tr
          | some number =>
              let build ← updateOr build { jenkinsBuildNumber := .set (some number)
                                           lastPolledAt := .set (some now) }
              recordEvent build.appid (some build.buildId) "build.jenkins_started"
                "Jenkins assigned a build number"
              pollExecution S build attempt number tr

/-- `_poll_build`. -/
def pollBody (b : BuildId) (attempt : Nat) (taskId : Option String) (tr : ResourceTracker) :
    P Unit := do
  let build ← BuildService.getBuild b
  if build.status.terminal then return ()
  else
    tr.guard
    if build.status ≠ .deploying ∧ S.celeryMaxPollAttempts ≤ attempt then
      let _ ← BuildService.fail b "Jenkins build polling exceeded the configured limit"
        (some "poll_timeout")
      return ()
    else match build.status with
      | .queued | .validating | .triggering => startBody S b taskId tr
      | _ => (pollSteps S build attempt tr).tryCatch fun e =>
          failDelivery S b e "Build polling or deployment failed" tr

/-! ### Deliveries -/

def startBuild (b : BuildId) (taskId : Option String) : P Unit :=
  runBuildOperation S b (startBody S b taskId)

def pollBuild (b : BuildId) (attempt : Nat) (taskId : Option String) : P Unit :=
  runBuildOperation S b (pollBody S b attempt taskId)

def dynamicBody (b : BuildId) (run : Option Uuid) (tr : ResourceTracker) : P Unit := do
  let current ← BuildService.getBuild b
  if run ≠ none ∧ current.dynamicRunId ≠ run then return ()
  else if current.status ≠ .deploying then return ()
  else (completeDynamicDeployment S b tr).tryCatch fun e =>
    failDelivery S b e "Dynamic route check failed" tr

def dynamicRouteCheck (b : BuildId) (run : Option Uuid) : P Unit :=
  runBuildOperation S b (dynamicBody S b run)

/-- The body of the lease of `recover_builds`. -/
def failUnprepared (b : BuildId) (tracker : Option ResourceTracker) : P Unit := do
  let current ← BuildService.getBuild b
  match tracker with
  | none => return ()
  | some tr =>
      if current.inputsReady then return ()
      else
        tr.guard
        let _ ← BuildService.fail b ("Build input snapshot preparation was interrupted; " ++
          "create a new build or clean its private resources") none
        return ()

def staleAfter : Nat :=
  max (max (S.celeryRecoveryIntervalSeconds * 2)
    (S.deploymentReadinessTimeoutSeconds + S.celeryPollIntervalSeconds * 2)) 30

/-- Seconds, in the microseconds of a datetime. -/
def ageAtLeast (now since : DateTime) (seconds : Nat) : Bool :=
  decide ((seconds : Int) * 1000000 ≤ now.utc - since.utc)

def recoverOne (build : BuildJob) : P Unit := do
  let b := build.buildId
  let now ← call .utcNow
  if build.inputsReady = false then
    if ageAtLeast now build.createdAt (max 3600 (staleAfter S)) then
      let _ ← orRaise (call (.ensureBuildResources
        { buildId := b, appid := build.appid, ownershipVersion := 0 }))
      buildLease b [.notStarted] (failUnprepared b)
    else return ()
  else match build.status with
    | .queued | .validating | .triggering => orRaise (call (.scheduleStart b))
    | .building | .deploying =>
        if build.lastPolledAt.any fun t => !ageAtLeast now t (staleAfter S) then return ()
        else orRaise (call (.schedulePoll b 0))
    | .succeeded | .failed | .cancelled => return ()

def recoverBuilds : P Unit := do
  let builds ← call .listActiveBuilds
  Prog.forEach builds (recoverOne S)

end WorkerRuntime

end Orchestrator
