import Orchestrator.Services.Builds

/-!
# Services — cleanup

The second half of `build_resources.py`: accepting a cleanup request, and running it.

* `assertQuiescent`: the build is finished, and so is its Jenkins execution.
* `requestCleanup`: the check, a lease, and the step to `QUEUED`; a dispatch that fails marks
  the manifest `PARTIAL_FAILED` again.
* `recoverCleanups`: queued or running cleanups whose lease is over are dispatched once more.
* `runCleanup`: `BuildCleanupRunner.run`, phase by phase: collect, discover, remove kind by
  kind, verify, conclude.  `Cleanup` holds the locals that cross the phases.
-/

namespace Orchestrator
open Interleaving

/-- `str` of the exceptions that are safe to show. -/
def safeError (e : Exc) : String :=
  if e.isAdapterError ∨ e.kind = .resourceConflict ∨ e.kind = .workspaceError ∨
      e.kind = .repositoryError then e.message
  else "Cleanup operation failed; inspect the protected resource or execution target"

/-! ### Requests -/

/-- The Jenkins part of `assert_quiescent`. -/
def assertJenkinsFinished (build : BuildJob) : P Unit := do
  match build.jenkinsBuildNumber with
  | some number =>
      let execution ← orRaise (call (.getJenkinsBuild number))
      if execution.terminal then return ()
      else fault .resourceConflict "Jenkins execution has not finished"
  | none =>
      if falsy build.jenkinsQueueUrl then return ()
      else
        let queued ← orRaise (call (.getQueueItem (build.jenkinsQueueUrl.getD "")))
        match queued.buildNumber with
        | some number =>
            let execution ← orRaise (call (.getJenkinsBuild number))
            if execution.terminal then return ()
            else fault .resourceConflict "Jenkins execution has not finished"
        | none =>
            if queued.cancelled then return ()
            else fault .resourceConflict "Jenkins queue item has not finished"

def assertQuiescent (b : BuildId) : P Unit := do
  match ← call (.getBuild b) with
  | none => fault .notFound "Build not found"
  | some build =>
      if build.status.terminal = false then
        fault .resourceConflict "Build is still queued, building or deploying"
      else
        let m ← call (.getBuildResources b)
        if m.any (·.jenkinsTriggerPending) ∧ falsy build.jenkinsQueueUrl then
          fault .resourceConflict
            "Jenkins trigger outcome is unknown; external execution must be verified"
        else assertJenkinsFinished build

/-- The step to `QUEUED`, from the manifest read under the lease. -/
def queuedFields (current : BuildResources) : ResourceFields where
  cleanupStatus := .set .queued
  cleanupGeneration := .set (current.cleanupGeneration + 1)
  lastError := .set none

/-- The body of the lease of `request_cleanup`: an answer, or the manifest that was queued. -/
def acceptCleanup (S : Settings) (b : BuildId) :
    Option ResourceTracker → P ((BuildResources × Nat) ⊕ BuildResources)
  | none => do
      let current ← manifest S b
      match current.cleanupStatus with
      | .succeeded => return .inl (current, 200)
      | .queued | .running => return .inl (current, 202)
      | .notStarted | .partialFailed =>
          fault .resourceConflict "Build resource operation is still running"
  | some tr => do
      let current ← manifest S b
      match ← call (.updateBuildResources b (queuedFields current)
          { leaseOwner := .eq tr.owner, cleanupStatus := .eq current.cleanupStatus }) with
      | none => fault .resourceConflict "Concurrent cleanup state change"
      | some queued => return .inr queued

/-- The fields a failed dispatch writes, if the cleanup it queued is still queued. -/
def undispatchedFields : ResourceFields where
  cleanupStatus := .set .partialFailed
  lastError := .set (some "Unable to enqueue cleanup task")

def dispatchCleanup (b : BuildId) (queued : BuildResources) : P Unit :=
  (orRaise (call (.dispatchBuildCleanup b))).tryCatch fun _ => do
    let _ ← call (.updateBuildResources b undispatchedFields
      { cleanupStatus := .eq .queued, cleanupGeneration := .eq queued.cleanupGeneration })
    fault .repositoryError "Unable to enqueue cleanup task"

def requestCleanup (S : Settings) (b : BuildId) (dispatch : Bool := true) :
    P (BuildResources × Nat) := do
  let m ← manifest S b
  match m.cleanupStatus with
  | .succeeded => return (m, 200)
  | .queued | .running => return (m, 202)
  | .notStarted | .partialFailed =>
      assertQuiescent b
      match ← buildLease b [.notStarted, .partialFailed] (acceptCleanup S b) with
      | .inl answer => return answer
      | .inr queued =>
          if dispatch then dispatchCleanup b queued
          let m ← manifest S b
          return (m, 202)

/-- `BuildResourceService.recover`. -/
def recoverCleanups : P Unit := do
  let manifests ← call .listCleanupResources
  Prog.forEach manifests fun m => do
    let now ← call .utcNow
    if m.leaseOwner.isSome ∧ leaseExpired m.leaseExpiresAt now = false then return ()
    else orRaise (call (.dispatchBuildCleanup m.buildId))

/-! ### The runner -/

/-- The locals of `run` that later phases read. -/
structure Cleanup where
  errors : List String := []
  docker : Bool := false
  registryStates : List String := []
  discoveryComplete : Bool

namespace Cleanup

def failed (st : Cleanup) (e : Exc) : Cleanup := { st with errors := st.errors ++ [safeError e] }

end Cleanup

/-- The image reference of a service of the build. -/
def imageReference (repository : String) (b : BuildId) (name : String) : String :=
  repository ++ ":" ++ b.hex ++ "-" ++ name

/-- The checks of `collect_builder_resources` on the report of Jenkins. -/
def checkBuilderReport (expected : String) (build : BuildJob) (report : JenkinsResourceArtifact) :
    Except Exc (List BuilderImage) :=
  let conflict {α : Type} (message : String) : Except Exc α :=
    .error (exc .resourceConflict message)
  if report.buildId ≠ some build.buildId then
    conflict "Jenkins resource artifact has a different build owner"
  else if report.verificationComplete ≠ some true then
    conflict "Jenkins builder resource discovery is incomplete"
  else if report.workspaceRemoved ≠ some true then
    conflict "Jenkins build-private workspace cleanup has not been verified"
  else match report.planCreated, report.images with
    | none, _ => conflict "Jenkins builder resource plan verification is missing"
    | _, none => conflict "Jenkins resource artifact image inventory is invalid"
    | some planCreated, some images =>
        if images.any (·.localRemoved.isNone) then
          conflict "Jenkins resource artifact image inventory is invalid"
        else
          let planned := (build.composeSnapshot.elim [] Compose.services).map fun s =>
            imageReference expected build.buildId s.1
          let references := images.filterMap (·.reference)
          if planCreated ∧ ¬ (references.all (· ∈ planned) ∧ planned.all (· ∈ references) ∧
              images.length = planned.length) then
            conflict "Jenkins builder resource inventory is incomplete"
          else if planCreated = false ∧ images.isEmpty = false then
            conflict "Jenkins builder resource plan is unavailable"
          else .ok images

/-- One image of the report. -/
def collectBuilderImage (expected : String) (b : BuildId) (target : Option String)
    (tr : ResourceTracker) (item : BuilderImage) : P Unit := do
  let reference := item.reference.getD ""
  if (expected ++ ":" ++ b.hex ++ "-").isPrefixOf reference = false then
    fault .resourceConflict "Jenkins resource artifact contains a non-build image reference"
  else
    let current ← currentManifest b
    let removed (kind : ResourceKind) (target : String) : Bool :=
      (current.resources.get (resourceKey kind target reference)).any (·.state == .removed)
    if removed .registryImage "harbor" = false then
      let _ ← tr.record { kind := .registryImage, name := reference, target := "harbor",
                          state := .present }
    if item.localRemoved = some true then return ()
    else match target with
      | some target =>
          if "docker:".isPrefixOf target = false then
            fault .resourceConflict "Jenkins builder execution target is missing"
          else if removed .localImage target then return ()
          else
            let _ ← tr.record { kind := .localImage, name := reference, target,
                                nativeId := item.nativeId, state := .present }
            return ()
      | none => fault .resourceConflict "Jenkins builder execution target is missing"

def collectBuilderResources (S : Settings) (m : BuildResources) (tr : ResourceTracker) :
    P Unit := do
  match ← call (.getBuild m.buildId) with
  | none => fault .runtimeError "'NoneType' object has no attribute 'jenkins_queue_url'"
  | some build =>
      if m.ownershipVersion ≠ 1 ∨
          (falsy build.jenkinsQueueUrl ∧ build.jenkinsBuildNumber = none) then
        return ()
      else
        let number ← (match build.jenkinsBuildNumber with
          | some number => .ret (some number)
          | none => do
              let queued ← orRaise (call (.getQueueItem (build.jenkinsQueueUrl.getD "")))
              return queued.buildNumber : P (Option Nat))
        match number with
        | none => return ()
        | some number =>
            let report ← orRaise (call (.getResourceArtifact number))
            let images ← Prog.ofExcept
              (checkBuilderReport (S.expectedRepository build.appid) build report)
            Prog.forEach images (collectBuilderImage (S.expectedRepository build.appid)
              build.buildId report.builderTarget tr)

/-- The marker resource of an incomplete builder report. -/
def verificationMarker (error : String) : RecordArgs :=
  { kind := .builderCache, name := "jenkins-resource-verification", target := "jenkins",
    state := .error, error := some error }

def collectPhase (S : Settings) (m : BuildResources) (tr : ResourceTracker) (st : Cleanup) :
    P Cleanup := do
  match ← (collectBuilderResources S m tr).attempt with
  | .error e =>
      let _ ← tr.record (verificationMarker (safeError e))
      return st.failed e
  | .ok _ =>
      let prior ← currentManifest m.buildId
      Prog.forEach (prior.resources.filter fun r => r.kind == .builderCache &&
        r.name == "jenkins-resource-verification") fun r => tr.update r .removed
      return st

/-- `docker.discover(get_build_resources(b), tracker)`. -/
def discover (b : BuildId) (tr : ResourceTracker) : P Unit := do
  let current ← currentManifest b
  tr.docker (.discover current)

def discoverPhase (m : BuildResources) (tr : ResourceTracker) (st : Cleanup) : P Cleanup := do
  if m.ownershipVersion ≠ 1 then return st
  else match ← (orRaise (call .openDocker)).attempt with
    | .error e => return st.failed e
    | .ok _ => match ← (discover m.buildId tr).attempt with
      | .error e => return { st.failed e with docker := true }
      | .ok _ => return { st with docker := true, discoveryComplete := true }

/-- The containers have to stop before the kinds that follow are touched. -/
def stopContainers (m : BuildResources) (tr : ResourceTracker) (st : Cleanup) : P Cleanup := do
  let stop : P Unit := do
    tr.guard
    discover m.buildId tr
    tr.docker (.waitContainersStopped m)
  match ← stop.attempt with
  | .error e => return { st.failed e with discoveryComplete := false }
  | .ok _ => return st

/-- The removal of one resource: the resource to save, and the storage states it adds. -/
def removal (S : Settings) (m : BuildResources) (tr : ResourceTracker) (st : Cleanup)
    (r : BuildResource) : P (BuildResource × List String) := do
  let latest ← currentManifest m.buildId
  let outstanding := latest.resources.any fun x =>
    (x.kind == .service || x.kind == .container) && x.state != .removed
  if r.kind ≠ .service ∧ r.kind ≠ .container ∧ (outstanding ∨ st.discoveryComplete = false) then
    fault .resourceConflict "Build runtime resources have not been fully removed"
  else match r.kind with
    | .workspace | .runtimeDirectory =>
        if r.kind ≠ .workspace ∨ r.target ≠ "workspace" then
          fault .resourceConflict "Unregistered directory cleanup target"
        else
          if st.docker then tr.docker (.assertDirectoryUnused m.appid m.buildId)
          tr.guard
          orRaise (call (.deleteBuildSnapshot m.appid m.buildId r.name))
          return (r, [])
    | .registryImage =>
        let storage ← tr.docker (.removeBuildTag r.name (S.expectedRepository m.appid) m.buildId
          (r.metadata.get .digest))
        return ({ r with metadata := r.metadata.merge [(.registryStorageStatus, some storage)] },
          [storage])
    | _ =>
        if st.docker then
          tr.docker (.remove m r)
          return (r, [])
        else fault .resourceConflict "Docker cleanup target is unavailable"

def removeResource (S : Settings) (m : BuildResources) (tr : ResourceTracker) (st : Cleanup)
    (r : BuildResource) : P Cleanup := do
  tr.guard
  if r.managed = false then
    tr.update r .blocked (some (match r.error with
      | some e => if e == "" then "Resource ownership is not exclusive" else e
      | none => "Resource ownership is not exclusive"))
    return st
  else match ← (removal S m tr st r).attempt with
    | .error e =>
        tr.update r .error (some (safeError e))
        return st
    | .ok (r, states) =>
        let st := { st with registryStates := st.registryStates ++ states }
        match ← (tr.update r .removed).attempt with
        | .error e =>
            tr.update r .error (some (safeError e))
            return st
        | .ok _ => return st

/-- The order in which the kinds are removed. -/
def removalOrder : List ResourceKind :=
  [.service, .container, .volume, .workspace, .runtimeDirectory, .network, .port, .localImage,
    .registryImage]

def removeKind (S : Settings) (m : BuildResources) (tr : ResourceTracker) (st : Cleanup)
    (kind : ResourceKind) : P Cleanup := do
  let st ← (if kind = .container ∧ st.docker ∧ st.discoveryComplete then stopContainers m tr st
    else .ret st : P Cleanup)
  let current ← currentManifest m.buildId
  Prog.foldEach (removeResource S m tr) st
    (current.resources.filter fun r => r.kind == kind && r.state != .removed)

def verifyPhase (m : BuildResources) (tr : ResourceTracker) (st : Cleanup) : P Cleanup := do
  if st.docker = false then return st
  else
    let verify : P Unit := do
      discover m.buildId tr
      let current ← currentManifest m.buildId
      tr.docker (.verifyEmpty current)
    match ← verify.attempt with
    | .error e => return st.failed e
    | .ok _ => return st

/-- The status a cleanup ends in. -/
def finalStatus (current : BuildResources) (st : Cleanup) : CleanupStatus :=
  if current.resources.any (·.state != .removed) ∨ st.errors ≠ [] then .partialFailed
  else .succeeded

/-- The fields of the final write. -/
def concludedFields (current : BuildResources) (st : Cleanup) : ResourceFields :=
  let states := st.registryStates ++ current.resources.filterMap fun r =>
    if r.kind = .registryImage ∧ r.state = .removed ∧
        falsy (r.metadata.get .registryStorageStatus) = false then
      r.metadata.get .registryStorageStatus
    else none
  { cleanupStatus := .set (finalStatus current st)
    lastError := .set
      (if st.errors ≠ [] then some ("; ".intercalate st.errors)
      else if current.resources.any (·.state != .removed) then
        some "Some build resources could not be removed"
      else none)
    registryStorageStatus := .set
      (if "shared_retained" ∈ states then "shared_retained"
      else if states ≠ [] then "waiting_gc"
      else current.registryStorageStatus) }

/-- Service records of the build whose resources are gone are marked `cleaned`. -/
def markCleaned (b : BuildId) (current : BuildResources) (tr : ResourceTracker)
    (s : DeploymentService) : P Unit := do
  let associated := current.resources.filter fun r =>
    r.kind == .service && r.nativeId == some s.serviceId
  if s.buildId = b ∧ associated ≠ [] ∧ associated.all (·.state == .removed) then
    tr.guard
    call (.saveService { s with status := "cleaned" })

def concludePhase (m : BuildResources) (tr : ResourceTracker) (st : Cleanup) : P Unit := do
  let current ← currentManifest m.buildId
  tr.guard
  match ← call (.updateBuildResources m.buildId (concludedFields current st)
      { leaseOwner := .eq tr.owner, cleanupStatus := .eq .running }) with
  | none => fault .resourceConflict "Build cleanup lease lost before saving result"
  | some _ =>
      let services ← call (.listServices m.appid)
      Prog.forEach services (markCleaned m.buildId current tr)

/-- The write of a runner that finds the build not quiescent. -/
def abandonedFields (e : Exc) : ResourceFields where
  cleanupStatus := .set .partialFailed
  lastError := .set (some (safeError e))

/-- Everything before the result is saved. -/
def sweep (S : Settings) (m : BuildResources) (tr : ResourceTracker) : P Cleanup := do
  let st ← collectPhase S m tr { discoveryComplete := m.ownershipVersion == 0 }
  let st ← discoverPhase m tr st
  let st ← Prog.foldEach (removeKind S m tr) st removalOrder
  verifyPhase m tr st

def removePhases (S : Settings) (m : BuildResources) (tr : ResourceTracker) : P Unit := do
  let st ← sweep S m tr
  concludePhase m tr st

/-- The body of the lease of `run`. -/
def cleanupUnderLease (S : Settings) (b : BuildId) (m : BuildResources) :
    Option ResourceTracker → P Unit
  | none => do
      let _ ← manifest S b
      return ()
  | some tr => do
      let _ ← call (.updateBuildResources b
        { cleanupStatus := .set .running, lastError := .set none } { leaseOwner := .eq tr.owner })
      match ← (assertQuiescent b).attempt with
      | .error e =>
          let _ ← call (.updateBuildResources b (abandonedFields e) { leaseOwner := .eq tr.owner })
          return ()
      | .ok _ => removePhases S m tr

/-- `BuildCleanupRunner.run`. -/
def runCleanup (S : Settings) (b : BuildId) : P Unit := do
  let m ← manifest S b
  if m.cleanupStatus = .queued ∨ m.cleanupStatus = .running then
    buildLease b [.queued, .running] (cleanupUnderLease S b m)
  else return ()

end Orchestrator
