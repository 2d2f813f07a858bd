import Orchestrator.Docker.Host
import Mathlib.Data.List.Dedup

/-!
# Docker — the cleaner

`docker_cleanup.py`, `harbor_cleanup.py` and `WorkspaceStore.delete_build_snapshot`: what a
cleanup runner does to an engine, to Harbor and to the workspace directories.

* `DockerBuildCleaner`: finding the objects of a build, and removing one of them.
* `HarborImageCleaner.removeBuildTag`, `WorkspaceStore.deleteBuildSnapshot`.
* `carryOut`: the calls of the runner, on the host.
* `BuildCleanupRunner.run`: a cleanup, request by request.

Build identifiers are those `uuid4().hex` draws, so the checks of their form are left out.
-/

namespace Orchestrator
open Interleaving

structure HostSettings where
  base : Settings
  sha256 : Sha256
  dockerBaseUrl : Option String
  cleanupDockerTargets : String → Option String
  /-- How many polls, 0.2 seconds apart, fit into `cleanup_timeout_seconds`. -/
  cleanupPolls : Nat
  workspaceRoot : PurePath
  workspaceHostRoot : PurePath
  workerName : String
  /-- What the constructor of `HarborImageCleaner` finds wrong with its settings. -/
  harborEndpoint : Except Exc Unit
  /-- The host part of `harbor_url`. -/
  harborRegistry : String
  harborProject : String

namespace HostSettings

/-- `external_namespace`, of the identifier of an application, which is valid. -/
def appNamespace (appid : String) : String :=
  match externalNamespace appid with
  | .ok ns => ns
  | .error _ => appid

/-- `expected_repository`. -/
def expectedRepository (S : HostSettings) (appid : String) : String :=
  S.harborRegistry ++ "/" ++ S.harborProject ++ "/" ++ appNamespace appid

/-- `WorkspaceStore.snapshot_path`. -/
def snapshotPath (S : HostSettings) (appid : String) (b : BuildId) : PurePath :=
  S.workspaceRoot.append [appNamespace appid, "snapshots", b.hex]

/-- The same directory, as the engine sees it. -/
def hostSnapshotPath (S : HostSettings) (appid : String) (b : BuildId) : PurePath :=
  S.workspaceHostRoot.append [appNamespace appid, "snapshots", b.hex]

/-- The settings of the services. -/
def services (S : HostSettings) : Settings :=
  { S.base with
    expectedRepository := S.expectedRepository
    snapshotPath := fun appid b => (S.snapshotPath appid b).toText }

end HostSettings

/-! ### Labels -/

def buildLabel : String := "io.docker-jenkins-orchestrator.build-id"
def appLabel : String := "io.docker-jenkins-orchestrator.appid"
def namespaceLabel : String := "io.docker-jenkins-orchestrator.namespace"
def managedLabel : String := "io.docker-jenkins-orchestrator.managed"
def swarmServiceLabel : String := "com.docker.swarm.service.id"

/-- The filter of everything that belongs to a build. -/
def buildFilter (m : BuildResources) : DockerFilter :=
  .labels [(buildLabel, m.buildId.hex), (appLabel, m.appid)]

/-- `_volume_creation_token`. -/
def volumeCreationToken (H : Sha256) (volume : DockerObject) : Except Exc String :=
  match volume.createdAt with
  | none => .error (exc .dockerService "Build volume creation identity is unavailable")
  | some created =>
      if created == "" then
        .error (exc .dockerService "Build volume creation identity is unavailable")
      else .ok (H.hexdigest created)

namespace DockerBuildCleaner
variable (S : HostSettings)

/-- `"docker:" + str(info.get("ID") or info.get("Swarm", {}).get("NodeID"))`. -/
def identity (i : EngineInfo) : String :=
  "docker:" ++ (if falsy i.id then i.nodeId.getD "None" else i.id.getD "None")

/-- The constructor. -/
def init : D Unit := do
  let client ← request (ask (.connect S.dockerBaseUrl))
  let info ← request (ask (.docker client .info))
  if falsy info.id ∧ falsy info.nodeId then
    abort .resourceConflict "Docker cleanup target has no verifiable identity"
  else
    let self ← ask .attributes
    ask (.assign { self with client, target := identity info, nodeId := info.nodeId,
                             clients := [(identity info, client)] })

def targetClient (target : String) : D Client := do
  let self ← ask .attributes
  match self.clients.lookup target with
  | some client => return client
  | none => match S.cleanupDockerTargets target with
    | none =>
        abort .resourceConflict
          "Resource execution target is unavailable; configure its controlled Docker endpoint"
    | some endpoint =>
        let client ← request (ask (.connect (some endpoint)))
        let info ← request (ask (.docker client .info))
        if identity info ≠ target ∧ ¬ (startsWith target "docker-node:" = true ∧
            info.nodeId.map ("docker-node:" ++ ·) = some target) then
          abort .resourceConflict
            "Configured Docker endpoint identity does not match resource target"
        else
          let self ← ask .attributes
          ask (.assign { self with clients := self.clients ++ [(target, client)] })
          return client

/-- `_get`. -/
def find? (client : Client) (k : Collection) (identifier : String) : D (Option DockerObject) := do
  match ← ask (.docker client (.get k identifier)) with
  | .ok o => return some o
  | .error .notFound => return none
  | .error (.failed _) => abort .dockerService "Unable to inspect cleanup resource"

/-- The identity check of `_find`. -/
def checkFound (recorded : Option String) (obj : Option DockerObject) :
    D (Option DockerObject) :=
  match obj, recorded with
  | some o, some id =>
      if o.id ≠ id then
        abort .resourceConflict "Resource identity changed; refusing deletion"
      else return some o
  | obj, _ => return obj

/-- `_find`. -/
def find (client : Client) (k : Collection) (r : BuildResource) : D (Option DockerObject) := do
  let recorded := if falsy r.nativeId then none else r.nativeId
  let obj ← find? client k (recorded.getD r.name)
  let obj ← (match obj, recorded with
    | none, some id => if id = r.name then .ret none else find? client k r.name
    | obj, _ => .ret obj : D (Option DockerObject))
  checkFound recorded obj

/-- The labels of an object are those of the build. -/
def OwnedLabels (m : BuildResources) (l : Labels) : Prop :=
  l.get appLabel = some m.appid ∧ l.get buildLabel = some m.buildId.hex ∧
  l.get managedLabel = some "true" ∧
  l.get namespaceLabel = some (S.base.buildNamespace m.appid m.buildId)

instance (m : BuildResources) (l : Labels) : Decidable (OwnedLabels S m l) :=
  inferInstanceAs (Decidable (_ ∧ _))

/-- `assert_owner`, without a resource or with one. -/
def assertOwner (o : DockerObject) (m : BuildResources) (r : Option BuildResource := none) :
    Except Exc Unit :=
  if ¬ OwnedLabels S m o.labels then
    .error (exc .resourceConflict "Resource ownership could not be verified")
  else match r with
    | none => .ok ()
    | some r =>
        if r.nativeId ≠ none ∧ r.nativeId ≠ some o.id then
          .error (exc .resourceConflict "Resource identity changed; refusing deletion")
        else if r.kind ≠ .volume then .ok ()
        else match volumeCreationToken S.sha256 o with
          | .error e => .error e
          | .ok token =>
              if r.metadata.get .creationToken ≠ some token then
                .error (exc .resourceConflict "Volume creation identity changed; refusing deletion")
              else .ok ()

/-- `tracker.record`, of something that was found. -/
def recordPresent (tr : ResourceTracker) (kind : ResourceKind) (name target : String)
    (nativeId : Option String) (metadata : Option Metadata := none) : D Unit := do
  let _ ← onHost (tr.record { kind, name, target, nativeId, state := .present, metadata })
  return ()

/-! ### Discovery -/

/-- The client of the build's runtime, where the manifest names another one. -/
def switchClient (m : BuildResources) : D Unit := do
  let runtimeTargets := ((m.resources.filter fun r =>
    (r.kind == .service || r.kind == .network) && r.managed).map (·.target)).dedup
  if 1 < runtimeTargets.length then
    abort .resourceConflict "Build runtime control target is inconsistent"
  else
    let self ← ask .attributes
    match runtimeTargets with
    | target :: _ =>
        if target = self.target then return ()
        else
          let client ← targetClient S target
          let self ← ask .attributes
          ask (.assign { self with client, target })
          let info ← request (ask (.docker client .info))
          let self ← ask .attributes
          ask (.assign { self with nodeId := info.nodeId })
    | [] => return ()

/-- The metadata of a port. -/
def portMetadata (a : PortAllocation) : Metadata :=
  [(.port, some (toString a.port)), (.protocol, some a.protocol),
    (.serviceName, some a.serviceName)]

/-- The objects of one kind with the labels of the build. -/
def discoverKind (m : BuildResources) (tr : ResourceTracker) (client : Client) (target : String)
    (k : Collection) (kind : ResourceKind) : D Unit := do
  let found ← request (ask (.docker client (.list k (buildFilter m))))
  Prog.forEach found fun o => do
    Prog.ofExcept (I := hostApi) (assertOwner S o m)
    match kind with
    | .volume => do
        let token ← Prog.ofExcept (I := hostApi) (volumeCreationToken S.sha256 o)
        recordPresent tr kind o.name target (some o.id)
          (some [(.creationToken, some token)])
    | .container =>
        recordPresent tr kind o.name target (some o.id)
          (some [(.serviceId, o.labels.get swarmServiceLabel)])
    | _ => recordPresent tr kind o.name target (some o.id)

/-- The containers of a service of the build. -/
def discoverTasks (m : BuildResources) (tr : ResourceTracker) (r : BuildResource) : D Unit := do
  let self ← ask .attributes
  match ← find self.client .services r with
  | none => return ()
  | some service =>
      Prog.ofExcept (I := hostApi) (assertOwner S service m (some r))
      let tasks ← request (ask (.docker self.client (.tasks service.id)))
      Prog.forEach tasks fun task =>
        match task.containerId with
        | none => .ret ()
        | some container =>
            if container == "" then .ret ()
            else
              let target := match task.nodeId with
                | none => self.target
                | some node =>
                    if some node = self.nodeId then self.target else "docker-node:" ++ node
              recordPresent tr .container container target (some container)
                (some [(.serviceId, some service.id), (.nodeId, task.nodeId)])

def discover (m : BuildResources) (tr : ResourceTracker) : D Unit := do
  switchClient S m
  let ports ← ask (.listBuildPorts m.buildId)
  Prog.forEach ports fun a =>
    recordPresent tr .port (toString a.port ++ "/" ++ a.protocol) a.target none
      (some (portMetadata a))
  let self ← ask .attributes
  discoverKind S m tr self.client self.target .services .service
  discoverKind S m tr self.client self.target .networks .network
  let targets := (self.target :: (m.resources.map (·.target)).filter fun t =>
    startsWith t "docker:" || startsWith t "docker-node:").dedup
  Prog.forEach targets fun target => do
    let client ← targetClient S target
    discoverKind S m tr client target .volumes .volume
    discoverKind S m tr client target .containers .container
  let current ← onHost (currentManifest m.buildId)
  Prog.forEach (current.resources.filter fun r =>
    r.kind == .service && r.managed && r.state != .removed) (discoverTasks S m tr)

/-! ### Removal -/

def removeService (m : BuildResources) (r : BuildResource) (tr : ResourceTracker)
    (client : Client) : D Unit := do
  match ← find client .services r with
  | none => return ()
  | some service =>
      Prog.ofExcept (I := hostApi) (assertOwner S service m (some r))
      onHost tr.guard
      request (ask (.docker client (.remove .services service.id)))

def removeContainer (m : BuildResources) (r : BuildResource) (tr : ResourceTracker)
    (client : Client) : D Unit := do
  match ← find client .containers r with
  | none => return ()
  | some container =>
      Prog.ofExcept (I := hostApi) (assertOwner S container m (some r))
      let serviceId := container.labels.get swarmServiceLabel
      if serviceId ≠ r.metadata.get .serviceId ∨ falsy serviceId then
        abort .resourceConflict "Container service ownership is unavailable"
      else
        let self ← ask .attributes
        match ← find? self.client .services (serviceId.getD "") with
        | some _ => abort .resourceConflict "Container service is still present"
        | none =>
            if container.status ∈ ["running", "restarting", "paused"] then
              abort .resourceConflict "Container has not stopped after service removal"
            else
              onHost tr.guard
              request (ask (.docker client (.remove .containers container.id)))

def removeVolume (m : BuildResources) (r : BuildResource) (tr : ResourceTracker)
    (client : Client) : D Unit := do
  match ← find client .volumes r with
  | none => return ()
  | some volume =>
      Prog.ofExcept (I := hostApi) (assertOwner S volume m (some r))
      let users ← request (ask (.docker client (.list .containers (.volume r.name))))
      if users ≠ [] then abort .resourceConflict "Volume is still used by a container"
      else
        let self ← ask .attributes
        let services ← request (ask (.docker self.client (.list .services .all)))
        if services.any (·.mounts.any fun x => x.type == "volume" && x.source == r.name) then
          abort .resourceConflict "Volume is still referenced by a service"
        else
          onHost tr.guard
          request (ask (.docker client (.remove .volumes volume.id)))

/-- The containers attached to a network are all gone. -/
def assertDetached (client : Client) (network : DockerObject) : D Unit :=
  Prog.forEach network.attached fun identifier => do
    match ← find? client .containers identifier with
    | some _ => abort .resourceConflict "Network still has container attachments"
    | none => return ()

def removeNetwork (m : BuildResources) (r : BuildResource) (tr : ResourceTracker)
    (client : Client) : D Unit := do
  match ← find client .networks r with
  | none => return ()
  | some network =>
      Prog.ofExcept (I := hostApi) (assertOwner S network m (some r))
      let services ← request (ask (.docker client (.list .services .all)))
      if services.any (·.networks.any fun x => x == network.id || x == r.name) then
        abort .resourceConflict "Network is still used by a service"
      else
        assertDetached client network
        onHost tr.guard
        request (ask (.docker client (.remove .networks network.id)))

/-- `reference.split("@", 1)[0]`. -/
def withoutDigest (reference : String) : String :=
  String.ofList (reference.toList.takeWhile (· != '@'))

/-- No service runs an image with this identity. -/
def assertLayersUnused (image : DockerObject) : D Unit := do
  let self ← ask .attributes
  let services ← request (ask (.docker self.client (.list .services .all)))
  Prog.forEach services fun service =>
    if service.image == "" then .ret ()
    else do
      match ← find? self.client .images service.image with
      | some other =>
          if other.id = image.id then
            abort .resourceConflict "Image layers are still referenced by a service"
          else return ()
      | none => return ()

def removeLocalImage (m : BuildResources) (r : BuildResource) (tr : ResourceTracker)
    (client : Client) : D Unit := do
  match ← find? client .images r.name with
  | none => return ()
  | some image =>
      if falsy r.nativeId = false ∧ r.nativeId ≠ some image.id then
        abort .resourceConflict "Local image identity changed"
      else if startsWith (lastPart ':' r.name) (m.buildId.hex ++ "-") = false then
        abort .resourceConflict "Local image reference is not build-exclusive"
      else
        let containers ← request (ask (.docker client (.list .containers .all)))
        if containers.any (withoutDigest ·.image == r.name) then
          abort .resourceConflict "Image reference is still used by a container"
        else
          let self ← ask .attributes
          let services ← request (ask (.docker self.client (.list .services .all)))
          if services.any (withoutDigest ·.image == r.name) then
            abort .resourceConflict "Image reference is still used by a service"
          else
            let users ← (if image.tags.all (· == r.name) then do
                assertLayersUnused image
                request (ask (.docker client (.list .containers (.ancestor image.id))))
              else .ret [] : D (List DockerObject))
            if users ≠ [] then
              abort .resourceConflict "Image layers are still used by a container"
            else
              onHost tr.guard
              request (ask (.docker client (.untag r.name)))

/-- The port a resource names, from its metadata. -/
def portNumber (r : BuildResource) : Except Exc Nat :=
  match r.metadata.get .port with
  | none => .error (exc .keyError "port")
  | some text => match text.toNat? with
    | some number => .ok number
    | none => .error (exc .keyError "port")

def removePort (m : BuildResources) (r : BuildResource) (tr : ResourceTracker)
    (client : Client) : D Unit := do
  let number ← Prog.ofExcept (I := hostApi) (portNumber r)
  match r.metadata.get .protocol with
  | none => abort .keyError "protocol"
  | some protocol =>
      let services ← request (ask (.docker client (.list .services .all)))
      if services.any (·.ports.any fun x => x.published == some number && x.protocol == protocol)
      then abort .resourceConflict "Published port is still occupied"
      else
        let containers ← request (ask (.docker client (.list .containers .all)))
        if containers.any (·.ports.any fun x =>
            x.published == some number && x.protocol == protocol) then
          abort .resourceConflict "Published port is still bound by a container"
        else
          onHost tr.guard
          if ← insist (ask (.releasePort r.target protocol number m.buildId)) then return ()
          else abort .resourceConflict "Port reservation belongs to another build"

def remove (m : BuildResources) (r : BuildResource) (tr : ResourceTracker) : D Unit := do
  onHost tr.guard
  let client ← targetClient S r.target
  match r.kind with
  | .service => removeService S m r tr client
  | .container => removeContainer S m r tr client
  | .volume => removeVolume S m r tr client
  | .network => removeNetwork S m r tr client
  | .localImage => removeLocalImage m r tr client
  | .port => removePort m r tr client
  | _ => abort .resourceConflict "Unsupported Docker cleanup resource"

/-! ### Checks -/

/-- A bind mount of `source` shows part of the directory. -/
def overlaps (directory : PurePath) (x : EngineMount) : Bool :=
  x.type == "bind" && x.source != "" &&
    ((PurePath.parse x.source).isRelativeTo directory ||
      directory.isRelativeTo (PurePath.parse x.source))

/-- The mount by which a process of the orchestrator itself sees the workspaces. -/
def isManagerMount (container : DockerObject) (x : EngineMount) : Bool :=
  let manager := container.labels.get "io.docker-jenkins-orchestrator.workspace-manager"
  (manager == some "api" || manager == some "worker") &&
    container.labels.get "com.docker.compose.service" == manager &&
    container.labels.get "io.docker-jenkins-orchestrator.worker-name" == some S.workerName &&
    PurePath.parse x.source == S.workspaceHostRoot && x.target == S.workspaceRoot.toText

def assertDirectoryUnused (directory : PurePath) (tr : ResourceTracker) : D Unit := do
  let self ← ask .attributes
  Prog.forEach self.clients fun client => do
    onHost tr.guard
    let containers ← request (ask (.docker client.2 (.list .containers .all)))
    if containers.any (fun c => c.mounts.any fun x => overlaps directory x && !isManagerMount S c x)
    then abort .resourceConflict "Build directory is still mounted by a container"
    else return ()
  let services ← request (ask (.docker self.client (.list .services .all)))
  if services.any (·.mounts.any (overlaps directory)) then
    abort .resourceConflict "Build directory is still mounted by a service"
  else return ()

/-- A registered container of the build still runs. -/
def isRunning (r : BuildResource) : D Bool := do
  let client ← targetClient S r.target
  match ← find client .containers r with
  | none => return false
  | some c => return decide (c.status ∈ ["running", "restarting", "paused"])

/-- `wait_containers_stopped`, with this many polls left before the deadline. -/
def waitContainersStopped (m : BuildResources) (tr : ResourceTracker) : Nat → D Unit
  | 0 => abort .resourceConflict "Build containers have not stopped within cleanup timeout"
  | polls + 1 => do
      onHost tr.guard
      let current ← onHost (currentManifest m.buildId)
      let running ← Prog.foldEach (fun running r => do
          let runs ← isRunning S r
          return running || runs) false
        (current.resources.filter fun r => r.kind == .container && r.managed && r.state != .removed)
      if running = false then return ()
      else if ← ask .deadlinePassed then
        abort .resourceConflict "Build containers have not stopped within cleanup timeout"
      else waitContainersStopped m tr polls

/-- The collection of a kind that `verify_empty` looks at. -/
def collectionOf : ResourceKind → Option Collection
  | .service => some .services
  | .container => some .containers
  | .network => some .networks
  | .volume => some .volumes
  | .localImage => some .images
  | _ => none

/-- A removed resource is really gone. -/
def verifyGone (r : BuildResource) (k : Collection) (client : Client) : D Unit := do
  let found ← (if r.kind = .localImage then find? client k r.name else find client k r :
    D (Option DockerObject))
  if found.isSome then
    abort .resourceConflict "Registered build resource still exists after cleanup"
  else return ()

def verifyResource (tr : ResourceTracker) (r : BuildResource) : D Unit :=
  match collectionOf r.kind with
  | none => .ret ()
  | some k =>
      if r.managed = false ∨ r.state ≠ .removed then .ret ()
      else do
        onHost tr.guard
        let client ← targetClient S r.target
        (verifyGone r k client).tryCatch fun _ => do
          onHost (tr.update r .error (some "Registered resource removal could not be verified"))
          abort .resourceConflict "Registered resource removal could not be verified"

def verifyEmpty (m : BuildResources) (tr : ResourceTracker) : D Unit := do
  Prog.forEach m.resources (verifyResource S tr)
  let self ← ask .attributes
  Prog.forEach self.clients fun client => do
    onHost tr.guard
    let containers ← request (ask (.docker client.2 (.list .containers (buildFilter m))))
    if containers ≠ [] then
      abort .resourceConflict "Build still has containers or volumes after cleanup"
    else
      let volumes ← request (ask (.docker client.2 (.list .volumes (buildFilter m))))
      if volumes ≠ [] then
        abort .resourceConflict "Build still has containers or volumes after cleanup"
      else return ()
  let services ← request (ask (.docker self.client (.list .services (buildFilter m))))
  if services ≠ [] then
    abort .resourceConflict "Build still has services or networks after cleanup"
  else
    let networks ← request (ask (.docker self.client (.list .networks (buildFilter m))))
    if networks ≠ [] then
      abort .resourceConflict "Build still has services or networks after cleanup"
    else return ()

end DockerBuildCleaner

/-! ### Harbor and the workspace -/

/-- `raise HarborCleanupError(message)`. -/
def harborError {α : Type} (message : String) : D α := abort .harborCleanup message

/-- `text[n:]`. -/
def dropText (n : Nat) (text : String) : String := String.ofList (text.toList.drop n)

namespace HarborImageCleaner
variable (S : HostSettings)

/-- `_request`. -/
def harborRequest {α : Type} (p : D (Except Exc α)) : D α :=
  p.bind fun
    | .ok a => .ret a
    | .error _ => harborError "Harbor cleanup request failed"

def removeBuildTag (tr : ResourceTracker) (reference expected : String) (b : BuildId)
    (digest : Option String) : D String := do
  Prog.ofExcept (I := hostApi) S.harborEndpoint
  if startsWith reference (expected ++ ":" ++ b.hex ++ "-") = false then
    harborError "Registry image ownership is not build-exclusive"
  else match rsplit ':' reference with
    | none => abort .valueError "not enough values to unpack (expected 2, got 1)"
    | some (repository, tag) =>
        let base := S.harborRegistry ++ "/" ++ S.harborProject ++ "/"
        if startsWith repository base = false then
          harborError "Registry image is outside the configured build project"
        else
          let name := dropText base.toList.length repository
          let response ← harborRequest (ask (.getArtifact name tag))
          if response.statusCode = 404 then return "waiting_gc"
          else if response.statusCode ≠ 200 then harborError "Unable to verify Harbor build image"
          else if falsy digest = false ∧ response.digest ≠ digest then
            harborError "Registry image digest changed; refusing tag deletion"
          else if startsWith (response.digest.getD "") "sha256:" = false then
            harborError "Registry image digest is unavailable"
          else
            let shared := response.tags.any (· != tag)
            onHost tr.guard
            let removed ← harborRequest (ask (.deleteTag name (response.digest.getD "") tag))
            if removed ∉ [200, 202, 204, 404] then
              harborError "Unable to delete Harbor build tag"
            else
              let verified ← harborRequest (ask (.getArtifact name tag))
              if verified.statusCode ≠ 404 then
                harborError "Harbor build tag removal could not be verified"
              else return if shared then "shared_retained" else "waiting_gc"

end HarborImageCleaner

namespace WorkspaceStore
variable (S : HostSettings)

def deleteBuildSnapshot (appid : String) (b : BuildId) (registeredPath : String) : D Unit := do
  let path := S.snapshotPath appid b
  if PurePath.parse registeredPath ≠ path then
    abort .workspaceError "Registered workspace path does not match build ownership"
  else if ← insist (ask (.inspectDirectory path)) then insist (ask (.removeTree path))
  else return ()

end WorkspaceStore

/-! ### The runner -/

/-- A Docker or Harbor operation of a cleanup.  None of them deploys. -/
def perform (S : HostSettings) (tr : ResourceTracker) : (c : DockerCall) → D c.Result
  | .deployBuild .. => abort .runtimeError "a cleanup does not deploy"
  | .discover m => DockerBuildCleaner.discover S m tr
  | .waitContainersStopped m => DockerBuildCleaner.waitContainersStopped S m tr (S.cleanupPolls + 1)
  | .assertDirectoryUnused appid b =>
      DockerBuildCleaner.assertDirectoryUnused S (S.hostSnapshotPath appid b) tr
  | .remove m r => DockerBuildCleaner.remove S m r tr
  | .verifyEmpty m => DockerBuildCleaner.verifyEmpty S m tr
  | .removeBuildTag name repository b digest =>
      HarborImageCleaner.removeBuildTag S tr name repository b digest

/-- The calls of the runner for `b`, on the host. -/
def carryOut (S : HostSettings) (b : BuildId) : (op : Op) → D op.Ret
  | .openDocker => do
      let result ← (DockerBuildCleaner.init S).attempt
      ask (.outcome .openDocker (!result.isOk))
      return result
  | .deleteBuildSnapshot appid b' name =>
      (WorkspaceStore.deleteBuildSnapshot S appid b' name).attempt
  | .claimBuildLease b' owner expiresAt statuses => do
      let claimed ← ask (.repo (.claimBuildLease b' owner expiresAt statuses))
      let self ← ask .attributes
      ask (.assign { self with owner := some owner })
      return claimed
  | .docker c => do
      let self ← ask .attributes
      let result ← (perform S ⟨b, self.owner⟩ c).attempt
      ask (.outcome (.docker c) (!result.isOk))
      return .done result
  | op => ask (.repo op)

/-- `BuildCleanupRunner.run`. -/
def BuildCleanupRunner.run (S : HostSettings) (b : BuildId) : D Unit :=
  Prog.interpret (I := api) (J := hostApi) id (carryOut S b) (runCleanup S.services b)

end Orchestrator
