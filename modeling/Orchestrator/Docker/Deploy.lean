import Orchestrator.Docker.Compose

/-!
# Docker — what a deployment needs

The parts of `DockerSwarmAdapter` that a deployment is put together from.

* `SwarmSettings`: what the adapter is made with; `Rollout`: one deployment at work.
* `deploymentServiceName`, `volumeSources`, `networkNameOf`: names outside.
* `assertResourceOwner`, `assertTrackedIdentity`, `record`: ownership and the manifest.
* `prepareBuildVolume`, `ensureNetwork`: volumes and the network.
* `occupiedPublishedPorts`, `allocatePorts`: ports.
-/

namespace Orchestrator
open Interleaving

structure SwarmSettings where
  host : HostSettings
  utils : DockerUtils
  networkName : String
  publishedPortRangeStart : Nat
  publishedPortRangeEnd : Nat
  workspaceSharedStorage : Bool
  /-- How many polls fit into `deployment_readiness_timeout_seconds`. -/
  readinessPolls : Nat
  /-- `f"\x7breadiness_timeout_seconds:g\x7d"`. -/
  readinessTimeout : String
  /-- `_validate_private_backends`. -/
  validatePrivateBackends : DockerSwarmAdapter.Services → Environment → Except Exc Unit
  /-- `_safe_error_detail`. -/
  safeErrorDetail : Exc → String
  /-- `_safe_task_error_detail`. -/
  safeTaskErrorDetail : DockerObject → String → String

/-- What the methods share in one deployment. -/
structure Rollout where
  appid : String
  ns : String
  client : Client
  tracker : Option ResourceTracker := none
  target : String := ""
  nodeId : Option String := none

/-- The text of the identifier of a build. -/
def Uuid.ofHex? (text : String) : Option Uuid :=
  match splitOnce 'x' text with
  | none => none
  | some (drawer, serial) =>
      match drawer.toNat?, serial.toNat? with
      | some d, some n => if (⟨d, n⟩ : Uuid).hex = text then some ⟨d, n⟩ else none
      | _, _ => none

namespace DockerSwarmAdapter

structure ServiceDeployment where
  serviceId : String
  serviceName : String
  image : String
  created : Bool
  endpoint : Option String
  ports : List PublishedPort
  deriving DecidableEq, Repr

structure SwarmDeployment where
  appid : String
  networkName : String
  services : List ServiceDeployment
  deriving DecidableEq, Repr

variable (S : SwarmSettings)

/-! ### Names -/

/-- `_namespace`. -/
def namespaceOf (appid : String) : Except Exc String :=
  match externalNamespace appid with
  | .ok ns => .ok ns
  | .error _ => refuse "Application ID is invalid for Docker service deployment"

/-- `_network_name`. -/
def networkNameOf (ns : String) : String :=
  let raw := S.networkName ++ "-" ++ ns
  if raw.toList.length ≤ maxDockerNameLength then raw
  else if startsWith ns namespacePrefix then boundedResourceName S.host.sha256 raw
  else
    let digest := S.host.sha256.short 10 ns
    let budget : Int := maxDockerNameLength - S.networkName.toList.length - digest.toList.length - 2
    if 0 < budget then S.networkName ++ "-" ++ takeText budget.toNat ns ++ "-" ++ digest
    else boundedResourceName S.host.sha256 raw

/-- `_service_name`. -/
def serviceName (ns composeName : String) : String :=
  let stem := ns ++ "-"
  let raw := if startsWith (lowerText composeName) (lowerText stem) then composeName
    else stem ++ composeName
  if raw.toList.length ≤ maxDockerNameLength then raw
  else if startsWith ns namespacePrefix then boundedResourceName S.host.sha256 raw
  else
    let digest := S.host.sha256.short 10 (ns ++ ":" ++ composeName)
    let ending := "-" ++ digest ++ "-" ++ composeName
    let budget : Int := maxDockerNameLength - ending.toList.length
    if 0 < budget then takeText budget.toNat ns ++ ending
    else
      takeText maxDockerNameLength
        (digest ++ "-" ++ takeText (max 1 (maxDockerNameLength - digest.toList.length - 2)) composeName)

/-- `_template_component`. -/
def templateComponent (appid ns composeName : String) (definition : Fields) : Option String :=
  match field definition "labels" with
  | .map labels =>
      if ((field labels appLabel).isText appid && (field labels namespaceLabel).isText ns) = false
      then none
      else match field labels "io.docker-jenkins-orchestrator.component" with
        | .str component =>
            if isResourceName component &&
                composeName == boundedResourceName S.host.sha256 ns (some component)
            then some component else none
        | _ => none
  | _ => none

/-- `_deployment_service_name`. -/
def deploymentServiceName (appid ns composeName : String) (definition : Fields) : String :=
  match templateComponent S appid ns composeName definition with
  | none => serviceName S ns composeName
  | some component =>
      if startsWith ns namespacePrefix then composeName
      else serviceName S ns (ns ++ "-" ++ component)

/-- No two of these owners have the same name; `message` is about both and the name, and `seen`
are the names so far, with their owners. -/
def refuseShared (message : String → String → String → String) :
    List (String × String) → List (String × String) → Except Exc Unit
  | _, [] => .ok ()
  | seen, (owner, name) :: rest =>
      match seen.lookup name with
      | some previous => refuse (message previous owner name)
      | none => refuseShared message ((name, owner) :: seen) rest

/-- `_validate_unique_deployment_service_names`. -/
def validateUniqueNames (appid ns : String) (services : Services) : Except Exc Unit :=
  refuseShared (fun previous name dockerName =>
      s!"Compose services {previous} and {name} map to the same Docker service name {dockerName}")
    [] (services.map fun s => (s.1, deploymentServiceName S appid ns s.1 s.2))

/-! ### Volumes -/

/-- `_managed_volume_name`. -/
def managedVolume (ns alias_ : String) : Except Exc String :=
  match managedVolumeName S.host.sha256 ns alias_ with
  | .ok name => .ok name
  | .error _ => refuse "Compose named volume is invalid for managed Docker volume naming"

/-- The sources so far: the physical name of each alias, and which aliases are implicit. -/
structure VolumeSources where
  sources : List (String × String) := []
  implicit : List (String × String) := []

namespace VolumeSources

/-- The alias gets its managed name. -/
def manage (v : VolumeSources) (ns alias_ : String) : Except Exc VolumeSources := do
  let name ← managedVolume S ns alias_
  .ok ⟨v.sources ++ [(alias_, name)], v.implicit ++ [(alias_, name)]⟩

/-- A volume the document declares. -/
def declare (ns : String) (v : VolumeSources) (e : Key × Document) : Except Exc VolumeSources :=
  match e.1 with
  | .other _ => .ok v
  | .str alias_ =>
      if alias_ = "" then .ok v
      else
        let config := match e.2 with
          | .map config => config
          | _ => []
        match field config "name" with
        | .str name =>
            if strip name ≠ "" then .ok { v with sources := v.sources ++ [(alias_, strip name)] }
            else if (field config "external").isTrue then
              .ok { v with sources := v.sources ++ [(alias_, alias_)] }
            else v.manage S ns alias_
        | _ =>
            if (field config "external").isTrue then
              .ok { v with sources := v.sources ++ [(alias_, alias_)] }
            else v.manage S ns alias_

/-- The named volume a mount refers to. -/
def mountSource : Document → Option String
  | .str mount =>
      let parts := split ':' mount
      let head := parts.headD ""
      if (parts.length = 2 ∨ parts.length = 3) ∧
          (startsWith head "/" || startsWith head "." || startsWith head "~") = false
      then some head else none
  | .map mount =>
      if (fieldD mount "type" (.str "volume")).isText "volume" then
        match field mount "source" with
        | .str source => some source
        | _ => none
      else none
  | _ => none

/-- A volume a mount names without a declaration. -/
def mention (ns : String) (v : VolumeSources) (mount : Document) : Except Exc VolumeSources :=
  match mountSource mount with
  | none => .ok v
  | some source =>
      if source = "" ∨ (v.sources.lookup source).isSome then .ok v else v.manage S ns source

end VolumeSources

/-- The entries of a mapping, if it is one. -/
def entriesOf : Document → Fields
  | .map entries => entries
  | _ => []

/-- The items of a list, if it is one. -/
def itemsOf : Document → List Document
  | .list items => items
  | _ => []

/-- `_volume_sources`. -/
def volumeSources (compose : Fields) (services : Services) (ns : String) :
    Except Exc (List (String × String)) := do
  let declared ← (entriesOf (field compose "volumes")).foldlM (VolumeSources.declare S ns) {}
  let all ← (services.flatMap fun s => itemsOf (field s.2 "volumes")).foldlM
    (VolumeSources.mention S ns) declared
  refuseShared (fun previous alias_ name =>
      s!"Compose volumes {previous} and {alias_} map to the same managed Docker volume name {name}")
    [] all.implicit
  .ok all.sources

/-- `_shared_volume_aliases`. -/
def sharedVolumeAliases (compose : Fields) : List String :=
  (entriesOf (field compose "volumes")).filterMap fun e => match e.1, e.2 with
    | .str alias_, .map definition =>
        if (field definition "external").isTrue || hasField definition "name" then some alias_
        else none
    | _, _ => none

/-! ### Ownership -/

/-- `_build_labels`. -/
def buildLabels (R : Rollout) (logicalName : String := "default") : Labels :=
  Labels.update [(appLabel, R.appid), (namespaceLabel, R.ns)]
    (match R.tracker with
    | some tr => [(buildLabel, tr.buildId.hex), (managedLabel, "true"),
        ("io.docker-jenkins-orchestrator.logical-name", logicalName)]
    | none => [])

/-- `build_namespace(appid, text) == ns`. -/
def isNamespaceOf (appid : String) (text : Option String) (ns : String) : Bool :=
  match text.bind Uuid.ofHex? with
  | some b => S.host.base.buildNamespace appid b == ns
  | none => false

/-- `_assert_resource_owner`. -/
def assertResourceOwner (appid ns : String) (labels : Labels) (kind name : String) :
    Except Exc Unit :=
  if startsWith ns buildNamespacePrefix && (!isNamespaceOf S appid (labels.get buildLabel) ns ||
      labels.get managedLabel != some "true") then
    refuse "Build resource ownership could not be verified"
  else if labels.get appLabel = some appid ∧ labels.get namespaceLabel = some ns then .ok ()
  else refuse (s!"Docker {kind} {name} ownership could not be verified for app {appid}; refusing " ++
    "to reuse or remove it. Verify the original owner and migrate legacy resources explicitly")

/-! ### The manifest -/

/-- `self._tracker.guard()`, where there is a tracker. -/
def guard (R : Rollout) : D Unit :=
  match R.tracker with
  | some tr => onHost tr.guard
  | none => .ret ()

/-- `_record`. -/
def record (R : Rollout) (kind : ResourceKind) (name : String) (nativeId : Option String := none)
    (state : ResourceState := .planned) (metadata : Metadata := []) : D Unit :=
  match R.tracker with
  | none => .ret ()
  | some tr => do
      onHost tr.guard
      let _ ← onHost (tr.record { kind, name, target := R.target, nativeId, state,
                                  metadata := some (metadata ++ [(.nodeId, R.nodeId)]) })
      return ()

/-- The resource of the manifest is not about another object. -/
def checkTracked (kind : ResourceKind) (obj : DockerObject) (r : BuildResource) : Except Exc Unit :=
  if r.nativeId ≠ some obj.id then
    refuse "Build resource identity changed; refusing reuse"
  else if kind ≠ .volume then .ok ()
  else match volumeCreationToken S.host.sha256 obj with
    | .error e => .error e
    | .ok token =>
        if r.metadata.get .creationToken ≠ some token then
          refuse "Build volume creation identity changed; refusing reuse"
        else .ok ()

/-- `_assert_tracked_identity`. -/
def assertTrackedIdentity (R : Rollout) (kind : ResourceKind) (name : String)
    (obj : DockerObject) : D Unit :=
  match R.tracker with
  | none => .ret ()
  | some tr => do
      onHost tr.guard
      let m ← onHost (currentManifest tr.buildId)
      Prog.ofExcept (I := hostApi) (checkEach (m.resources.filter fun r =>
        r.kind == kind && r.target == R.target && r.name == name && !falsy r.nativeId)
        (checkTracked S kind obj))

/-- A request whose failure is an error of the adapter. -/
def orRefuse {α : Type} (p : D α) (message : Exc → String) : D α :=
  p.tryCatch fun e => abort .dockerService (message e)

/-- `get`, where a missing object is no failure. -/
def getObject (R : Rollout) (k : Collection) (identifier : String) (message : Exc → String) :
    D (Option DockerObject) := do
  match ← ask (.docker R.client (.get k identifier)) with
  | .ok o => return some o
  | .error .notFound => return none
  | .error e => abort .dockerService (message e.exc)

/-! ### Volumes and the network -/

/-- `_prepare_build_volumes`, for one volume. -/
def prepareBuildVolume (R : Rollout) (e : String × String) : D Unit := do
  record R .volume e.2 none .planned [(.volumeAlias, some e.1)]
  let volume ← (do
    match ← getObject R .volumes e.2 (fun _ => "Unable to inspect build volume") with
    | some volume => return volume
    | none =>
        guard R
        request (ask (.docker R.client (.create .volumes
          { id := "", name := e.2, labels := buildLabels R e.1 }))) : D DockerObject)
  Prog.ofExcept (I := hostApi) (assertResourceOwner S R.appid R.ns volume.labels "volume" e.2)
  assertTrackedIdentity S R .volume e.2 volume
  let token ← Prog.ofExcept (I := hostApi) (volumeCreationToken S.host.sha256 volume)
  record R .volume e.2 (some (if volume.id = "" then e.2 else volume.id)) .present
    [(.volumeAlias, some e.1), (.creationToken, some token)]

/-- The name of the network, the target of its attachments, and whether this deployment has
created it. -/
structure NetworkHandle where
  name : String
  target : String
  created : Bool

/-- A network that was there already belongs to the deployment. -/
def checkReused (R : Rollout) (name : String) (network : DockerObject) (created : Bool) : D Unit :=
  if created then .ret ()
  else do
    Prog.ofExcept (I := hostApi) (assertResourceOwner S R.appid R.ns network.labels "network" name)
    assertTrackedIdentity S R .network name network

/-- `_ensure_network`. -/
def ensureNetwork (R : Rollout) : D NetworkHandle := do
  let name := networkNameOf S R.ns
  record R .network name
  let (network, created) ← (do
    match ← getObject R .networks name
        (fun e => s!"Unable to inspect Docker network {name}: {S.safeErrorDetail e}") with
    | some network => return (network, false)
    | none =>
        let network ← orRefuse (do
          guard R
          request (ask (.docker R.client (.create .networks
            { id := "", name, labels := buildLabels R }))))
          fun e => s!"Unable to create Docker network {name}: {S.safeErrorDetail e}"
        return (network, true) : D (DockerObject × Bool))
  checkReused S R name network created
  record R .network name (some network.id) .present
  return ⟨name, if network.id = "" then name else network.id, created⟩

/-! ### Ports -/

/-- A published port, its protocol and its mode. -/
abbrev OccupiedPort := Nat × String × String

/-- What a port of an object occupies: in a build, the port in both modes. -/
def occupies (R : Rollout) (x : EnginePort) : List OccupiedPort :=
  match x.published with
  | none => []
  | some n =>
      if 1 ≤ n ∧ n ≤ 65535 then
        if R.tracker.isSome then [(n, x.protocol, "ingress"), (n, x.protocol, "host")]
        else [(n, x.protocol, x.mode)]
      else []

/-- `_occupied_published_ports`. -/
def occupiedPublishedPorts (R : Rollout) (ignored : List String) : D (List OccupiedPort) := do
  let services ← orRefuse (request (ask (.docker R.client (.list .services .all))))
    fun e => s!"Unable to inspect existing Docker service ports: {S.safeErrorDetail e}"
  let own := (services.filter fun o => ignored.contains o.name).map (·.id)
  let foreign := services.filter fun o => !ignored.contains o.name
  let published := foreign.flatMap fun o => o.ports.flatMap (occupies R)
  if R.tracker.isNone then return published
  else
    let containers ← orRefuse (request (ask (.docker R.client (.list .containers .all))))
      fun _ => "Unable to inspect Docker container port bindings"
    let others := containers.filter fun o => match o.labels.get swarmServiceLabel with
      | some owner => owner == "" || !own.contains owner
      | none => true
    return published ++ others.flatMap fun o => o.ports.flatMap (occupies R)

/-- `_reserve_port`. -/
def reservePort (R : Rollout) (port : Nat) (protocol owner : String) : D Bool :=
  match R.tracker with
  | none => .ret true
  | some tr => do
      onHost tr.guard
      insist (ask (.reservePort ⟨R.target, protocol, port, tr.buildId, owner⟩))

/-- The port an entry asks for: the one reserved for it before, or else its own. -/
def requestedPort (R : Rollout) (port : PublishedPort) (owner : String) : D (Option Nat) :=
  match R.tracker with
  | none => .ret port.publishedPort
  | some tr => do
      let rows ← ask (.listBuildPorts tr.buildId)
      match rows.find? fun a =>
          a.target == R.target && a.protocol == port.protocol && a.serviceName == owner with
      | some previous => return some previous.port
      | none => return port.publishedPort

/-- The first of these ports that is free and can be reserved. -/
def searchPort (R : Rollout) (occupied : List OccupiedPort) (port : PublishedPort)
    (owner : String) : List Nat → D (Option Nat)
  | [] => .ret none
  | candidate :: rest =>
      if (candidate, port.protocol, port.mode) ∈ occupied then
        searchPort R occupied port owner rest
      else do
        if ← reservePort R candidate port.protocol owner then return some candidate
        else searchPort R occupied port owner rest

/-- The owner of the reservation of an entry. -/
def allocationOwner (service : String) (index : Nat) (port : PublishedPort) : String :=
  join ':' [service, toString index, toString port.targetPort, port.mode]

/-- `range(start, end + 1)`. -/
def publishedPortRange : List Nat :=
  List.range' S.publishedPortRangeStart (S.publishedPortRangeEnd + 1 - S.publishedPortRangeStart)

/-- The port of one entry. -/
def choosePort (R : Rollout) (service : String) (occupied : List OccupiedPort) (index : Nat)
    (port : PublishedPort) : D Nat := do
  let owner := allocationOwner service index port
  let requested ← requestedPort R port owner
  match ← searchPort R occupied port owner requested.toList with
  | some chosen => return chosen
  | none => match ← searchPort R occupied port owner (publishedPortRange S) with
    | some chosen => return chosen
    | none => abort .dockerService (s!"No available published port for Docker service {service} " ++
        s!"in range {S.publishedPortRangeStart}-{S.publishedPortRangeEnd}")

/-- `_allocate_ports`, from the entry number `index` on: the allocated ports, and what is
occupied then. -/
def allocatePorts (R : Rollout) (service : String) :
    Nat → List PublishedPort → List OccupiedPort → D (List PublishedPort × List OccupiedPort)
  | _, [], occupied => .ret ([], occupied)
  | index, port :: rest, occupied => do
      let chosen ← choosePort S R service occupied index port
      record R .port (toString chosen ++ "/" ++ port.protocol) none .present
        [(.port, some (toString chosen)), (.protocol, some port.protocol),
          (.serviceName, some service)]
      let (allocated, occupied) ← allocatePorts R service (index + 1) rest
        ((chosen, port.protocol, port.mode) :: occupied)
      return ({ port with publishedPort := some chosen } :: allocated, occupied)

end DockerSwarmAdapter

end Orchestrator
