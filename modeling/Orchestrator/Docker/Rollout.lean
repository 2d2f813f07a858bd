import Orchestrator.Docker.Deploy

/-!
# Docker — deployment

`DockerSwarmAdapter.deploy` and `deploy_build`, request by request.

* `ServiceArguments`: what `services.create` and `update` are called with; `toObject`: the
  service they describe.  The SDK splits a mount at its colons (`parseMountString`).
* `deployOne`, `waitForServiceReady`: one service.
* `rollbackDeployment`, `cleanupStaleServices`: what is removed when a rollout fails, and when it
  has succeeded.
* `deploy`, `deployBuild`.
-/

namespace Orchestrator
open Interleaving

namespace DockerSwarmAdapter
variable (S : SwarmSettings)

/-! ### Arguments -/

structure ServiceArguments where
  env : List String
  labels : Labels
  networkTarget : String
  alias_ : String
  command : Option Command
  workdir : Option String
  mounts : List String
  shmSize : Option Int
  ports : List PublishedPort
  mode : Option ServiceMode
  restartCondition : Option String
  resources : Option (ResourceAmounts × ResourceAmounts)
  healthcheck : Option Healthcheck
  constraints : List String := []

/-- `_service_kwargs`. -/
def serviceArguments (R : Rollout) (composeName : String) (definition : Fields)
    (networkTarget : String) (ports : List PublishedPort) (sources : List (String × String)) :
    Except Exc ServiceArguments := do
  let given ← labels R.appid composeName (field definition "labels") R.ns
  let env ← environment (field definition "environment")
  let command ← optional (field definition "command") command
  let workdir ← workingDir (field definition "working_dir")
  let mounts ← mounts (field definition "volumes") sources
  let shmSize ← optional (field definition "shm_size") (shmMount S.utils)
  let mode ← mode (field definition "deploy")
  let restartCondition ← restartPolicy (field definition "restart") (field definition "deploy")
  let resources ← resources S.utils (field definition "deploy")
  let healthcheck ← healthcheck (field definition "healthcheck")
  .ok {
    env := env.map fun e => e.1 ++ "=" ++ e.2
    labels := given.update (buildLabels R composeName)
    networkTarget, alias_ := composeName, command, workdir, mounts, shmSize, ports, mode
    restartCondition, resources, healthcheck }

/-- `Mount.parse_mount_string` of the SDK. -/
def parseMountString (text : String) : Except DockerError EngineMount :=
  match split ':' text with
  | [target] => .ok { type := "volume", source := "", target }
  | [source, target] =>
      .ok { type := if startsWith source "/" then "bind" else "volume", source, target }
  | [source, target, mode] =>
      .ok { type := if startsWith source "/" then "bind" else "volume", source, target
            readOnly := mode != "rw" }
  | _ => .error (.failed s!"Invalid mount format {text}")

/-- The mount of the shared memory. -/
def shmObject : EngineMount := { type := "tmpfs", source := "", target := "/dev/shm" }

/-- The service the engine is asked for. -/
def ServiceArguments.toObject (a : ServiceArguments) (image name : String) :
    Except DockerError DockerObject := do
  let mounts ← a.mounts.mapM parseMountString
  .ok {
    id := "", name, image
    labels := a.labels
    mounts := mounts ++ if a.shmSize.isSome then [shmObject] else []
    networks := [a.networkTarget]
    ports := a.ports.map fun p => ⟨p.publishedPort, p.protocol, p.mode⟩
    replicas := match a.mode with
      | some (.replicated n) => some n.toNat
      | some .global => none
      | none => some 1 }

/-! ### One service -/

/-- A named volume a service already uses stays where it is mounted. -/
def checkRebinding (existing : DockerObject) (sources : List (String × String))
    (shared : List String) (service : String) (original desired : String) : Except Exc Unit :=
  let alias_ := (split ':' original).headD ""
  if shared.contains alias_ || (sources.lookup alias_).isNone then .ok ()
  else match split ':' desired with
    | source :: target :: _ =>
        match ((existing.mounts.filter fun m => m.type == "volume" && m.target == target).map
            (·.source)).getLast? with
        | some old =>
            if old ≠ source then
              refuse (s!"Docker service {service} uses an existing differently named volume at " ++
                s!"{target}; refusing to rebind historical data automatically. Preserve it with " ++
                "an explicit Compose volume name/external declaration or migrate the data explicitly")
            else .ok ()
        | none => .ok ()
    | _ => .error (exc .valueError "not enough values to unpack (expected 2, got 1)")

/-- `_assert_volume_rebinding_safe`; the mounts of a service can always be inspected. -/
def assertVolumeRebindingSafe (existing : DockerObject) (definition : Fields)
    (sources : List (String × String)) (shared : List String) (service : String) :
    Except Exc Unit := do
  let original ← mounts (field definition "volumes")
  let desired ← mounts (field definition "volumes") sources
  checkEach (original.zip desired) fun m => checkRebinding existing sources shared service m.1 m.2

/-- The placement of a service that mounts a workspace which is not shared. -/
def workspaceConstraints (R : Rollout) (a : ServiceArguments) : D (List String) := do
  let mount := S.host.workspaceHostRoot.toText ++ "/"
  if S.workspaceSharedStorage || !a.mounts.any (startsWith · mount) then return []
  else if falsy S.host.dockerBaseUrl = false ∧
      startsWith (S.host.dockerBaseUrl.getD "") "unix://" = false then
    abort .dockerService
      "Workspace mounts on a remote Docker engine require configured shared workspace storage"
  else
    let info ← orRefuse (request (ask (.docker R.client .info)))
      fun _ => "Unable to determine the workspace storage Swarm node"
    if falsy info.nodeId then
      abort .dockerService "Workspace storage node is not a Swarm member"
    else return ["node.id==" ++ info.nodeId.getD ""]

/-- What all the services of one rollout share. -/
structure Shared where
  services : Services
  networkTarget : String
  sources : List (String × String)
  sharedAliases : List String

/-- A service that is there already may be updated. -/
def checkExisting (R : Rollout) (W : Shared) (composeName name : String) (definition : Fields) :
    Option DockerObject → D Unit
  | none => .ret ()
  | some existing => do
      Prog.ofExcept (I := hostApi)
        (assertResourceOwner S R.appid R.ns existing.labels "service" name)
      assertTrackedIdentity S R .service name existing
      let shared := if (templateComponent S R.appid R.ns composeName definition).isSome then []
        else W.sharedAliases
      Prog.ofExcept (I := hostApi)
        (assertVolumeRebindingSafe existing definition W.sources shared name)

/-- The service is created, or the existing one updated; its identifier. -/
def applyService (R : Rollout) (name image : String) (a : ServiceArguments)
    (existing : Option DockerObject) : D String :=
  match existing with
  | none => do
      let created ← orRefuse (do
          let spec ← request (.ret (a.toObject image name))
          request (ask (.docker R.client (.create .services spec))))
        fun e => s!"Unable to create Docker service {name}: {S.safeErrorDetail e}"
      return created.id
  | some old => do
      orRefuse (do
          let spec ← request (.ret (a.toObject image name))
          request (ask (.docker R.client (.update old.id spec))))
        fun e => s!"Unable to update Docker service {name}: {S.safeErrorDetail e}"
      return old.id

/-- The image of a service. -/
def imageOf (definition : Fields) : Except Exc String :=
  match field definition "image" with
  | .str image => if strip image = "" then refuse "Compose service must define an image"
      else .ok image
  | _ => refuse "Compose service must define an image"

/-- `_deploy_one`: the deployment, and what is occupied then. -/
def deployOne (R : Rollout) (W : Shared) (composeName : String) (definition : Fields)
    (occupied : List OccupiedPort) : D (ServiceDeployment × List OccupiedPort) := do
  Prog.ofExcept (I := hostApi) (validateServiceName composeName)
  let image ← Prog.ofExcept (I := hostApi) (imageOf definition)
  let name := deploymentServiceName S R.appid R.ns composeName definition
  record R .service name none .planned [(.composeService, some composeName)]
  record R .localImage image
  let requested ← Prog.ofExcept (I := hostApi) (ports (field definition "ports"))
  let (allocated, occupied) ← allocatePorts S R name 0 requested occupied
  let arguments ← Prog.ofExcept (I := hostApi)
    (serviceArguments S R composeName definition W.networkTarget allocated W.sources)
  let constraints ← workspaceConstraints S R arguments
  let existing ← getObject R .services name
    (fun e => s!"Unable to inspect Docker service {name}: {S.safeErrorDetail e}")
  checkExisting S R W composeName name definition existing
  let constraints := if R.tracker.isSome then ["node.id==" ++ R.nodeId.getD ""] else constraints
  guard R
  let id ← applyService S R name image { arguments with constraints } existing
  let serviceId := if id = "" then name else id
  record R .service name (some serviceId) .present [(.composeService, some composeName)]
  return ({
    serviceId, serviceName := name, image
    created := existing.isNone
    endpoint := (allocated.findSome? (·.publishedPort)).map fun p => name ++ ":" ++ toString p
    ports := allocated }, occupied)

/-! ### Readiness -/

/-- `_desired_task_count`. -/
def desiredTaskCount (service : DockerObject) : Nat := service.replicas.getD 1

/-- A task of the new revision is wanted. -/
def wanted (t : SwarmTask) : Bool := t.desiredState == "running" || t.desiredState == "ready"

/-- The details of the tasks that have failed. -/
def failedTasks (service : DockerObject) (tasks : List SwarmTask) : List String :=
  tasks.filterMap fun t =>
    if t.state == "failed" || t.state == "rejected" then
      match t.error with
      | some e => if strip e = "" then none else some (S.safeTaskErrorDetail service e)
      | none => none
    else none

/-- A task that may still come up. -/
def inProgress (t : SwarmTask) : Bool :=
  wanted t && ["new", "allocated", "pending", "assigned", "accepted", "preparing", "ready",
    "starting"].contains t.state

/-- What is said of a service that is not ready in time. -/
def lateMessage (name : String) (tasks : List SwarmTask) (failed : List String) : String :=
  let states := tasks.map fun t => t.desiredState ++ ":" ++ t.state
  let detail := if states.isEmpty then "no tasks" else joinTexts ", " states
  let failure := match failed.getLast? with
    | some e => s!"; last task error: {e}"
    | none => ""
  s!"Docker service {name} did not reach running state within {S.readinessTimeout}s " ++
    s!"({detail}{failure})"

/-- One poll of `_wait_for_service_ready`, and what follows it before the deadline. -/
def pollOnce (R : Rollout) (name : String) (service : DockerObject) (again : Option (D Unit)) :
    D Unit := do
  guard R
  let tasks ← orRefuse (request (ask (.docker R.client (.tasks service.id))))
    fun e => s!"Unable to inspect Docker tasks for service {name}: {S.safeErrorDetail e}"
  let desired := desiredTaskCount service
  let failed := failedTasks S service tasks
  if desired ≤ (tasks.filter fun t => wanted t && t.state == "running").length then return ()
  else if max 2 desired ≤ failed.length ∧ tasks.any inProgress = false then
    let detail := failed.getLast?.getD ""
    abort .dockerService s!"Docker service {name} failed to start: {detail}"
  else
    let late ← ask .deadlinePassed
    match again, late with
    | some poll, false => poll
    | _, _ => abort .dockerService (lateMessage S name tasks failed)

/-- The polls, with this many left before the deadline. -/
def pollTasks (R : Rollout) (name : String) (service : DockerObject) : Nat → D Unit
  | 0 => pollOnce S R name service none
  | polls + 1 => pollOnce S R name service (some (pollTasks R name service polls))

/-- `_wait_for_service_ready`. -/
def waitForServiceReady (R : Rollout) (name : String) : D Unit := do
  let service ← (do
    match ← ask (.docker R.client (.get .services name)) with
    | .ok o => return o
    | .error .notFound =>
        abort .dockerService s!"Unable to inspect Docker service {name}: service was not found"
    | .error e =>
        abort .dockerService
          s!"Unable to inspect Docker service {name}: {S.safeErrorDetail e.exc}" : D DockerObject)
  if desiredTaskCount service = 0 then return ()
  else pollTasks S R name service S.readinessPolls

/-! ### Removal -/

/-- One service of a rollout that has failed; whether it is gone. -/
def rollbackService (R : Rollout) (s : ServiceDeployment) : D Bool := do
  match ← ask (.docker R.client (.get .services s.serviceId)) with
  | .error .notFound => return true
  | .error (.failed _) => return false
  | .ok o =>
      if o.id ≠ s.serviceId then return false
      else match assertResourceOwner S R.appid R.ns o.labels "service" s.serviceName with
        | .error _ => return false
        | .ok () => do
            let removed ← ask (.docker R.client (.remove .services o.id))
            return removed.isOk

/-- `_network_has_other_services`. -/
def networkHasOtherServices (R : Rollout) (network : String) (removed : List String) : D Bool := do
  match ← ask (.docker R.client (.list .services (.network network))) with
  | .error _ => return true
  | .ok services => return services.any fun o => !removed.contains o.id

/-- The network of a rollout that has failed. -/
def rollbackNetwork (R : Rollout) (network : NetworkHandle) : D Unit :=
  (do
    let o ← request (ask (.docker R.client (.get .networks network.target)))
    if o.id ≠ network.target then return ()
    else
      Prog.ofExcept (I := hostApi)
        (assertResourceOwner S R.appid R.ns o.labels "network" network.name)
      request (ask (.docker R.client (.remove .networks o.id)))).tryCatch
  fun _ => .ret ()

/-- `_rollback_deployment`. -/
def rollbackDeployment (R : Rollout) (network : NetworkHandle)
    (created : List ServiceDeployment) : D Unit := do
  let allRemoved ← Prog.foldEach (fun all s => do
    let removed ← rollbackService S R s
    return all && removed) true created.reverse
  if network.created = false ∨ allRemoved = false then return ()
  else if ← networkHasOtherServices R network.name (created.map (·.serviceId)) then return ()
  else rollbackNetwork S R network

/-- A service of an earlier revision. -/
def removeStale (R : Rollout) (stale : DockerObject) : D Unit := do
  let removal ← (do
    if stale.id = "" then
      abort .dockerService s!"Docker service {stale.name} has no immutable ID; refusing stale cleanup"
    else
      let o ← request (ask (.docker R.client (.get .services stale.id)))
      if o.id ≠ stale.id then
        abort .dockerService
          s!"Docker service {stale.name} identity changed; refusing stale cleanup"
      else
        Prog.ofExcept (I := hostApi)
          (assertResourceOwner S R.appid R.ns o.labels "service" stale.name)
        request (ask (.docker R.client (.remove .services o.id))) : D Unit).attempt
  match removal with
  | .ok () => return ()
  | .error e =>
      if e.kind = .notFound then return ()
      else
        abort .dockerService s!"Unable to remove stale Docker service {stale.name}: {S.safeErrorDetail e}"

/-- `_cleanup_stale_services`. -/
def cleanupStaleServices (R : Rollout) (desired : List String) : D Unit := do
  let existing ← orRefuse
    (request (ask (.docker R.client (.list .services (.labels [(appLabel, R.appid)])))))
    fun e => s!"Unable to list Docker services for app {R.appid}: {S.safeErrorDetail e}"
  let stale := existing.filter fun o => o.name != "" && !desired.contains o.name
  Prog.ofExcept (I := hostApi) (checkEach stale fun o =>
    assertResourceOwner S R.appid R.ns o.labels "service" o.name)
  Prog.forEach stale (removeStale S R)

/-! ### A document -/

/-- What the loop of a rollout has done. -/
structure Progress where
  deployed : List ServiceDeployment := []
  created : List ServiceDeployment := []
  occupied : List OccupiedPort

/-- The exceptions of a rollout say what it had created. -/
abbrev Outcome := List ServiceDeployment × Except Exc Progress

/-- One turn of the loop; what has been created before, and in it, is told apart from how it
ends. -/
def rolloutStep (R : Rollout) (W : Shared) (progress : Progress) (composeName : String) :
    D Outcome := do
  let definition := (W.services.lookup composeName).getD []
  match ← (deployOne S R W composeName definition progress.occupied).attempt with
  | .error e => return (progress.created, .error e)
  | .ok (deployment, occupied) =>
      let created := if deployment.created then progress.created ++ [deployment]
        else progress.created
      let rest ← (do
        waitForServiceReady S R deployment.serviceName
        if R.tracker.isSome then
          let image ← request (ask (.docker R.client (.get .images deployment.image)))
          record R .localImage deployment.image (some image.id) .present
        else return () : D Unit).attempt
      return (created, rest.map fun _ =>
        { deployed := progress.deployed ++ [deployment], created, occupied })

/-- The loop of `deploy`. -/
def rolloutServices (R : Rollout) (W : Shared) : Progress → List String → D Outcome
  | progress, [] => .ret (progress.created, .ok progress)
  | progress, name :: rest => do
      match ← rolloutStep S R W progress name with
      | (_, .ok progress) => rolloutServices R W progress rest
      | (created, .error e) => return (created, .error e)

/-- What follows a rollout of an application. -/
def reconcile (R : Rollout) (progress : Progress) : D (List ServiceDeployment) :=
  if R.tracker.isSome then .ret progress.deployed
  else do
    cleanupStaleServices S R (progress.deployed.map (·.serviceName))
    return progress.deployed

/-- What follows a rollout that has failed. -/
def undo (R : Rollout) (network : NetworkHandle) (created : List ServiceDeployment) : D Unit :=
  if R.tracker.all (·.owner.isSome) then do
    guard R
    rollbackDeployment S R network created
  else .ret ()

/-- The services of a document, all deployed, or none of those it has created left. -/
def rollout (R : Rollout) (W : Shared) (network : NetworkHandle) (occupied : List OccupiedPort)
    (order : List String) : D (List ServiceDeployment) := do
  let (created, outcome) ← rolloutServices S R W { occupied } order
  match ← ((Prog.ofExcept (I := hostApi) outcome).bind (reconcile S R)).attempt with
  | .ok deployed => return deployed
  | .error e => do
      undo S R network created
      .raise e

/-- The names of the services outside, and whether the document can be deployed at all. -/
structure Plan where
  services : Services
  sources : List (String × String)
  sharedAliases : List String
  order : List String

/-- The checks of `deploy`, before a client is opened. -/
def plan (appid ns : String) (inBuild : Bool) (compose : Document) : Except Exc Plan := do
  validateCompose S.utils compose
  let services ← composeServices compose
  validateUniqueNames S appid ns services
  let declared ← volumeSources S (entriesOf compose) services ns
  let sources ← if inBuild then declared.mapM fun e => do
      match managedVolumeName S.host.sha256 ns e.1 with
      | .ok name => .ok (e.1, name)
      | .error e => .error e
    else .ok declared
  let order ← deploymentOrder services
  .ok { services, sources, sharedAliases := sharedVolumeAliases (entriesOf compose), order }

/-- `deploy`, of a document with this plan. -/
def deployPlan (appid ns : String) (tracker : Option ResourceTracker) (p : Plan) :
    D SwarmDeployment := do
  let client ← request (ask (.connect S.host.dockerBaseUrl))
  let R : Rollout := { appid, ns, client, tracker
                       target := "docker:" ++ S.host.dockerBaseUrl.getD "unix:///var/run/docker.sock" }
  let R ← (match tracker with
    | none => .ret R
    | some _ => do
        let info ← request (ask (.docker client .info))
        if falsy info.nodeId then
          abort .dockerService "Build isolation requires an identifiable Swarm storage node"
        else
          let R := { R with
            nodeId := info.nodeId
            target := "docker:" ++ (if falsy info.id then info.nodeId else info.id).getD "" }
          Prog.forEach p.sources (prepareBuildVolume S R)
          return R : D Rollout)
  let occupied ← occupiedPublishedPorts S R
    (p.services.map fun s => deploymentServiceName S appid ns s.1 s.2)
  let network ← ensureNetwork S R
  let W : Shared := ⟨p.services, network.target, p.sources, p.sharedAliases⟩
  let deployed ← rollout S R W network occupied p.order
  return ⟨appid, network.name, deployed⟩

/-- `deploy`, of an application. -/
def deploy (appid : String) (compose : Document) : D SwarmDeployment := do
  let ns ← Prog.ofExcept (I := hostApi) (namespaceOf appid)
  let p ← Prog.ofExcept (I := hostApi) (plan S appid ns false compose)
  deployPlan S appid ns none p

/-! ### Of a build -/

/-- What a loop runs over. -/
def iterate : Document → Except Exc (List Document)
  | .list items => .ok items
  | .map entries => .ok (entries.map fun e => match e.1 with
      | .str s => .str s
      | .other t => .other t true none)
  | .str s => .ok (s.toList.map fun c => .str (String.ofList [c]))
  | _ => typeError "object is not iterable"

/-- A declared volume stays inside the build. -/
def checkIsolatedVolume (e : Key × Document) : Except Exc Unit :=
  match e.2 with
  | .null => .ok ()
  | .map definition =>
      let driver := field definition "driver"
      if (field definition "external").truthy || (field definition "driver_opts").truthy ||
          !(driver.isNull || driver.isText "local") then
        refuse "Shared/external volume backends cannot be isolated by build"
      else .ok ()
  | _ => refuse "Compose volume definition is invalid"

/-- The source of a mount, as `validate_build_compose` reads it. -/
def isolatedSource : Document → Document
  | .str mount => .str ((split ':' mount).headD "")
  | .map mount => fieldD mount "source" (.str "")
  | _ => .str ""

/-- A mount of a build shows nothing of the host but the workspace. -/
def checkIsolatedMount (allowed : PurePath) (mount : Document) : Except Exc Unit :=
  match isolatedSource mount with
  | .str source =>
      if source = "" then
        refuse "Anonymous mounts are not supported in build-isolated deployments"
      else if startsWith source "/" = true ∧
          ((PurePath.parse source).isRelativeTo allowed = false ∨
            ".." ∈ (PurePath.parse source).segments) then
        refuse "Absolute bind mounts must belong to the build workspace"
      else .ok ()
  | _ => refuse "Anonymous mounts are not supported in build-isolated deployments"

/-- `validate_build_compose`. -/
def validateBuildCompose (allowed : PurePath) (compose : Document) (environment : Environment) :
    Except Exc Unit :=
  match compose with
  | .map fields => do
      if (field fields "networks").truthy || (field fields "secrets").truthy ||
          (field fields "configs").truthy then
        refuse ("Build-isolated deployments cannot reference external networks, secrets or " ++
          "configs")
      else .ok ()
      match fieldD fields "volumes" (.map []) with
      | .map volumes => checkEach volumes checkIsolatedVolume
      | _ => refuse "Compose volumes must be a mapping"
      let services ← composeServices compose
      checkEach services fun s => do
        checkEach (← iterate (fieldD s.2 "volumes" (.list []))) (checkIsolatedMount allowed)
      S.validatePrivateBackends services environment
  | _ => .error (exc .attributeError "object has no attribute 'get'")

/-- `adapter._allowed_bind_root`. -/
def allowedBindRoot (appid : String) (b : BuildId) : Except Exc PurePath := do
  .ok (S.host.workspaceHostRoot.append [← externalNamespace appid, "snapshots", b.hex, "files"])

/-- The image of a service belongs to the build. -/
def checkBuildImage (b : BuildId) (definition : Fields) : Except Exc Unit :=
  match fieldD definition "image" (.str "") with
  | .str image =>
      if startsWith (lastPart ':' image) (b.hex ++ "-") then .ok ()
      else refuse "Build services require build-exclusive image references"
  | _ => refuse "Build services require build-exclusive image references"

/-- The checks of `deploy_build`, and the plan of the `deploy` it ends in. -/
def planBuild (appid : String) (b : BuildId) (compose : Document) : Except Exc Plan := do
  validateBuildCompose S (← allowedBindRoot S appid b) compose []
  checkEach (← composeServices compose) fun s => checkBuildImage b s.2
  plan S appid (S.host.base.buildNamespace appid b) true compose

/-- `deploy_build`. -/
def deployBuild (appid : String) (tracker : ResourceTracker) (compose : Document) :
    D SwarmDeployment := do
  let p ← Prog.ofExcept (I := hostApi) (planBuild S appid tracker.buildId compose)
  deployPlan S appid (S.host.base.buildNamespace appid tracker.buildId) (some tracker) p

end DockerSwarmAdapter

end Orchestrator
