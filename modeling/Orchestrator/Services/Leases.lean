import Orchestrator.Runtime.Settings

/-!
# Services — trackers, leases and manifests

The first half of `build_resources.py`: `ResourceTracker`, `build_lease`, and the reading of a
manifest.  `BuildResourceService.manifest` inserts a manifest for a build that has none, marked
as legacy: `ownership_version=0`, and nothing in it that cleanup may remove but the workspace.
-/

namespace Orchestrator
open Interleaving

structure ResourceTracker where
  buildId : BuildId
  owner : Option Uuid := none

/-! ### Tracker -/

/-- The three identity checks of `record` against the resource of the same key. -/
def checkIdentity (existing : BuildResource) (r : RecordArgs) : Except Exc Unit :=
  let metadata := r.metadata.getD []
  let token := existing.metadata.get .creationToken
  let digest := existing.metadata.get .digest
  if r.nativeId ≠ none ∧ existing.nativeId ≠ none ∧ existing.nativeId ≠ r.nativeId then
    .error (exc .resourceConflict "Resource identity changed")
  else if r.kind = .volume ∧ falsy token = false ∧ metadata.has .creationToken ∧
      metadata.get .creationToken ≠ token then
    .error (exc .resourceConflict "Volume creation identity changed")
  else if r.kind = .registryImage ∧ falsy digest = false ∧ falsy (metadata.get .digest) = false ∧
      metadata.get .digest ≠ digest then
    .error (exc .resourceConflict "Build image digest changed")
  else .ok ()

/-- The resource `record` saves. -/
def recorded (existing : Option BuildResource) (r : RecordArgs) : Except Exc BuildResource :=
  match existing with
  | some old =>
      match checkIdentity old r with
      | .error e => .error e
      | .ok () => .ok { old with
          nativeId := if falsy r.nativeId then old.nativeId else r.nativeId
          state := r.state
          managed := r.managed
          metadata := old.metadata.merge (r.metadata.getD [])
          error := r.error }
  | none => .ok ⟨r.kind, r.name, r.target, r.nativeId, r.managed, r.state, r.metadata.getD [],
      r.error⟩

namespace ResourceTracker

def record (tr : ResourceTracker) (r : RecordArgs) : P BuildResource := do
  match ← call (.getBuildResources tr.buildId) with
  | none => fault .repositoryError "Build resources not found"
  | some m =>
      let resource ← Prog.ofExcept (recorded (m.resources.get (resourceKey r.kind r.target r.name)) r)
      let _ ← orRaise (call (.putBuildResource tr.buildId resource tr.owner))
      return resource

def update (tr : ResourceTracker) (r : BuildResource) (state : ResourceState)
    (error : Option String := none) : P Unit := do
  let _ ← orRaise (call (.putBuildResource tr.buildId { r with state, error } tr.owner))
  return ()

def guard (tr : ResourceTracker) : P Unit := orRaise (call (.guard tr.buildId tr.owner))

def perform (tr : ResourceTracker) : TrackerAction → P Unit
  | .record r => do
      let _ ← tr.record r
      return ()
  | .update r state error => tr.update r state error
  | .guard => tr.guard

/-- A Docker operation at work with the tracker. -/
def follow {α : Type} (tr : ResourceTracker) : Script α → P α
  | .done r => Prog.ofExcept r
  | .act a k => (tr.perform a).attempt.bind fun
      | .ok _ => tr.follow (k none)
      | .error e => tr.follow (k (some e))

def docker (tr : ResourceTracker) (c : DockerCall) : P c.Result := do
  let script ← call (.docker c)
  tr.follow script

end ResourceTracker

/-! ### Leases -/

/-- `with build_lease(repository, b, statuses) as tracker: body tracker`. -/
def buildLease {α : Type} (b : BuildId) (statuses : List CleanupStatus)
    (body : Option ResourceTracker → P α) : P α := do
  let owner ← call .uuid4
  let now ← call .utcNow
  match ← call (.claimBuildLease b owner (now.addSeconds 120) statuses) with
  | none => body none
  | some _ => (body (some ⟨b, some owner⟩)).ensuring (call (.releaseBuildLease b owner))

/-! ### Manifests -/

/-- `get_build_resources` where the code goes on as if there were always a manifest. -/
def currentManifest (b : BuildId) : P BuildResources := do
  match ← call (.getBuildResources b) with
  | some m => return m
  | none => fault .runtimeError "'NoneType' object has no attribute 'resources'"

/-- A resource as the legacy manifest protects it. -/
def protectedResource (kind : ResourceKind) (name : String) (target : String)
    (nativeId : Option String) (managed : Bool) (error : Option String) : BuildResource :=
  { kind, name, target, nativeId, managed, error
    state := if managed then .present else .blocked }

/-- The manifest of a build that was created before manifests, or so it is taken. -/
def legacyManifest (S : Settings) (build : BuildJob) (services : List DeploymentService)
    (images : List UserImage) : BuildResources :=
  let b := build.buildId
  let workspace := match build.workspaceSnapshot with
    | some s => [protectedResource .workspace (S.snapshotPath build.appid s) "workspace" none true
        none]
    | none => []
  let services := (services.filter (·.buildId == b)).map fun s =>
    protectedResource .service s.serviceName "docker" (some s.serviceId) false
      (some "Legacy APP-scoped service is not proven build-exclusive")
  let images := (images.filter (·.buildId == b)).map fun i =>
    protectedResource .registryImage i.reference "harbor" none false
      (some "Legacy image ownership requires explicit verification")
  let volumes := (build.composeSnapshot.elim [] Compose.volumes).map fun v =>
    protectedResource .volume v "docker" none false
      (some "Legacy APP-scoped volume is protected")
  let network := if (build.composeSnapshot.elim [] Compose.services).isEmpty then [] else
    [protectedResource .network "legacy-app-network" "docker" none false
      (some "Legacy APP-scoped network is protected")]
  { buildId := b, appid := build.appid, ownershipVersion := 0
    resources := (workspace ++ services ++ images ++ volumes ++ network).foldl .put [] }

/-- `BuildResourceService.manifest`. -/
def manifest (S : Settings) (b : BuildId) : P BuildResources := do
  match ← call (.getBuild b) with
  | none => fault .notFound "Build not found"
  | some build =>
      match ← call (.getBuildResources b) with
      | some m => return m
      | none =>
          let services ← call (.listServices build.appid)
          let images ← call (.listUserImages build.appid)
          orRaise (call (.ensureBuildResources (legacyManifest S build services images)))

end Orchestrator
