import Orchestrator.Docker.Cleaner
import Orchestrator.Discipline.Deeds

/-!
# Docker — footprints of the cleaner

Which calls each operation of the cleaner can make.

* `stills`: calls that change nothing.
* `looks`: calls that only look, or keep a client.
* `removes`: calls that remove something outside the repository; `removesRuntime`: services and
  containers only.
* `Records tr`: looking, and saving resources in the name of `tr`, though no verification marker.
-/

namespace Orchestrator
open Interleaving

/-- Nothing changes. -/
def HostOp.stills : HostOp → Bool
  | .repo (.guard ..) => true
  | .docker _ .info | .docker _ (.get ..) | .docker _ (.list ..) | .docker _ (.tasks _) => true
  | .connect _ | .listBuildPorts _ | .getArtifact .. | .inspectDirectory _ | .attributes
  | .deadlinePassed => true
  | _ => false

/-- Nothing outside the runner changes, and in the repository nothing either. -/
def HostOp.looks : HostOp → Bool
  | .repo (.getBuildResources _) | .assign _ => true
  | op => op.stills

/-- Something outside the repository may be removed. -/
def HostOp.removes : HostOp → Bool
  | .docker _ (.remove ..) | .docker _ (.untag _) | .releasePort .. | .deleteTag ..
  | .removeTree _ => true
  | _ => false

/-- A service or a container may be removed. -/
def HostOp.removesRuntime : HostOp → Bool
  | .docker _ (.remove .services _) | .docker _ (.remove .containers _) => true
  | _ => false

/-- A call that changes nothing. -/
def Stills (op : HostOp) : Prop := op.stills = true

/-- A call that at most keeps a client. -/
def Looks (op : HostOp) : Prop := op.looks = true

/-- A call that looks or removes. -/
def Removes (op : HostOp) : Prop := op.looks = true ∨ op.removes = true

/-- A call that looks, or removes a service or a container. -/
def RemovesRuntime (op : HostOp) : Prop := op.looks = true ∨ op.removesRuntime = true

/-- The resource does not say that the builder report could not be verified. -/
def BuildResource.Unmarked (r : BuildResource) : Prop :=
  r.state = .present ∨ r.kind ≠ .builderCache

/-- A call that looks, or saves a resource for the tracker, but no marker. -/
def Records (tr : ResourceTracker) (op : HostOp) : Prop :=
  op.looks = true ∨ ∃ r : BuildResource, r.Unmarked ∧
    op = .repo (.putBuildResource tr.buildId r tr.owner)

section
variable {α β : Type} {F : HostOp → Prop} {tr : ResourceTracker}

/-- A single call has its own footprint. -/
theorem uses_ask {op : HostOp} (h : F op) : (ask op).Uses F :=
  (Prog.uses_send (I := hostApi) op).mpr h

/-- A request that raises calls nothing more. -/
theorem uses_request {p : D (Except DockerError α)} (h : p.Uses F) : (request p).Uses F := by
  refine Prog.Uses.bind h fun r => ?_
  cases r <;> trivial

theorem uses_insist {p : D (Except Exc α)} (h : p.Uses F) : (insist p).Uses F :=
  Prog.Uses.bind h fun r => Prog.uses_ofExcept (I := hostApi) r

/-- What changes nothing looks. -/
theorem Stills.looks {op : HostOp} (h : Stills op) : Looks op := by
  unfold Looks HostOp.looks
  split
  · rfl
  · rfl
  · exact h

theorem Looks.records {op : HostOp} (h : Looks op) : Records tr op := .inl h

theorem Looks.runtime {op : HostOp} (h : Looks op) : RemovesRuntime op := .inl h

/-- Services and containers are something. -/
theorem RemovesRuntime.removes {op : HostOp} (h : RemovesRuntime op) : Removes op := by
  refine h.imp id fun h => ?_
  unfold HostOp.removesRuntime at h
  split at h
  · rfl
  · rfl
  · cases h

theorem Looks.removes {op : HostOp} (h : Looks op) : Removes op := .inl h

/-- What is done in the repository is done on the host. -/
theorem uses_onHost {G : Op → Prop} {p : P α} (h : p.Uses G)
    (hF : ∀ op, G op → F (.repo op)) : (onHost p).Uses F := by
  induction p with
  | ret a => trivial
  | raise e => trivial
  | call op k ih => exact ⟨hF op h.1, fun r hr => ih r (h.2 r hr)⟩

end

/-- A program that looks may do more. -/
theorem looks_mono {α : Type} {F : HostOp → Prop} {p : D α} (h : p.Uses Looks)
    (hF : ∀ op, Looks op → F op) : p.Uses F := Prog.Uses.mono (I := hostApi) h hF

/-- A program that changes nothing looks. -/
theorem stills_looks {α : Type} {p : D α} (h : p.Uses Stills) : p.Uses Looks :=
  Prog.Uses.mono (I := hostApi) h fun _ hop => hop.looks

section Trackers
variable (tr : ResourceTracker)

/-- What a tracker calls. -/
inductive Tracks (tr : ResourceTracker) : Op → Prop where
  | guard : Tracks tr (.guard tr.buildId tr.owner)
  | get : Tracks tr (.getBuildResources tr.buildId)
  | put (x : BuildResource) : Tracks tr (.putBuildResource tr.buildId x tr.owner)

/-- A tracker guards its own lease. -/
theorem guard_tracks : tr.guard.Uses (Tracks tr) := uses_orRaise (uses_one .guard)

/-- It saves resources of its own build. -/
theorem update_tracks (r : BuildResource) (state : ResourceState) (error : Option String) :
    (tr.update r state error).Uses (Tracks tr) :=
  .bind (uses_orRaise (uses_one (.put _))) fun _ => trivial

theorem record_tracks (r : RecordArgs) : (tr.record r).Uses (Tracks tr) := by
  refine .call .get fun m _ => ?_
  cases m with
  | none => trivial
  | some m =>
      refine .bind (Prog.uses_ofExcept (I := api) _) fun x => ?_
      exact .bind (uses_orRaise (uses_one (.put x))) fun _ => trivial

/-- A script keeps to the calls of its tracker. -/
theorem follow_tracks {α : Type} (script : Script α) : (tr.follow script).Uses (Tracks tr) := by
  induction script with
  | done r => exact Prog.uses_ofExcept (I := api) r
  | act a k ih =>
      rw [ResourceTracker.follow]
      refine .bind (Prog.Uses.attempt ?_) fun r => ?_
      · cases a with
        | record r => exact .bind (record_tracks tr r) fun _ => trivial
        | update r state error => exact update_tracks tr r state error
        | guard => exact guard_tracks tr
      · cases r with
        | ok _ => exact ih none
        | error e => exact ih (some e)

/-- What `record` saves is in the state it was given. -/
theorem recorded_state {old : Option BuildResource} {r : RecordArgs} {x : BuildResource}
    (h : recorded old r = .ok x) : x.state = r.state := by
  unfold recorded at h
  split at h
  · split at h
    · cases h
    · cases h; rfl
  · cases h; rfl

/-- Guarding changes nothing. -/
theorem guard_stills : (onHost tr.guard).Uses Stills := by
  refine uses_onHost (G := fun op => op = .guard tr.buildId tr.owner) ?_ ?_
  · exact uses_orRaise (uses_one rfl)
  · rintro _ rfl; rfl

theorem guard_looks : (onHost tr.guard).Uses Looks := stills_looks (guard_stills tr)

/-- Reading the manifest looks. -/
theorem currentManifest_looks (b : BuildId) : (onHost (currentManifest b)).Uses Looks := by
  refine uses_onHost (G := fun op => op = .getBuildResources b) ?_ ?_
  · refine .call rfl fun m _ => ?_
    cases m <;> trivial
  · rintro _ rfl; rfl

/-- An update of a resource that is no builder cache is no marker. -/
theorem update_records (r : BuildResource) (state : ResourceState) (error : Option String)
    (hr : r.kind ≠ .builderCache) : (onHost (tr.update r state error)).Uses (Records tr) := by
  refine uses_onHost (G := fun op => op = .putBuildResource tr.buildId { r with state, error }
    tr.owner) ?_ ?_
  · exact .bind (uses_orRaise (uses_one rfl)) fun _ => trivial
  · rintro _ rfl
    exact .inr ⟨{ r with state, error }, Or.inr hr, rfl⟩

/-- Nor is the record of a resource that is present. -/
theorem record_records (r : RecordArgs) (hr : r.state = .present) :
    (onHost (tr.record r)).Uses (Records tr) := by
  refine uses_onHost (G := fun op => op = .getBuildResources tr.buildId ∨
    ∃ x : BuildResource, x.state = .present ∧ op = .putBuildResource tr.buildId x tr.owner) ?_ ?_
  · refine .call (.inl rfl) fun m _ => ?_
    cases m with
    | none => trivial
    | some m =>
        refine .bind_of (Prog.uses_ofExcept (I := api) _)
          (Prog.yields_ofExcept (I := api) fun x hx => (recorded_state hx).trans hr)
          fun x hx => ?_
        exact .bind (uses_orRaise (uses_one (.inr ⟨x, hx, rfl⟩))) fun _ => trivial
  · rintro _ (rfl | ⟨x, hx, rfl⟩)
    · exact .inl rfl
    · exact .inr ⟨x, .inl hx, rfl⟩

end Trackers

namespace DockerBuildCleaner
variable (S : HostSettings) (m : BuildResources) (tr : ResourceTracker)

/-! ### Clients and lookups -/

/-- The cleaner starts with a look at its own node. -/
theorem init_looks : (init S).Uses Looks := by
  refine .bind (uses_request (uses_ask rfl)) fun client => ?_
  refine .bind (uses_request (uses_ask rfl)) fun info => ?_
  split
  · trivial
  · exact .bind (uses_ask rfl) fun _ => uses_ask rfl

/-- A client is found by its target. -/
theorem targetClient_looks (target : String) : (targetClient S target).Uses Looks := by
  refine .bind (uses_ask rfl) fun self => ?_
  split
  · trivial
  split
  · trivial
  refine .bind (uses_request (uses_ask rfl)) fun client => ?_
  refine .bind (uses_request (uses_ask rfl)) fun info => ?_
  split
  · trivial
  · exact .bind (uses_ask rfl) fun _ => .bind (uses_ask rfl) fun _ => trivial

/-- Looking for an object changes nothing. -/
theorem find?_stills (client : Client) (k : Collection) (identifier : String) :
    (find? client k identifier).Uses Stills := by
  refine .call rfl fun r _ => ?_
  split <;> trivial

/-- The object of a resource is found by its name or identity. -/
theorem find_stills (client : Client) (k : Collection) (r : BuildResource) :
    (find client k r).Uses Stills := by
  refine .bind (find?_stills _ _ _) fun obj => ?_
  refine .bind ?_ fun obj => ?_
  · split
    · split
      · trivial
      · exact find?_stills _ _ _
    · trivial
  · unfold checkFound
    split
    · split <;> trivial
    · trivial

theorem find?_looks (client : Client) (k : Collection) (identifier : String) :
    (find? client k identifier).Uses Looks := stills_looks (find?_stills _ _ _)

theorem find_looks (client : Client) (k : Collection) (r : BuildResource) :
    (find client k r).Uses Looks := stills_looks (find_stills _ _ r)

/-- The client of the node that a manifest names is kept. -/
theorem switchClient_looks : (switchClient S m).Uses Looks := by
  unfold switchClient
  dsimp only
  split
  · trivial
  refine .bind (uses_ask rfl) fun self => ?_
  split
  · split
    · trivial
    refine .bind (targetClient_looks S _) fun client => ?_
    refine .bind (uses_ask rfl) fun self => .bind (uses_ask rfl) fun _ => ?_
    refine .bind (uses_request (uses_ask rfl)) fun info => ?_
    exact .bind (uses_ask rfl) fun self => uses_ask rfl
  · trivial

/-! ### Discovery -/

/-- What is found is recorded as present. -/
theorem recordPresent_records (kind : ResourceKind) (name target : String)
    (nativeId : Option String) (metadata : Option Metadata) :
    (recordPresent tr kind name target nativeId metadata).Uses (Records tr) :=
  .bind (record_records tr _ rfl) fun _ => trivial

/-- All objects of a kind with the label of the build are recorded. -/
theorem discoverKind_records (client : Client) (target : String) (k : Collection)
    (kind : ResourceKind) : (discoverKind S m tr client target k kind).Uses (Records tr) := by
  refine .bind (uses_request (uses_ask (.inl rfl))) fun found => .forEach fun o => ?_
  refine .bind (Prog.uses_ofExcept (I := hostApi) _) fun _ => ?_
  split
  · refine .bind (Prog.uses_ofExcept (I := hostApi) _) fun token => ?_
    exact recordPresent_records tr _ _ _ _ _
  · exact recordPresent_records tr _ _ _ _ _
  · exact recordPresent_records tr _ _ _ _ _

/-- So are the containers of a service. -/
theorem discoverTasks_records (r : BuildResource) :
    (discoverTasks S m tr r).Uses (Records tr) := by
  refine .bind (uses_ask (.inl rfl)) fun self => ?_
  refine .bind (looks_mono (find_looks _ _ r) fun _ h => h.records) fun service => ?_
  split
  · trivial
  refine .bind (Prog.uses_ofExcept (I := hostApi) _) fun _ => ?_
  refine .bind (uses_request (uses_ask (.inl rfl))) fun tasks => .forEach fun task => ?_
  split
  · trivial
  · split
    · trivial
    · exact recordPresent_records tr _ _ _ _ _

/-- Discovery looks and records. -/
theorem discover_records : (discover S m tr).Uses (Records tr) := by
  refine .bind (looks_mono (switchClient_looks S m) fun _ h => h.records) fun _ => ?_
  refine .bind (uses_ask (.inl rfl)) fun ports => ?_
  refine .bind (.forEach fun a => recordPresent_records tr _ _ _ _ _) fun _ => ?_
  refine .bind (uses_ask (.inl rfl)) fun self => ?_
  refine .bind (discoverKind_records S m tr _ _ _ _) fun _ => ?_
  refine .bind (discoverKind_records S m tr _ _ _ _) fun _ => ?_
  refine .bind (.forEach fun target => ?_) fun _ => ?_
  · refine .bind (looks_mono (targetClient_looks S _) fun _ h => h.records) fun client => ?_
    refine .bind (discoverKind_records S m tr _ _ _ _) fun _ => ?_
    exact discoverKind_records S m tr _ _ _ _
  refine .bind (looks_mono (currentManifest_looks _) fun _ h => h.records) fun current => ?_
  exact .forEach fun r => discoverTasks_records S m tr r

/-! ### Checks -/

/-- Whether a network is in use is read off. -/
theorem assertDetached_stills (client : Client) (network : DockerObject) :
    (assertDetached client network).Uses Stills := by
  refine .forEach fun identifier => .bind (find?_stills _ _ _) fun found => ?_
  cases found <;> trivial

/-- Whether an image is in use as well. -/
theorem assertLayersUnused_stills (image : DockerObject) :
    (assertLayersUnused image).Uses Stills := by
  refine .bind (uses_ask rfl) fun self => ?_
  refine .bind (uses_request (uses_ask rfl)) fun services => .forEach fun service => ?_
  split
  · trivial
  refine .bind (find?_stills _ _ _) fun found => ?_
  split
  · split <;> trivial
  · trivial

/-- A directory is looked for in the mounts of all containers. -/
theorem assertDirectoryUnused_looks (directory : PurePath) :
    (assertDirectoryUnused S directory tr).Uses Looks := by
  refine .bind (uses_ask rfl) fun self => ?_
  refine .bind (.forEach fun client => ?_) fun _ => ?_
  · refine .bind (guard_looks tr) fun _ => ?_
    refine .bind (uses_request (uses_ask rfl)) fun containers => ?_
    split <;> trivial
  · refine .bind (uses_request (uses_ask rfl)) fun services => ?_
    split <;> trivial

/-- Waiting looks at the containers until none runs. -/
theorem waitContainersStopped_looks (polls : Nat) :
    (waitContainersStopped S m tr polls).Uses Looks := by
  induction polls with
  | zero => trivial
  | succ polls ih =>
      refine .bind (guard_looks tr) fun _ => ?_
      refine .bind (currentManifest_looks _) fun current => ?_
      refine .bind (.foldEach (fun running r => ?_) _ _) fun running => ?_
      · refine .bind ?_ fun _ => trivial
        refine .bind (targetClient_looks S _) fun client => ?_
        refine .bind (find_looks _ _ r) fun found => ?_
        cases found <;> trivial
      · split
        · trivial
        refine .bind (uses_ask rfl) fun passed => ?_
        split
        · trivial
        · exact ih

/-- What is gone is looked for once more. -/
theorem verifyResource_records (r : BuildResource) :
    (verifyResource S tr r).Uses (Records tr) := by
  unfold verifyResource
  split
  · trivial
  next k hk =>
  split
  · trivial
  refine .bind (looks_mono (guard_looks tr) fun _ h => h.records) fun _ => ?_
  refine .bind (looks_mono (targetClient_looks S _) fun _ h => h.records) fun client => ?_
  refine .tryCatch ?_ fun _ => ?_
  · refine .bind ?_ fun found => ?_
    · split
      · exact looks_mono (find?_looks _ _ _) fun _ h => h.records
      · exact looks_mono (find_looks _ _ _) fun _ h => h.records
    · split <;> trivial
  · refine .bind (update_records tr _ _ _ fun h => ?_) fun _ => trivial
    rw [h] at hk
    cases hk

/-- Verification looks and records. -/
theorem verifyEmpty_records : (verifyEmpty S m tr).Uses (Records tr) := by
  refine .bind (.forEach fun r => verifyResource_records S tr r) fun _ => ?_
  refine .bind (uses_ask (.inl rfl)) fun self => ?_
  refine .bind (.forEach fun client => ?_) fun _ => ?_
  · refine .bind (looks_mono (guard_looks tr) fun _ h => h.records) fun _ => ?_
    refine .bind (uses_request (uses_ask (.inl rfl))) fun containers => ?_
    split
    · trivial
    refine .bind (uses_request (uses_ask (.inl rfl))) fun volumes => ?_
    split <;> trivial
  · refine .bind (uses_request (uses_ask (.inl rfl))) fun services => ?_
    split
    · trivial
    refine .bind (uses_request (uses_ask (.inl rfl))) fun networks => ?_
    split <;> trivial

/-! ### Removal -/

section Removal
variable (r : BuildResource) (client : Client)

/-- The removal of a service. -/
theorem removeService_runtime : (removeService S m r tr client).Uses RemovesRuntime := by
  refine .bind (looks_mono (find_looks _ _ r) fun _ h => h.runtime) fun found => ?_
  split
  · trivial
  refine .bind (Prog.uses_ofExcept (I := hostApi) _) fun _ => ?_
  refine .bind (looks_mono (guard_looks tr) fun _ h => h.runtime) fun _ => ?_
  exact uses_request (uses_ask (.inr rfl))

/-- The removal of a container. -/
theorem removeContainer_runtime : (removeContainer S m r tr client).Uses RemovesRuntime := by
  refine .bind (looks_mono (find_looks _ _ r) fun _ h => h.runtime) fun found => ?_
  split
  · trivial
  refine .bind (Prog.uses_ofExcept (I := hostApi) _) fun _ => ?_
  dsimp only
  split
  · trivial
  refine .bind (uses_ask (.inl rfl)) fun self => ?_
  refine .bind (looks_mono (find?_looks _ _ _) fun _ h => h.runtime) fun service => ?_
  split
  · trivial
  split
  · trivial
  refine .bind (looks_mono (guard_looks tr) fun _ h => h.runtime) fun _ => ?_
  exact uses_request (uses_ask (.inr rfl))

/-- The removal of a volume, which no container may use. -/
theorem removeVolume_removes : (removeVolume S m r tr client).Uses Removes := by
  refine .bind (looks_mono (find_looks _ _ r) fun _ h => h.removes) fun found => ?_
  split
  · trivial
  refine .bind (Prog.uses_ofExcept (I := hostApi) _) fun _ => ?_
  refine .bind (uses_request (uses_ask (.inl rfl))) fun users => ?_
  split
  · trivial
  refine .bind (uses_ask (.inl rfl)) fun self => ?_
  refine .bind (uses_request (uses_ask (.inl rfl))) fun services => ?_
  split
  · trivial
  refine .bind (looks_mono (guard_looks tr) fun _ h => h.removes) fun _ => ?_
  exact uses_request (uses_ask (.inr rfl))

/-- The removal of a network, which nothing may be attached to. -/
theorem removeNetwork_removes : (removeNetwork S m r tr client).Uses Removes := by
  refine .bind (looks_mono (find_looks _ _ r) fun _ h => h.removes) fun found => ?_
  split
  · trivial
  refine .bind (Prog.uses_ofExcept (I := hostApi) _) fun _ => ?_
  refine .bind (uses_request (uses_ask (.inl rfl))) fun services => ?_
  split
  · trivial
  refine .bind (looks_mono (stills_looks (assertDetached_stills _ _)) fun _ h => h.removes) fun _ => ?_
  refine .bind (looks_mono (guard_looks tr) fun _ h => h.removes) fun _ => ?_
  exact uses_request (uses_ask (.inr rfl))

/-- The removal of a name of an image. -/
theorem removeLocalImage_removes : (removeLocalImage m r tr client).Uses Removes := by
  refine .bind (looks_mono (find?_looks _ _ _) fun _ h => h.removes) fun found => ?_
  split
  · trivial
  split
  · trivial
  split
  · trivial
  refine .bind (uses_request (uses_ask (.inl rfl))) fun containers => ?_
  split
  · trivial
  refine .bind (uses_ask (.inl rfl)) fun self => ?_
  refine .bind (uses_request (uses_ask (.inl rfl))) fun services => ?_
  split
  · trivial
  refine .bind ?_ fun users => ?_
  · split
    · refine .bind (looks_mono (stills_looks (assertLayersUnused_stills _)) fun _ h => h.removes) fun _ => ?_
      exact uses_request (uses_ask (.inl rfl))
    · trivial
  split
  · trivial
  refine .bind (looks_mono (guard_looks tr) fun _ h => h.removes) fun _ => ?_
  exact uses_request (uses_ask (.inr rfl))

theorem removePort_removes : (removePort m r tr client).Uses Removes := by
  refine .bind (Prog.uses_ofExcept (I := hostApi) _) fun number => ?_
  split
  · trivial
  refine .bind (uses_request (uses_ask (.inl rfl))) fun services => ?_
  split
  · trivial
  refine .bind (uses_request (uses_ask (.inl rfl))) fun containers => ?_
  split
  · trivial
  refine .bind (looks_mono (guard_looks tr) fun _ h => h.removes) fun _ => ?_
  refine .bind (uses_insist (uses_ask (.inr rfl))) fun released => ?_
  split <;> trivial

theorem remove_removes : (remove S m r tr).Uses Removes := by
  refine .bind (looks_mono (guard_looks tr) fun _ h => h.removes) fun _ => ?_
  refine .bind (looks_mono (targetClient_looks S _) fun _ h => h.removes) fun client => ?_
  split
  · exact (removeService_runtime S m tr r client).mono fun _ h => h.removes
  · exact (removeContainer_runtime S m tr r client).mono fun _ h => h.removes
  · exact removeVolume_removes S m tr r client
  · exact removeNetwork_removes S m tr r client
  · exact removeLocalImage_removes m tr r client
  · exact removePort_removes m tr r client
  · trivial

end Removal

end DockerBuildCleaner

namespace HarborImageCleaner
variable {F : HostOp → Prop}

theorem uses_harborRequest {α : Type} {p : D (Except Exc α)} (h : p.Uses F) :
    (harborRequest p).Uses F := by
  refine Prog.Uses.bind h fun r => ?_
  cases r <;> trivial

theorem removeBuildTag_removes (S : HostSettings) (tr : ResourceTracker)
    (reference expected : String) (b : BuildId) (digest : Option String) :
    (removeBuildTag S tr reference expected b digest).Uses Removes := by
  refine .bind (Prog.uses_ofExcept (I := hostApi) _) fun _ => ?_
  split
  · trivial
  split
  · trivial
  dsimp only
  split
  · trivial
  refine .bind (uses_harborRequest (uses_ask (.inl rfl))) fun response => ?_
  split
  · trivial
  split
  · trivial
  split
  · trivial
  split
  · trivial
  refine .bind (looks_mono (guard_looks tr) fun _ h => h.removes) fun _ => ?_
  refine .bind (uses_harborRequest (uses_ask (.inr rfl))) fun removed => ?_
  split
  · trivial
  refine .bind (uses_harborRequest (uses_ask (.inl rfl))) fun verified => ?_
  split
  · trivial
  split <;> trivial

end HarborImageCleaner

theorem WorkspaceStore.deleteBuildSnapshot_removes (S : HostSettings) (appid : String)
    (b : BuildId) (name : String) : (deleteBuildSnapshot S appid b name).Uses Removes := by
  unfold deleteBuildSnapshot
  dsimp only
  split
  · trivial
  refine .bind (uses_insist (uses_ask (.inl rfl))) fun found => ?_
  cases found with
  | false => trivial
  | true => exact uses_insist (uses_ask (.inr rfl))

end Orchestrator
