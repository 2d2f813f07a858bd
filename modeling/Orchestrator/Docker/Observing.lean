import Orchestrator.Docker.RolloutFootprints

/-!
# Docker — observing

Discovery and the deployment of a build write the manifest in one way only: they record what they
plan or observe.

* `Aside`: calls that write nothing in the repository.
* `Observing G tr`: such calls, and what `tr` records, have the property `G`.
* `discover_of`, `deployBuild_of`: then so do discovery and deployment.
-/

namespace Orchestrator
open Interleaving

/-- Nothing in the repository is written. -/
def HostOp.aside : HostOp → Bool
  | .repo (.getBuildResources _) | .repo (.guard ..) => true
  | .repo _ => false
  | _ => true

/-- A call that writes nothing in the repository. -/
def Aside (op : HostOp) : Prop := op.aside = true

/-- Looking is such a call. -/
theorem Looks.aside {op : HostOp} (h : Looks op) : Aside op := by
  cases op with
  | repo op => cases op <;> first | rfl | cases h
  | _ => rfl

/-- So is removing. -/
theorem Removes.aside {op : HostOp} (h : Removes op) : Aside op := by
  rcases h with h | h
  · exact Looks.aside h
  · cases op with
    | repo op => cases h
    | _ => rfl

/-- A program that looks writes nothing there. -/
theorem looks_aside {α : Type} {p : D α} (h : p.Uses Looks) : p.Uses Aside :=
  looks_mono h fun _ hop => hop.aside

/-- The pieces of an observation have the property `G`. -/
structure Observing (G : {α : Type} → D α → Prop) (tr : ResourceTracker) : Prop where
  compositional : Prog.Compositional (I := hostApi) G
  aside : ∀ op, Aside op → G (ask op)
  record : ∀ r : RecordArgs, r.kind ≠ .registryImage → G (onHost (tr.record r))

section
variable {G : {α : Type} → D α → Prop} {tr : ResourceTracker} (h : Observing G tr)
include h

namespace Observing

/-- What writes nothing there has the property. -/
theorem of_aside {α : Type} {p : D α} (hp : p.Uses Aside) : G p := h.compositional.of_uses h.aside hp

theorem looks {α : Type} {p : D α} (hp : p.Uses Looks) : G p := h.of_aside (looks_aside hp)

/-- A check that raises has it. -/
theorem check {α : Type} (x : Except Exc α) : G (Prog.ofExcept (I := hostApi) x) :=
  h.compositional.ofExcept x

end Observing

/-! ### Discovery -/

namespace DockerBuildCleaner
variable (S : HostSettings) (m : BuildResources)

/-- Recording what is found has it, but for images of the registry. -/
theorem recordPresent_of {kind : ResourceKind} (hk : kind ≠ .registryImage) (name target : String)
    (nativeId : Option String) (metadata : Option Metadata) :
    G (recordPresent tr kind name target nativeId metadata) :=
  h.compositional.bind (h.record _ hk) fun _ => h.compositional.ret _

/-- So has the discovery of a kind. -/
theorem discoverKind_of (client : Client) (target : String) (k : Collection)
    {kind : ResourceKind} (hk : kind ≠ .registryImage) :
    G (discoverKind S m tr client target k kind) := by
  have hG := h.compositional
  refine hG.bind (h.looks (uses_request (uses_ask rfl))) fun found => hG.forEach fun o => ?_
  refine hG.bind (h.check _) fun _ => ?_
  split
  · exact hG.bind (h.check _) fun token => recordPresent_of h hk _ _ _ _
  · exact recordPresent_of h hk _ _ _ _
  · exact recordPresent_of h hk _ _ _ _

/-- And that of the containers of a service. -/
theorem discoverTasks_of (r : BuildResource) : G (discoverTasks S m tr r) := by
  have hG := h.compositional
  refine hG.bind (h.looks (uses_ask rfl)) fun self => ?_
  refine hG.bind (h.looks (find_looks _ _ r)) fun service => ?_
  split
  · exact hG.ret _
  refine hG.bind (h.check _) fun _ => ?_
  refine hG.bind (h.looks (uses_request (uses_ask rfl))) fun tasks => hG.forEach fun task => ?_
  split
  · exact hG.ret _
  · split
    · exact hG.ret _
    · exact recordPresent_of h (by simp) _ _ _ _

/-- **Discovery.** -/
theorem discover_of : G (discover S m tr) := by
  have hG := h.compositional
  refine hG.bind (h.looks (switchClient_looks S m)) fun _ => ?_
  refine hG.bind (h.looks (uses_ask rfl)) fun ports => ?_
  refine hG.bind (hG.forEach fun a => recordPresent_of h (by simp) _ _ _ _) fun _ => ?_
  refine hG.bind (h.looks (uses_ask rfl)) fun self => ?_
  refine hG.bind (discoverKind_of h S m _ _ _ (by simp)) fun _ => ?_
  refine hG.bind (discoverKind_of h S m _ _ _ (by simp)) fun _ => ?_
  refine hG.bind (hG.forEach fun target => ?_) fun _ => ?_
  · refine hG.bind (h.looks (targetClient_looks S _)) fun client => ?_
    refine hG.bind (discoverKind_of h S m _ _ _ (by simp)) fun _ => ?_
    exact discoverKind_of h S m _ _ _ (by simp)
  refine hG.bind (h.looks (currentManifest_looks _)) fun current => ?_
  exact hG.forEach fun r => discoverTasks_of h S m r

end DockerBuildCleaner

/-! ### Deployment -/

namespace DockerSwarmAdapter
variable (S : SwarmSettings) (R : Rollout)

omit h in
/-- Asking for a port writes nothing in the repository. -/
theorem requestedPort_aside (port : PublishedPort) (owner : String) :
    (requestedPort R port owner).Uses Aside := by
  unfold requestedPort
  split
  · trivial
  · refine .bind (uses_ask rfl) fun rows => ?_
    split <;> trivial

omit h in
/-- Nor is searching for one. -/
theorem searchPort_aside (occupied : List OccupiedPort) (port : PublishedPort) (owner : String)
    (l : List Nat) : (searchPort R occupied port owner l).Uses Aside := by
  induction l with
  | nil => trivial
  | cons n l ih =>
      unfold searchPort
      split
      · exact ih
      · refine .bind ?_ fun granted => ?_
        · unfold reservePort
          split
          · trivial
          · exact .bind (looks_aside (guard_looks _)) fun _ => uses_insist (uses_ask rfl)
        · split
          · trivial
          · exact ih

omit h in
theorem choosePort_aside (service : String) (occupied : List OccupiedPort) (i : Nat)
    (port : PublishedPort) : (choosePort S R service occupied i port).Uses Aside := by
  refine .bind (requestedPort_aside R _ _) fun requested => ?_
  refine .bind (searchPort_aside R _ _ _ _) fun found => ?_
  split
  · trivial
  · refine .bind (searchPort_aside R _ _ _ _) fun found => ?_
    split <;> trivial

omit h in
/-- Nor is creating or changing a service. -/
theorem applyService_aside (name image : String) (a : ServiceArguments)
    (existing : Option DockerObject) : (applyService S R name image a existing).Uses Aside := by
  unfold applyService
  split
  · refine .bind (uses_orRefuse (.bind (uses_request trivial) fun spec => ?_)) fun _ => trivial
    exact uses_request (uses_ask rfl)
  · refine .bind (uses_orRefuse (.bind (uses_request trivial) fun spec => ?_)) fun _ => trivial
    exact uses_request (uses_ask rfl)

omit h in
theorem rollbackService_aside (s : ServiceDeployment) : (rollbackService S R s).Uses Aside := by
  refine .bind (uses_ask rfl) fun found => ?_
  split
  · trivial
  · trivial
  · split
    · trivial
    · split
      · trivial
      · exact .bind (uses_ask rfl) fun _ => trivial

omit h in
/-- Nor is taking all of it back. -/
theorem undo_aside (network : NetworkHandle) (created : List ServiceDeployment) :
    (undo S R network created).Uses Aside := by
  unfold undo
  split
  · refine .bind (looks_aside (guard_uses_looks R)) fun _ => ?_
    refine .bind (.foldEach (fun all s => ?_) _ _) fun allRemoved => ?_
    · exact .bind (rollbackService_aside S R s) fun _ => trivial
    split
    · trivial
    · refine .bind (looks_aside (networkHasOtherServices_looks R _ _)) fun others => ?_
      split
      · trivial
      · refine .tryCatch (.bind (uses_request (uses_ask rfl)) fun o => ?_) fun _ => trivial
        split
        · trivial
        · exact .bind (uses_check _) fun _ => uses_request (uses_ask rfl)
  · trivial

variable {R} (hR : R.tracker = some tr)
include hR

/-- A record of the deployment has the property, but for images of the registry. -/
theorem record_of {kind : ResourceKind} (hk : kind ≠ .registryImage) (name : String)
    (nativeId : Option String) (state : ResourceState) (metadata : Metadata) :
    G (record R kind name nativeId state metadata) := by
  have hG := h.compositional
  unfold record
  rw [hR]
  refine hG.bind (h.looks (guard_looks tr)) fun _ => ?_
  exact hG.bind (h.record _ hk) fun _ => hG.ret _

/-- A volume is recorded before and after it is made. -/
theorem prepareBuildVolume_of (e : String × String) : G (prepareBuildVolume S R e) := by
  have hG := h.compositional
  refine hG.bind (record_of h hR (by simp) _ _ _ _) fun _ => ?_
  refine hG.bind (hG.bind (h.looks (getObject_looks R _ _ _)) fun found => ?_) fun volume => ?_
  · split
    · exact hG.ret _
    · exact hG.bind (h.looks (guard_uses_looks R)) fun _ =>
        h.of_aside (uses_request (uses_ask rfl))
  refine hG.bind (h.check _) fun _ => ?_
  refine hG.bind (h.looks (assertTrackedIdentity_looks S R _ _ _)) fun _ => ?_
  exact hG.bind (h.check _) fun token => record_of h hR (by simp) _ _ _ _

/-- So is the network. -/
theorem ensureNetwork_of : G (ensureNetwork S R) := by
  have hG := h.compositional
  refine hG.bind (record_of h hR (by simp) _ _ _ _) fun _ => hG.bind ?_ fun found => ?_
  · refine hG.bind (h.looks (getObject_looks R _ _ _)) fun existing => ?_
    split
    · exact hG.ret _
    · refine hG.bind (h.of_aside (uses_orRefuse ?_)) fun _ => hG.ret _
      exact .bind (looks_aside (guard_uses_looks R)) fun _ => uses_request (uses_ask rfl)
  · exact hG.bind (h.looks (checkReused_looks S R _ _ _)) fun _ =>
      hG.bind (record_of h hR (by simp) _ _ _ _) fun _ => hG.ret _

/-- And each port that is allocated. -/
theorem allocatePorts_of (service : String) (i : Nat) (l : List PublishedPort)
    (occupied : List OccupiedPort) : G (allocatePorts S R service i l occupied) := by
  have hG := h.compositional
  induction l generalizing i occupied with
  | nil => exact hG.ret _
  | cons port l ih =>
      refine hG.bind (h.of_aside (choosePort_aside S R _ _ _ _)) fun chosen => ?_
      exact hG.bind (record_of h hR (by simp) _ _ _ _) fun _ => hG.bind (ih _ _) fun _ => hG.ret _

/-- One service: its image, its ports, and the service itself. -/
theorem deployOne_of (W : Shared) (composeName : String) (definition : Fields)
    (occupied : List OccupiedPort) : G (deployOne S R W composeName definition occupied) := by
  have hG := h.compositional
  refine hG.bind (h.check _) fun _ => hG.bind (h.check _) fun image => ?_
  refine hG.bind (record_of h hR (by simp) _ _ _ _) fun _ => ?_
  refine hG.bind (record_of h hR (by simp) _ _ _ _) fun _ => ?_
  refine hG.bind (h.check _) fun requested => ?_
  refine hG.bind (allocatePorts_of h S hR _ _ _ _) fun allocated => ?_
  refine hG.bind (h.check _) fun a => ?_
  refine hG.bind (h.looks (workspaceConstraints_looks S R _)) fun constraints => ?_
  refine hG.bind (h.looks (getObject_looks R _ _ _)) fun existing => ?_
  refine hG.bind (h.looks (checkExisting_looks S R W _ _ _ _)) fun _ => ?_
  refine hG.bind (h.looks (guard_uses_looks R)) fun _ => ?_
  refine hG.bind (h.of_aside (applyService_aside S R _ _ _ _)) fun id => ?_
  exact hG.bind (record_of h hR (by simp) _ _ _ _) fun _ => hG.ret _

/-- One service after another. -/
theorem rolloutServices_of (W : Shared) (l : List String) (progress : Progress) :
    G (rolloutServices S R W progress l) := by
  have hG := h.compositional
  induction l generalizing progress with
  | nil => exact hG.ret _
  | cons name l ih =>
      refine hG.bind ?_ fun outcome => ?_
      · refine hG.bind (hG.attempt (deployOne_of h S hR _ _ _ _)) fun result => ?_
        split
        · exact hG.ret _
        · refine hG.bind (hG.attempt (hG.bind (h.looks (waitForServiceReady_looks S R _))
            fun _ => ?_)) fun _ => hG.ret _
          split
          · exact hG.bind (h.looks (uses_request (uses_ask rfl))) fun image =>
              record_of h hR (by simp) _ _ _ _
          · exact hG.ret _
      · split
        · exact ih _
        · exact hG.ret _

/-- A rollout, and what takes it back if it fails. -/
theorem rollout_of (W : Shared) (network : NetworkHandle) (occupied : List OccupiedPort)
    (order : List String) : G (rollout S R W network occupied order) := by
  have hG := h.compositional
  refine hG.bind (rolloutServices_of h S hR _ _ _) fun outcome => ?_
  refine hG.bind (hG.attempt (hG.bind (h.check _) fun progress => ?_)) fun result => ?_
  · unfold reconcile
    rw [hR]
    exact hG.ret _
  · split
    · exact hG.ret _
    · exact hG.bind (h.of_aside (undo_aside S R _ _)) fun _ => hG.raise _

omit hR in
/-- **Deployment.** -/
theorem deployBuild_of (appid : String) (compose : Document) : G (deployBuild S appid tr compose) := by
  have hG := h.compositional
  refine hG.bind (h.check _) fun p => ?_
  refine hG.bind (h.looks (uses_request (uses_ask rfl))) fun client => ?_
  refine hG.bind_of (Q := fun R => R.tracker = some tr) ?_ ?_ fun R hR => ?_
  · refine hG.bind (h.looks (uses_request (uses_ask rfl))) fun info => ?_
    split
    · exact hG.raise _
    · exact hG.bind (hG.forEach fun e => prepareBuildVolume_of h S rfl e) fun _ => hG.ret _
  · refine .after fun info => ?_
    split
    · trivial
    · exact .after fun _ => rfl
  refine hG.bind (h.looks (occupiedPublishedPorts_looks S R _)) fun occupied => ?_
  refine hG.bind (ensureNetwork_of h S hR) fun network => ?_
  exact hG.bind (rollout_of h S hR _ _ _ _) fun _ => hG.ret _

end DockerSwarmAdapter

end

end Orchestrator
