import Orchestrator.Discipline.Deeds

/-!
# Discipline — footprints

What each function of the services can do, as a list of kinds of deeds, and what it yields.
-/

namespace Orchestrator
open Interleaving

variable (S : Settings)

/-! ### Trackers and manifests -/

section Leases
variable (tr : ResourceTracker)

namespace ResourceTracker

/-- Recording a resource reads the manifest and puts a resource into it. -/
theorem record_uses (r : RecordArgs) :
    (tr.record r).Uses (Doing tr.buildId tr.owner [.quiet, .put]) := by
  refine .call (.of (.quiet rfl)) fun m _ => ?_
  cases m with
  | none => trivial
  | some m =>
      refine .bind (Prog.uses_ofExcept (I := api) _) fun x => ?_
      exact .bind (uses_orRaise (uses_one (.of (.put x)))) fun _ => trivial

/-- Updating a resource puts it, and does nothing else. -/
theorem update_uses (r : BuildResource) (state : ResourceState) (error : Option String) :
    (tr.update r state error).Uses (Doing tr.buildId tr.owner [.put]) :=
  .bind (uses_orRaise (uses_one (.of (.put _)))) fun _ => trivial

/-- A guard is one call. -/
theorem guard_uses : tr.guard.Uses (Doing tr.buildId tr.owner [.guard]) :=
  uses_orRaise (uses_one (.of .guard))

/-- An action of a script records, updates or guards. -/
theorem perform_uses (a : TrackerAction) :
    (tr.perform a).Uses (Doing tr.buildId tr.owner [.quiet, .put, .guard]) := by
  cases a with
  | record r => exact .bind (uses_mono (tr.record_uses r) (by simp)) fun _ => trivial
  | update r state error => exact uses_mono (tr.update_uses r state error) (by simp)
  | guard => exact uses_mono tr.guard_uses (by simp)

/-- A script does what its actions do, however they end. -/
theorem follow_uses {α : Type} (s : Script α) :
    (tr.follow s).Uses (Doing tr.buildId tr.owner [.quiet, .put, .guard]) := by
  induction s with
  | done r => exact Prog.uses_ofExcept (I := api) r
  | act a k ih =>
      rw [follow]
      refine .bind (tr.perform_uses a).attempt fun r => ?_
      cases r with
      | ok _ => exact ih none
      | error e => exact ih (some e)

/-- A request to Docker that tends the build is followed by its script. -/
theorem docker_uses {c : DockerCall} (h : c.Tends tr.buildId) :
    (tr.docker c).Uses (Doing tr.buildId tr.owner [.quiet, .put, .guard]) :=
  .call (.of (.tend h)) fun s _ => tr.follow_uses s

end ResourceTracker

end Leases

/-- Reading the manifest is quiet. -/
theorem currentManifest_uses (b b' : BuildId) (o : Option Uuid) :
    (currentManifest b).Uses (Doing b' o [.quiet]) := by
  refine .call (.of (.quiet rfl)) fun m _ => ?_
  cases m <;> trivial

/-- The manifest that is read is of the build. -/
theorem currentManifest_yields (b : BuildId) : (currentManifest b).Yields (·.buildId = b) := by
  refine .call fun m hm => ?_
  cases m with
  | none => trivial
  | some m => exact hm m rfl

/-- A manifest that is made up for an old build has no lease and no request. -/
theorem legacyManifest_blank (build : BuildJob) (services : List DeploymentService)
    (images : List UserImage) : (legacyManifest S build services images).Blank :=
  ⟨rfl, rfl, rfl, rfl, rfl, ResourceMap.Distinct.foldl (m := []) List.nodup_nil _⟩

/-- Without a manifest, one is made up and saved. -/
theorem manifest_uses (b : BuildId) (o : Option Uuid) :
    (manifest S b).Uses (Doing b o [.quiet, .legacy]) := by
  refine .call (.of (.quiet rfl)) fun build hb => ?_
  cases build with
  | none => trivial
  | some build =>
      refine .call (.of (.quiet rfl)) fun m _ => ?_
      cases m with
      | some m => trivial
      | none =>
          refine .call (.of (.quiet rfl)) fun services _ => ?_
          refine .call (.of (.quiet rfl)) fun images _ => ?_
          exact uses_orRaise (uses_one
            (.of (.legacy (hb _ rfl) rfl (legacyManifest_blank S build services images))))

/-- What is found or made up is of the build. -/
theorem manifest_yields (b : BuildId) : (manifest S b).Yields (·.buildId = b) := by
  refine .call fun build hb => ?_
  cases build with
  | none => trivial
  | some build =>
      refine .call fun m hm => ?_
      cases m with
      | some m => exact hm m rfl
      | none =>
          refine .call fun services _ => .call fun images _ => .call fun r hr => ?_
          cases r with
          | ok m => exact (hr m rfl).trans (hb build rfl)
          | error e => trivial

/-! ### Builds -/

/-- An event is a record, whatever it is about. -/
theorem recordEvent_uses (appid : String) (b : Option BuildId) (kind message : String)
    (level : EventLevel) (b' : BuildId) (o : Option Uuid) :
    (recordEvent appid b kind message level).Uses (Doing b' o [.quiet]) :=
  .call (.of (.quiet rfl)) fun _ _ => uses_one (.of (.quiet rfl))

namespace BuildService
variable (b : BuildId) (o : Option Uuid)

/-- Reading a build is quiet. -/
theorem getBuild_uses : (getBuild b).Uses (Doing b o [.quiet]) := by
  refine .call (.of (.quiet rfl)) fun r _ => ?_
  cases r <;> trivial

/-- The build that is read has the identifier that is asked for. -/
theorem getBuild_yields : (getBuild b).Yields (·.buildId = b) := by
  refine .call fun r hr => ?_
  cases r with
  | none => trivial
  | some j => exact hr j rfl

/-- The deed of a transition. -/
def moveKind (target : BuildStatus) : Kind :=
  if target = .succeeded then .deliver else if target = .failed then .fail else .move

/-- A stage that is entered is the last of a history that stays short. -/
theorem stageHistory_enters (build : BuildJob) (stage : String) :
    (stageHistory build (some stage)).getLast? = some stage ∧
      (stageHistory build (some stage)).length ≤ 32 := by
  have entered (history : List String) (h : history.getLast? = some stage) :
      (history.drop (history.length - 32)).getLast? = some stage ∧
        (history.drop (history.length - 32)).length ≤ 32 := by
    have hne : history ≠ [] := by rintro rfl; cases h
    have hpos : 0 < history.length := List.length_pos_iff.mpr hne
    refine ⟨?_, by rw [List.length_drop]; omega⟩
    rw [List.getLast?_drop, if_neg (by omega), h]
  unfold stageHistory
  apply entered
  dsimp only
  split_ifs with h
  · exact beq_iff_eq.mp h
  · simp

/-- What a transition writes beside its own fields leaves its shape. -/
theorem transitionFields_moving {target : BuildStatus} {f : BuildFields} (h : f.Plain)
    (hs : f.stage = .keep ∨ f.stage = .set (some target.value))
    (he : if target = .failed then ∃ message, f.error = .set (some message)
      else f.error.Untouched) (build : BuildJob) :
    (transitionFields build target f).Moving target := by
  refine ⟨⟨h.1, h.2, h.3, h.4, h.5, h.6, h.7, h.8⟩, ?_, ?_, he⟩
  · rcases hs with e | e <;> simp only [transitionFields, e]
  · refine ⟨_, rfl, ?_⟩
    rcases hs with e | e <;> simp only [e] <;> exact stageHistory_enters build target.value

/-- A transition does one deed, the one of its target. -/
theorem transition_uses {target : BuildStatus} {f : BuildFields}
    (h : ∀ build, (transitionFields build target f).Moving target) :
    (transition b target f).Uses (Doing b o [.quiet, moveKind target]) := by
  refine .bind (uses_mono (getBuild_uses b o) (by simp)) fun build => ?_
  split
  · trivial
  split
  · trivial
  · next hs =>
    rw [not_or, not_not] at hs
    refine .call (.of (.quiet rfl)) fun _ _ => ?_
    have hd : Doing b o [.quiet, moveKind target]
        (.transitionBuild b [build.status] target (transitionFields build target f)) := by
      unfold moveKind
      split_ifs with e e'
      · subst e; exact .of (.deliver hs.2 (h build))
      · subst e'; exact .of (.fail hs.2 (h build))
      · exact .of (.move hs.2 e e' (h build))
    refine .call hd fun r _ => ?_
    cases r with
    | none =>
        refine .bind (uses_mono (getBuild_uses b o) (by simp)) fun current => ?_
        split_ifs <;> trivial
    | some updated =>
        exact .bind (uses_mono (recordEvent_uses _ _ _ _ _ b o) (by simp)) fun _ => trivial

/-- A transition that is neither a delivery nor a failure, of a build at hand. -/
theorem move_uses {b : BuildId} {K : List Kind} {target : BuildStatus} {f : BuildFields}
    {build : BuildJob} (hb : build.buildId = b) (ht : target ≠ .succeeded ∧ target ≠ .failed)
    (hk : [.quiet, .move] ⊆ K) (h : f.Plain) (hs : f.stage = .keep) (he : f.error.Untouched) :
    (transition build.buildId target f).Uses (Doing b o K) := by
  subst hb
  refine uses_mono (transition_uses build.buildId o
    (transitionFields_moving h (.inl hs) (by rw [if_neg ht.2]; exact he))) ?_
  simpa [moveKind, ht] using hk

/-- A transition that does not raise ends in its target. -/
theorem transition_yields (target : BuildStatus) (f : BuildFields) :
    (transition b target f).Yields fun j => j.buildId = b ∧ j.status = target := by
  refine (getBuild_yields b).bind fun build hb => ?_
  split
  · next ht => exact ⟨hb, ht⟩
  split
  · trivial
  · refine .call fun _ _ => .call fun r hr => ?_
    cases r with
    | none =>
        refine (getBuild_yields b).bind fun current hc => ?_
        split_ifs with hs
        · exact ⟨hc, hs⟩
        · trivial
    | some updated => exact .after fun _ => hr updated rfl

/-- The fields of a failure are those of a transition with a message. -/
theorem failFields_moving (message : String) (site : Option String) (build : BuildJob) :
    (transitionFields build .failed (failFields message site)).Moving .failed :=
  transitionFields_moving (by constructor <;> trivial) (.inr rfl)
    (by rw [if_pos rfl]; exact ⟨message, rfl⟩) build

/-- A failure is a transition and, if it is made, an alert. -/
theorem fail_uses (message : String) (site : Option String) :
    (fail b message site).Uses (Doing b o [.quiet, .fail, .alert]) := by
  refine .bind (uses_mono (getBuild_uses b o) (by simp)) fun build => ?_
  split_ifs
  · trivial
  · refine .bind_of (uses_mono (transition_uses b o (failFields_moving message site))
      (by simp [moveKind])) (transition_yields b .failed _) fun failed hf => ?_
    refine .call (.of (.quiet rfl)) fun _ _ => ?_
    refine .call (.of (.alert (congrArg some hf.1))) fun _ _ => ?_
    exact .bind (uses_mono (recordEvent_uses _ _ _ _ _ b o) (by simp)) fun _ => trivial

end BuildService

/-- What is done to `b` in the name of `o`, and failing `b`, have the property `G`. -/
structure Failing (G : {α : Type} → P α → Prop) (b : BuildId) (o : Option Uuid)
    (ks : List Kind) : Prop where
  compositional : Prog.Compositional (I := api) G
  free : ∀ {k op}, k ∈ ks → k ≠ .fail → k ≠ .alert → Deed b o k op → G (call op)
  fail : ∀ message site, G (BuildService.fail b message site)

namespace Failing
variable {G : {α : Type} → P α → Prop} {b : BuildId} {o : Option Uuid} {K L : List Kind}

/-- A footprint of free deeds has the property. -/
theorem of_uses {α : Type} {p : P α} (h : Failing G b o L) (hp : p.Uses (Doing b o K))
    (hk : ∀ k ∈ K, k ∈ L ∧ k ≠ .fail ∧ k ≠ .alert) : G p :=
  h.compositional.of_uses (fun _ ⟨k, hm, hd⟩ => h.free (hk k hm).1 (hk k hm).2.1 (hk k hm).2.2 hd)
    hp

/-- Fewer kinds of deeds ask for less. -/
theorem lesser (h : Failing G b o L) (hk : K ⊆ L) : Failing G b o K :=
  ⟨h.compositional, fun hm => h.free (hk hm), h.fail⟩

/-- A quiet call has the property, where quiet deeds are free. -/
theorem quiet (h : Failing G b o L) {op : Op} (hq : op.quiet = true) (hk : .quiet ∈ L) :
    G (call op) := h.free hk (by simp) (by simp) (.quiet hq)

/-- A call whose failure raises has it if the call has. -/
theorem request (h : Failing G b o L) {α : Type} {p : P (Except Exc α)} (hp : G p) :
    G (orRaise p) := h.compositional.bind hp fun r => h.compositional.ofExcept r

/-- A footprint that allows to fail is such a property. -/
theorem uses (b : BuildId) (o : Option Uuid) (hk : [.quiet, .fail, .alert] ⊆ K) :
    Failing (fun {_} p => p.Uses (Doing b o K)) b o K where
  compositional := Prog.uses_compositional (I := api) _
  free hm _ _ hd := uses_one ⟨_, hm, hd⟩
  fail message site := uses_mono (BuildService.fail_uses b o message site) hk

end Failing

/-! ### Cleanup -/

/-- Asking Jenkins whether a build has ended is quiet. -/
theorem assertJenkinsFinished_uses (build : BuildJob) (b : BuildId) (o : Option Uuid) :
    (assertJenkinsFinished build).Uses (Doing b o [.quiet]) := by
  unfold assertJenkinsFinished
  split
  · refine .bind (uses_orRaise (uses_one (.of (.quiet rfl)))) fun execution => ?_
    split_ifs <;> trivial
  · split
    · trivial
    · refine .bind (uses_orRaise (uses_one (.of (.quiet rfl)))) fun queued => ?_
      split
      · refine .bind (uses_orRaise (uses_one (.of (.quiet rfl)))) fun execution => ?_
        split_ifs <;> trivial
      · split_ifs <;> trivial

/-- So is asking whether a build has come to rest. -/
theorem assertQuiescent_uses (b : BuildId) (o : Option Uuid) :
    (assertQuiescent b).Uses (Doing b o [.quiet]) := by
  refine .call (.of (.quiet rfl)) fun build _ => ?_
  cases build with
  | none => trivial
  | some build =>
      dsimp only
      split
      · trivial
      · refine .call (.of (.quiet rfl)) fun m _ => ?_
        split
        · trivial
        · exact assertJenkinsFinished_uses build b o

/-- A cleanup that cannot be scheduled is taken back. -/
theorem dispatchCleanup_uses (b : BuildId) (o : Option Uuid) (queued : BuildResources) :
    (dispatchCleanup b queued).Uses (Doing b o [.quiet, .undispatch]) := by
  unfold dispatchCleanup
  refine .tryCatch (uses_orRaise (uses_one (.of (.quiet rfl)))) fun _ => ?_
  exact .call (.of (.undispatch _)) fun _ _ => trivial

section
variable (tr : ResourceTracker)

/-- Accepting a request for a cleanup is one write of the manifest. -/
theorem acceptCleanup_uses :
    (acceptCleanup S tr.buildId (some tr)).Uses
      (Doing tr.buildId tr.owner [.quiet, .legacy, .accept]) := by
  refine .bind (uses_mono (manifest_uses S tr.buildId tr.owner) (by simp)) fun current => ?_
  refine .call (.of (.accept current)) fun r _ => ?_
  cases r <;> trivial

/-- A builder image is recorded, with what is known of it. -/
theorem collectBuilderImage_uses (expected : String) (b : BuildId) (target : Option String)
    (item : BuilderImage) : (collectBuilderImage expected b target tr item).Uses
      (Doing tr.buildId tr.owner [.quiet, .put]) := by
  unfold collectBuilderImage
  dsimp only
  have record (r : RecordArgs) := uses_mono (tr.record_uses r) (L := [.quiet, .put]) (by simp)
  split
  · trivial
  · refine .bind (uses_mono (currentManifest_uses b _ _) (by simp)) fun current => ?_
    split
    on_goal 1 => refine .bind (record _) fun _ => ?_
    all_goals
      split
      · trivial
      split
      · split
        · trivial
        split
        · trivial
        · exact .bind (record _) fun _ => trivial
      · trivial

/-- What the report of the builder names is recorded. -/
theorem collectBuilderResources_uses (m : BuildResources) :
    (collectBuilderResources S m tr).Uses (Doing tr.buildId tr.owner [.quiet, .put]) := by
  refine .call (.of (.quiet rfl)) fun build _ => ?_
  cases build with
  | none => trivial
  | some build =>
      dsimp only
      split
      · trivial
      refine .bind ?_ fun number => ?_
      · split
        · trivial
        · exact .bind (uses_orRaise (uses_one (.of (.quiet rfl)))) fun _ => trivial
      cases number with
      | none => trivial
      | some number =>
          refine .bind (uses_orRaise (uses_one (.of (.quiet rfl)))) fun report => ?_
          refine .bind (Prog.uses_ofExcept (I := api) _) fun images => ?_
          exact .forEach fun item => collectBuilderImage_uses tr _ _ _ item

/-- If the report cannot be had, that is recorded in its place. -/
theorem collectPhase_uses (m : BuildResources) (st : Cleanup) :
    (collectPhase S m tr st).Uses (Doing tr.buildId tr.owner [.quiet, .put]) := by
  refine .bind (collectBuilderResources_uses S tr m).attempt fun r => ?_
  cases r with
  | error e => exact .bind (tr.record_uses _) fun _ => trivial
  | ok _ =>
      refine .bind (uses_mono (currentManifest_uses _ _ _) (by simp)) fun prior => ?_
      refine .bind (.forEach fun r => ?_) fun _ => trivial
      exact uses_mono (tr.update_uses r _ _) (by simp)

/-- What Docker has of the build is recorded. -/
theorem discover_uses : (discover tr.buildId tr).Uses
    (Doing tr.buildId tr.owner [.quiet, .put, .guard]) :=
  .bind_of (uses_mono (currentManifest_uses _ _ _) (by simp)) (currentManifest_yields _)
    fun _ hm => tr.docker_uses hm

/-- A failed discovery is noted, and leaves the manifest. -/
theorem discoverPhase_uses {m : BuildResources} (hm : m.buildId = tr.buildId) (st : Cleanup) :
    (discoverPhase m tr st).Uses (Doing tr.buildId tr.owner [.quiet, .put, .guard]) := by
  unfold discoverPhase
  rw [hm]
  split
  · trivial
  · refine .bind (uses_orRaise (uses_one (.of (.quiet rfl)))).attempt fun r => ?_
    cases r with
    | error e => trivial
    | ok _ =>
        refine .bind (discover_uses tr).attempt fun r => ?_
        cases r <;> trivial

/-- Waiting for containers to stop records what is there. -/
theorem stopContainers_uses {m : BuildResources} (hm : m.buildId = tr.buildId) (st : Cleanup) :
    (stopContainers m tr st).Uses (Doing tr.buildId tr.owner [.quiet, .put, .guard]) := by
  unfold stopContainers
  rw [hm]
  refine .bind (Prog.Uses.attempt ?_) fun r => ?_
  · refine .bind (uses_mono tr.guard_uses (by simp)) fun _ => ?_
    exact .bind (discover_uses tr) fun _ => tr.docker_uses hm
  · cases r <;> trivial

/-- The removal of one resource does nothing but guard, look and ask for it. -/
theorem removal_uses {m : BuildResources} (hm : m.buildId = tr.buildId) (st : Cleanup)
    (r : BuildResource) :
    (removal S m tr st r).Uses (Doing tr.buildId tr.owner [.quiet, .put, .guard]) := by
  refine .bind (uses_mono (currentManifest_uses _ _ _) (by simp)) fun latest => ?_
  dsimp only
  split
  · trivial
  · have directory : Prog.Uses (I := api) (Doing tr.buildId tr.owner [.quiet, .put, .guard]) (do
        tr.guard
        orRaise (call (.deleteBuildSnapshot m.appid m.buildId r.name))
        return (r, ([] : List String))) := by
      refine .bind (uses_mono tr.guard_uses (by simp)) fun _ => ?_
      exact .bind (uses_orRaise (uses_one (.of (.quiet rfl)))) fun _ => trivial
    split
    · split
      · trivial
      split
      · exact .bind (tr.docker_uses hm) fun _ => directory
      · exact directory
    · split
      · trivial
      split
      · exact .bind (tr.docker_uses hm) fun _ => directory
      · exact directory
    · exact .bind (tr.docker_uses hm) fun _ => trivial
    · split
      · exact .bind (tr.docker_uses hm) fun _ => trivial
      · trivial

/-- After each removal, the resource is put as it now is. -/
theorem removeResource_uses {m : BuildResources} (hm : m.buildId = tr.buildId) (st : Cleanup)
    (r : BuildResource) : (removeResource S m tr st r).Uses
      (Doing tr.buildId tr.owner [.quiet, .put, .guard]) := by
  have update (r : BuildResource) (s : ResourceState) (e : Option String) :=
    uses_mono (tr.update_uses r s e) (L := [.quiet, .put, .guard]) (by simp)
  refine .bind (uses_mono tr.guard_uses (by simp)) fun _ => ?_
  split
  · exact .bind (update _ _ _) fun _ => trivial
  · refine .bind (removal_uses S tr hm st r).attempt fun x => ?_
    cases x with
    | error e => exact .bind (update _ _ _) fun _ => trivial
    | ok x =>
        refine .bind (update _ _ _).attempt fun y => ?_
        cases y with
        | error e => exact .bind (update _ _ _) fun _ => trivial
        | ok _ => trivial

/-- The resources of a kind are removed one by one. -/
theorem removeKind_uses {m : BuildResources} (hm : m.buildId = tr.buildId) (st : Cleanup)
    (kind : ResourceKind) : (removeKind S m tr st kind).Uses
      (Doing tr.buildId tr.owner [.quiet, .put, .guard]) := by
  refine .bind ?_ fun st => ?_
  · split
    · exact stopContainers_uses tr hm st
    · trivial
  · refine .bind (uses_mono (currentManifest_uses _ _ _) (by simp)) fun current => ?_
    exact .foldEach (fun st r => removeResource_uses S tr hm st r) _ _

/-- Verifying records what is left. -/
theorem verifyPhase_uses {m : BuildResources} (hm : m.buildId = tr.buildId) (st : Cleanup) :
    (verifyPhase m tr st).Uses (Doing tr.buildId tr.owner [.quiet, .put, .guard]) := by
  unfold verifyPhase
  rw [hm]
  split
  · trivial
  · refine .bind (Prog.Uses.attempt ?_) fun r => ?_
    · refine .bind (discover_uses tr) fun _ => ?_
      refine .bind_of (uses_mono (currentManifest_uses _ _ _) (by simp)) (currentManifest_yields _)
        fun current hc => ?_
      exact tr.docker_uses hc
    · cases r <;> trivial

/-- A cleanup ends in success or in part. -/
theorem concludedFields_concluding (current : BuildResources) (st : Cleanup) :
    (concludedFields current st).Concluding := by
  refine ⟨?_, trivial, trivial, trivial, trivial, trivial, trivial, trivial, trivial⟩
  simp only [concludedFields, finalStatus]
  split_ifs <;> simp

/-- A service is saved as cleaned under the lease. -/
theorem markCleaned_uses (current : BuildResources) (s : DeploymentService) :
    (markCleaned tr.buildId current tr s).Uses
      (Doing tr.buildId tr.owner [.guard, .cleaned]) := by
  unfold markCleaned
  dsimp only
  split
  · next h =>
      refine .bind (uses_mono tr.guard_uses (by simp)) fun _ => ?_
      exact uses_one (.of (.cleaned h.1))
  · trivial

/-- After the final write, the services are marked. -/
theorem concludePhase_uses {m : BuildResources} (st : Cleanup) (hm : m.buildId = tr.buildId) :
    (concludePhase m tr st).Uses
      (Doing tr.buildId tr.owner [.quiet, .guard, .conclude, .cleaned]) := by
  refine .bind (uses_mono (currentManifest_uses _ _ _) (by simp)) fun current => ?_
  refine .bind (uses_mono tr.guard_uses (by simp)) fun _ => ?_
  rw [hm]
  refine .call (.of (.conclude (concludedFields_concluding current st))) fun r _ => ?_
  cases r with
  | none => trivial
  | some _ =>
      refine .call (.of (.quiet rfl)) fun services _ => .forEach fun s => ?_
      exact uses_mono (markCleaned_uses tr current s) (by simp)

/-- The kinds of deeds of a runner that owns its lease, up to its switch to `RUNNING`. -/
abbrev removalKinds : List Kind := [.quiet, .put, .guard, .conclude, .cleaned]

/-- All phases before the final write put resources, and do nothing else to the manifest. -/
theorem sweep_uses {m : BuildResources} (hm : m.buildId = tr.buildId) :
    (sweep S m tr).Uses (Doing tr.buildId tr.owner [.quiet, .put, .guard]) := by
  refine .bind (uses_mono (collectPhase_uses S tr m _) (by simp)) fun st => ?_
  refine .bind (discoverPhase_uses tr hm st) fun st => ?_
  refine .bind (.foldEach (fun st kind => removeKind_uses S tr hm st kind) _ _) fun st => ?_
  exact verifyPhase_uses tr hm st

/-- The phases, with the final write. -/
theorem removePhases_uses {m : BuildResources} (hm : m.buildId = tr.buildId) :
    (removePhases S m tr).Uses (Doing tr.buildId tr.owner removalKinds) :=
  .bind (uses_mono (sweep_uses S tr hm) (by simp)) fun st =>
    uses_mono (concludePhase_uses tr st hm) (by simp)

/-- Under its lease, a cleanup starts to run, and then gives up or goes through its phases. -/
theorem cleanupUnderLease_uses {m : BuildResources} (hm : m.buildId = tr.buildId) :
    (cleanupUnderLease S tr.buildId m (some tr)).Uses
      (Doing tr.buildId tr.owner (.running :: removalKinds)) := by
  refine .call (.of .running) fun _ _ => ?_
  refine .bind (uses_mono (assertQuiescent_uses _ _) (by simp)).attempt fun r => ?_
  cases r with
  | error e => exact .call (.of (.abandon e)) fun _ _ => trivial
  | ok _ => exact uses_mono (removePhases_uses S tr hm) (by simp)

end

section
variable {G : {α : Type} → P α → Prop} (hG : Prog.Compositional (I := api) G)
include hG

/-- A request for a cleanup has a property of its parts. -/
theorem requestCleanup_of {b : BuildId}
    (free : ∀ op, Does [.quiet, .legacy, .undispatch] op → G (call op))
    (accept : G ((assertQuiescent b).bind fun _ =>
      buildLease b [.notStarted, .partialFailed] (acceptCleanup S b)))
    (dispatch : Bool) : G (requestCleanup S b dispatch) := by
  have manifest : G (manifest S b) := of_doing hG free (manifest_uses S b none) (by simp)
  have rest {β : Type} {k : (BuildResources × Nat) ⊕ BuildResources → P β} (hk : ∀ r, G (k r)) :
      G ((assertQuiescent b).bind fun _ =>
        (buildLease b [.notStarted, .partialFailed] (acceptCleanup S b)).bind k) := by
    rw [← Prog.bind_assoc]
    exact hG.bind accept hk
  refine hG.bind manifest fun m => ?_
  dsimp only
  split
  · exact hG.ret _
  · exact hG.ret _
  · exact hG.ret _
  all_goals
    refine rest fun r => ?_
    cases r with
    | inl answer => exact hG.ret answer
    | inr queued =>
        dsimp only
        split
        · refine hG.bind (of_doing hG free (dispatchCleanup_uses b none queued) (by simp))
            fun _ => ?_
          exact hG.bind manifest fun _ => hG.ret _
        · exact hG.bind manifest fun _ => hG.ret _

/-- The run of a cleanup has it if the run under the lease has. -/
theorem runCleanup_of {b : BuildId}
    (free : ∀ op, Does [.quiet, .legacy] op → G (call op))
    (run : ∀ m, m.buildId = b → G (buildLease b [.queued, .running] (cleanupUnderLease S b m))) :
    G (runCleanup S b) := by
  refine hG.bind_of (of_doing hG free (manifest_uses S b none) (by simp)) (manifest_yields S b)
    fun m hm => ?_
  split
  · exact run m hm
  · exact hG.ret ()

end

/-- A request takes a lease of a build that is not being cleaned up. -/
theorem requestCleanup_does (b : BuildId) (dispatch : Bool) :
    (requestCleanup S b dispatch).Uses (Does [.quiet, .legacy, .claim [.notStarted, .partialFailed],
      .release, .accept, .undispatch]) := by
  refine requestCleanup_of S (Prog.uses_compositional (I := api) _)
    (fun op h => uses_one (h.mono (by simp))) (.bind ?_ fun _ => ?_) dispatch
  · exact uses_does_mono (uses_does (assertQuiescent_uses b none)) (by simp)
  refine buildLease_does (by simp) ?_ fun u => ?_
  · refine .bind (uses_does_mono (uses_does (manifest_uses S b none)) (by simp)) fun current => ?_
    cases current.cleanupStatus <;> trivial
  · exact uses_does_mono (uses_does (acceptCleanup_uses S ⟨b, some u⟩)) (by simp)

/-- A run takes a lease of a build whose cleanup is asked for. -/
theorem runCleanup_does (b : BuildId) :
    (runCleanup S b).Uses (Does (.legacy :: .claim [.queued, .running] :: .release :: .running ::
      removalKinds)) := by
  refine runCleanup_of S (Prog.uses_compositional (I := api) _)
    (fun op h => uses_one (h.mono (by simp))) fun m hm => ?_
  refine buildLease_does (by simp) (.bind ?_ fun _ => trivial) fun u => ?_
  · exact uses_does_mono (uses_does (manifest_uses S b none)) (by simp)
  · exact uses_does_mono (uses_does (cleanupUnderLease_uses S ⟨b, some u⟩ hm)) (by simp)

/-- Recovery only schedules. -/
theorem recoverCleanups_uses (b : BuildId) (o : Option Uuid) :
    recoverCleanups.Uses (Doing b o [.quiet]) := by
  refine .call (.of (.quiet rfl)) fun manifests _ => .forEach fun m => ?_
  refine .call (.of (.quiet rfl)) fun now _ => ?_
  split
  · trivial
  · exact uses_orRaise (uses_one (.of (.quiet rfl)))

/-! ### Route checks -/

section RouteChecks
variable (b : BuildId) (o : Option Uuid)

/-- Reading a role is quiet. -/
theorem AgentRoleService.get_uses (key : RoleKey) :
    (AgentRoleService.get key).Uses (Doing b o [.quiet]) := by
  refine .call (.of (.quiet rfl)) fun r _ => ?_
  cases r <;> trivial

theorem AgentRoleService.updateLoop_uses (key : RoleKey) (u : AgentRoleUpdate) :
    ∀ n, (AgentRoleService.updateLoop key u n).Uses (Doing b o [.quiet, .role])
  | 0 => trivial
  | n + 1 => by
      refine .bind (uses_mono (AgentRoleService.get_uses b o key) (by simp)) fun current => ?_
      refine .call (.of (.role ..)) fun r _ => ?_
      cases r with
      | some saved => trivial
      | none => exact updateLoop_uses key u n

/-- An update of a role tries ten times to write it. -/
theorem AgentRoleService.update_uses (key : RoleKey) (u : AgentRoleUpdate) :
    (AgentRoleService.update S key u).Uses (Doing b o [.quiet, .role]) := by
  unfold AgentRoleService.update
  split
  · exact AgentRoleService.updateLoop_uses b o key u 10
  · exact .bind (Prog.uses_ofExcept _) fun _ => AgentRoleService.updateLoop_uses b o key u 10

/-- At the start, both roles are saved. -/
theorem AgentRoleService.init_uses : AgentRoleService.init.Uses (Doing b o [.role]) :=
  .call (.of (.role ..)) fun _ _ => .call (.of (.role ..)) fun _ _ => trivial

namespace RouteCheckService

/-- Reading a row is quiet. -/
theorem check_uses (c : CheckId) : (check c).Uses (Doing b o [.quiet]) := by
  refine .call (.of (.quiet rfl)) fun r _ => ?_
  cases r <;> trivial

/-- So is asking for a commit. -/
theorem resolveCommit_uses (app : UserAppRecord) (gitRef : Option String) :
    (resolveCommit S app gitRef).Uses (Doing b o [.quiet]) := by
  unfold resolveCommit
  split
  · trivial
  split
  · trivial
  · refine .bind (uses_orRaise (uses_one (.of (.quiet rfl)))) fun sha => ?_
    split
    · trivial
    split <;> trivial

/-- A row that is made has no result yet. -/
theorem candidate_new (c : CheckId) (app : UserAppRecord) (commit route : String)
    (static dynamic : AgentRole) : (candidate c app commit route static dynamic).New :=
  ⟨rfl, rfl, rfl, rfl, rfl, rfl, rfl⟩

/-- A row is reset as a new one of the next generation. -/
theorem resetLoop_uses {row : RouteCheckResult} (h : row.New) :
    ∀ n result, (resetLoop row n result).Uses (Doing b o [.quiet, .resetRow])
  | 0, _ => trivial
  | n + 1, result => by
      refine .call (.of (.resetRow _ h _)) fun r _ => ?_
      cases r with
      | some updated => trivial
      | none =>
          refine .bind (uses_mono (check_uses b o _) (by simp)) fun result => ?_
          exact resetLoop_uses h n result

/-- The static check is scheduled, or its row fails. -/
theorem dispatchStatic_uses (result : RouteCheckResult) :
    (dispatchStatic result).Uses (Doing b o [.quiet, .row]) := by
  refine .bind (uses_orRaise (uses_one (.of (.quiet rfl)))).attempt fun r => ?_
  cases r with
  | error e =>
      refine .call (.of (.row ?_ _)) fun _ _ => trivial
      constructor <;> trivial
  | ok taskId =>
      refine .call (.of (.row ?_ _)) fun r _ => ?_
      · constructor <;> trivial
      cases r with
      | some updated => trivial
      | none => exact uses_mono (check_uses b o _) (by simp)

/-- A row is found, made or reset, and its check is scheduled. -/
theorem createOrReuse_uses (app : UserAppRecord) (commit : String) (force : Bool) :
    (createOrReuse app commit force).Uses
      (Doing b o [.quiet, .row, .ensureRow, .resetRow]) := by
  have dispatch (result : RouteCheckResult) := uses_mono (dispatchStatic_uses b o result)
    (L := [.quiet, .row, .ensureRow, .resetRow]) (by simp)
  have role (key : RoleKey) := uses_mono (AgentRoleService.get_uses b o key)
    (L := [.quiet, .row, .ensureRow, .resetRow]) (by simp)
  unfold createOrReuse
  split
  · trivial
  · refine .bind (role _) fun static => .bind (role _) fun dynamic => ?_
    refine .call (.of (.quiet rfl)) fun c _ => ?_
    have hnew := candidate_new c app commit (app.requireRoute.getD "") static dynamic
    refine .call (.of (.ensureRow hnew)) fun r _ => ?_
    obtain ⟨result, created⟩ := r
    dsimp only
    split
    · exact dispatch result
    split
    · exact .bind (uses_mono (resetLoop_uses b o hnew 10 result) (by simp)) dispatch
    · trivial

/-- One row is deleted. -/
theorem deleteLatest_uses (appId commitId : String) :
    (deleteLatest appId commitId).Uses (Doing b o [.quiet, .deleteRow]) := by
  refine .call (.of (.quiet rfl)) fun app _ => ?_
  cases app with
  | none => trivial
  | some app =>
      dsimp only
      split
      · trivial
      · refine .bind (uses_mono (AgentRoleService.get_uses b o _) (by simp)) fun role => ?_
        exact uses_one (.of (.deleteRow ..))

/-- The gate of a commit reads only. -/
theorem requireStaticPass_uses (app : UserAppRecord) (commitId : String)
    (generation : Option Nat) :
    (requireStaticPass app commitId generation).Uses (Doing b o [.quiet]) := by
  unfold requireStaticPass
  split
  · trivial
  · refine .bind (AgentRoleService.get_uses b o _) fun role => ?_
    refine .call (.of (.quiet rfl)) fun r _ => ?_
    cases r with
    | none => trivial
    | some result => dsimp only; split <;> trivial

/-- So does the gate of a build. -/
theorem verifyBuildGate_uses (build : BuildJob) (app : UserAppRecord) :
    (verifyBuildGate build app).Uses (Doing b o [.quiet]) := by
  unfold verifyBuildGate
  split
  · trivial
  · refine .bind (requireStaticPass_uses b o _ _ _) fun row => ?_
    split <;> trivial

theorem guard_uses (row : RouteCheckResult) (token : Uuid) :
    (RouteCheckService.guard row token).Uses (Doing b o [.quiet]) := by
  refine .bind (check_uses b o _) fun current => ?_
  split <;> trivial

/-- A run takes a row that is queued or running. -/
theorem lease_uses (row : RouteCheckResult) :
    (lease S row).Uses (Doing b o [.quiet, .takeRow]) := by
  refine .call (.of (.quiet rfl)) fun now _ => ?_
  split
  · trivial
  · next hs =>
    split
    · trivial
    · refine .call (.of (.quiet rfl)) fun token _ => .call (.of (.quiet rfl)) fun now _ => ?_
      have hs : row.staticStatus = .queued ∨ row.staticStatus = .running := by
        by_contra h
        exact hs (not_or.mp h)
      refine .call (.of (.takeRow row.checkId token _ hs ..)) fun r _ => ?_
      cases r <;> trivial

/-- A run of the static check writes nothing itself. -/
theorem runStatic_uses (row : RouteCheckResult) (token : Uuid) :
    (runStatic S row token).Uses (Doing b o [.quiet]) := by
  have guard := guard_uses b o row token
  unfold runStatic
  split
  · trivial
  split
  · trivial
  · refine .bind (uses_orRaise (uses_one (.of (.quiet rfl)))) fun _ => .bind guard fun _ => ?_
    refine .bind (uses_orRaise (uses_one (.of (.quiet rfl)))) fun _ => .bind guard fun _ => ?_
    refine .bind (uses_orRaise (uses_one (.of (.quiet rfl)))) fun _ => ?_
    exact Prog.uses_ofExcept (I := api) _

/-- What is made of an output is a result. -/
theorem resultFields_result {row : RouteCheckResult} {output : StaticOutput} {diff : String}
    {headChanged : Bool} {f : RouteCheckFields}
    (h : resultFields S row output diff headChanged = .ok f) : f.Result := by
  unfold resultFields at h
  split at h
  · dsimp only at h
    generalize (if diff = "" then _ else [diff]) = diffs at h
    split at h
    · cases h
    split at h
    · split at h
      · cases h
      · cases h; exact ⟨by constructor <;> trivial, .inl ⟨rfl, rfl⟩⟩
    · cases h; exact ⟨by constructor <;> trivial, .inr ⟨rfl, rfl⟩⟩
  all_goals cases h

/-- What a run ends with is a result. -/
theorem runStatic_yields (row : RouteCheckResult) (token : Uuid) :
    (runStatic S row token).Yields RouteCheckFields.Result := by
  unfold runStatic
  split
  · trivial
  split
  · trivial
  · refine .after fun _ => .after fun _ => .after fun output => .after fun _ => .after fun x => ?_
    exact Prog.yields_ofExcept fun f hf => resultFields_result S hf

/-- A result is saved with one write. -/
theorem saveResult_uses (row : RouteCheckResult) (token : Uuid) {f : RouteCheckFields}
    (h : f.Result) : (saveResult row token f).Uses (Doing b o [.resultRow]) := by
  have hr : RouteCheckFields.Result
      { f with staticRunToken := .set none, staticLeaseExpiresAt := .set none } :=
    ⟨⟨h.generation, h.dynamicBuildId, h.dynamicRunId, h.dynamicStatus, h.dynamicCheckPassed,
      h.dynamicReportText, h.probeResult⟩, h.result⟩
  exact .call (.of (.resultRow _ hr _ _)) fun _ _ => trivial

/-- An execution takes its row and saves a result, a failure too. -/
theorem executeStatic_uses (c : CheckId) (generation : Option Nat) :
    (executeStatic S c generation).Uses (Doing b o [.quiet, .takeRow, .resultRow]) := by
  refine .call (.of (.quiet rfl)) fun row _ => ?_
  cases row with
  | none => trivial
  | some row =>
      dsimp only
      split
      · trivial
      · refine .bind (uses_mono (lease_uses S b o row) (by simp)) fun r => ?_
        cases r with
        | none => exact .bind (uses_mono (check_uses b o _) (by simp)) fun _ => trivial
        | some x =>
            obtain ⟨row, token⟩ := x
            refine .bind_of (uses_mono (runStatic_uses S b o row token) (by simp)).attempt
              (runStatic_yields S row token).attempt fun r hr => ?_
            cases r with
            | ok f => exact uses_mono (saveResult_uses b o row token (hr f rfl)) (by simp)
            | error e =>
                dsimp only
                split
                · trivial
                · exact uses_mono (saveResult_uses b o row token
                    ⟨by constructor <;> trivial, .inr ⟨rfl, rfl⟩⟩)
                    (by simp)

/-- Recovery of the checks only schedules. -/
theorem recover_uses : recover.Uses (Doing b o [.quiet]) := by
  refine .call (.of (.quiet rfl)) fun rows _ => .forEach fun row => ?_
  refine .call (.of (.quiet rfl)) fun now _ => ?_
  split
  · trivial
  · exact .bind (uses_orRaise (uses_one (.of (.quiet rfl)))).attempt fun _ => trivial

end RouteCheckService

end RouteChecks

end Orchestrator
