import Orchestrator.Manifests.Tending

/-!
# Manifests — what a cleanup makes of the manifest

Under its lease, a cleanup records what it collects and discovers, and goes through the entries
of a manifest it has read: of each it changes the state, and of the copy it saves the storage
status of an image that is gone.

* `carried_uses`: what a program does beside, as long as it writes no entry.
* `removeResource_carried`, `removeKind_carried`: an entry at hand, and those of a kind.
* `cleanupUnderLease_carried`: the whole cleanup.
-/

namespace Orchestrator
open Interleaving

section
variable {Z : SiteSettings} {b b' : BuildId} {u : Uuid} {ls : List CleanupStatus}
  {L : List BuildResource} {α : Type}

/-- Deeds of the session that write no entry keep what is known. -/
theorem carried_uses {p : P α} {K : List Kind} (hp : p.Uses (Doing b' (some u) K))
    (hk : ∀ k ∈ K, k.steady = true) : Carried Z b (Vigil.Tends b b' u ls L) p :=
  (carried_compositional Z b _).of_uses (fun _ ⟨k, hm, hd⟩ =>
    hd.carried (hk k hm) Vigil.tends_stable fun e _ _ hv => hv.session e) hp

/-- The tracker of the session. -/
abbrev tracker (b' : BuildId) (u : Uuid) : ResourceTracker := ⟨b', some u⟩

theorem guard_carried : Carried Z b (Vigil.Tends b b' u ls L) (tracker b' u).guard :=
  carried_uses (tracker b' u).guard_uses (by simp [Kind.steady, Kind.leased])

theorem manifest_carried (b'' : BuildId) :
    Carried Z b (Vigil.Tends b b' u ls L) (currentManifest b'') :=
  carried_uses (currentManifest_uses b'' b' (some u)) (by simp [Kind.steady, Kind.leased])

theorem record_carried {r : RecordArgs} (hr : r.Digested) :
    Carried Z b (Vigil.Tends b b' u ls []) ((tracker b' u).record r) :=
  record_maintains (carry_direct Z) fun _ => hr

/-- A record without a digest. -/
theorem digested_of_none {r : RecordArgs} (h : r.metadata = none) : r.Digested := by
  intro _ hhas
  rw [h] at hhas
  cases hhas

/-- An operation that writes nothing in the repository. -/
theorem aside_carried {c : DockerCall} (hb : c.build = b')
    (hc : ∀ appid b compose, c ≠ .deployBuild appid b compose)
    (hp : (perform Z.swarm.host (tracker b' u) c).Uses Aside) :
    Carried Z b (Vigil.Tends b b' u ls L) ((tracker b' u).docker c) :=
  docker_carried hb hc (fun _ hv => hv.owner) (maintains_aside Vigil.tends_stable hp)

/-! ### The report of the builder -/

theorem collectBuilderImage_carried (expected : String) (b'' : BuildId) (target : Option String)
    (item : BuilderImage) : Carried Z b (Vigil.Tends b b' u ls [])
      (collectBuilderImage expected b'' target (tracker b' u) item) := by
  have hG := carried_compositional Z b (Vigil.Tends b b' u ls [])
  unfold collectBuilderImage
  dsimp only
  split
  · exact hG.raise _
  refine hG.bind (manifest_carried b'') fun current => ?_
  split
  on_goal 1 => refine hG.bind (record_carried (digested_of_none rfl)) fun _ => ?_
  all_goals
    split
    · exact hG.ret _
    split
    · split
      · exact hG.raise _
      split
      · exact hG.ret _
      · exact hG.bind (record_carried (digested_of_none rfl)) fun _ => hG.ret _
    · exact hG.raise _

theorem collectBuilderResources_carried (S : Settings) (m : BuildResources) :
    Carried Z b (Vigil.Tends b b' u ls []) (collectBuilderResources S m (tracker b' u)) := by
  have hG := carried_compositional Z b (Vigil.Tends b b' u ls [])
  have quiet {op : Op} (h : op.quiet = true) : Carried Z b (Vigil.Tends b b' u ls []) (call op) :=
    carried_uses (K := [.quiet]) (uses_one (.of (.quiet h))) (by simp [Kind.steady, Kind.leased])
  refine hG.bind (quiet rfl) fun build => ?_
  cases build with
  | none => exact hG.raise _
  | some build =>
      dsimp only
      split
      · exact hG.ret _
      refine hG.bind ?_ fun number => ?_
      · split
        · exact hG.ret _
        · exact hG.bind (hG.bind (quiet rfl) hG.ofExcept) fun _ => hG.ret _
      cases number with
      | none => exact hG.ret _
      | some number =>
          refine hG.bind (hG.bind (quiet rfl) hG.ofExcept) fun report => ?_
          refine hG.bind (hG.ofExcept _) fun images => ?_
          exact hG.forEach fun item => collectBuilderImage_carried _ _ _ item

theorem collectPhase_carried (S : Settings) {m : BuildResources} (hm : m.buildId = b')
    (st : Cleanup) :
    Carried Z b (Vigil.Tends b b' u ls []) (collectPhase S m (tracker b' u) st) := by
  have hG := carried_compositional Z b (Vigil.Tends b b' u ls [])
  refine hG.bind (hG.attempt (collectBuilderResources_carried S m)) fun r => ?_
  cases r with
  | error e => exact hG.bind (record_carried (digested_of_none rfl)) fun _ => hG.ret _
  | ok _ =>
      rw [hm]
      refine read_maintains (carry_direct Z) fun prior _ => ?_
      have hG := carried_compositional Z b (Vigil.Tends b b' u ls prior.resources)
      refine hG.bind (hG.forEach_mem fun r hr => ?_) fun _ => hG.ret _
      exact update_maintains (carry_direct Z) (List.mem_of_mem_filter hr) (.refl r) (.refl r) _ _

/-! ### Discovery -/

theorem discover_carried : Carried Z b (Vigil.Tends b b' u ls []) (discover b' (tracker b' u)) := by
  have hG := carried_compositional Z b (Vigil.Tends b b' u ls [])
  refine hG.bind_of (manifest_carried b') (currentManifest_yields b') fun m hm => ?_
  exact docker_carried hm (by simp) (fun _ hv => hv.owner)
    (DockerBuildCleaner.discover_of observing_tends _ m)

theorem discoverPhase_carried {m : BuildResources} (hm : m.buildId = b') (st : Cleanup) :
    Carried Z b (Vigil.Tends b b' u ls []) (discoverPhase m (tracker b' u) st) := by
  have hG := carried_compositional Z b (Vigil.Tends b b' u ls [])
  unfold discoverPhase
  rw [hm]
  split
  · exact hG.ret _
  refine hG.bind (hG.attempt (hG.bind ?_ hG.ofExcept)) fun r => ?_
  · exact carried_uses (K := [.quiet]) (uses_one (.of (.quiet rfl)))
      (by simp [Kind.steady, Kind.leased])
  cases r with
  | error e => exact hG.ret _
  | ok _ =>
      refine hG.bind (hG.attempt discover_carried) fun r => ?_
      cases r with
      | error e => exact hG.ret _
      | ok _ => exact hG.ret _

theorem stopContainers_carried {m : BuildResources} (hm : m.buildId = b') (st : Cleanup) :
    Carried Z b (Vigil.Tends b b' u ls []) (stopContainers m (tracker b' u) st) := by
  have hG := carried_compositional Z b (Vigil.Tends b b' u ls [])
  unfold stopContainers
  rw [hm]
  refine hG.bind (hG.attempt (hG.bind guard_carried fun _ => ?_)) fun r => ?_
  · refine hG.bind discover_carried fun _ => aside_carried hm (by simp) ?_
    exact looks_aside (DockerBuildCleaner.waitContainersStopped_looks _ m _ _)
  · cases r with
    | error e => exact hG.ret _
    | ok _ => exact hG.ret _

/-! ### Removal -/

theorem removal_carried (S : Settings) {m : BuildResources} (hm : m.buildId = b') (st : Cleanup)
    (r : BuildResource) :
    Carried Z b (Vigil.Tends b b' u ls L) (removal S m (tracker b' u) st r) := by
  have hG := carried_compositional Z b (Vigil.Tends b b' u ls L)
  refine hG.bind (manifest_carried _) fun latest => ?_
  dsimp only
  split
  · exact hG.raise _
  have directory : Carried Z b (Vigil.Tends b b' u ls L) (do
      (tracker b' u).guard
      orRaise (call (.deleteBuildSnapshot m.appid m.buildId r.name))
      return (r, ([] : List String))) := by
    refine hG.bind guard_carried fun _ => hG.bind (hG.bind ?_ hG.ofExcept) fun _ => hG.ret _
    exact carried_uses (K := [.quiet]) (uses_one (.of (.quiet rfl)))
      (by simp [Kind.steady, Kind.leased])
  have unused : Carried Z b (Vigil.Tends b b' u ls L)
      ((tracker b' u).docker (.assertDirectoryUnused m.appid m.buildId)) :=
    aside_carried hm (by simp) (looks_aside (DockerBuildCleaner.assertDirectoryUnused_looks _ _ _))
  split
  · split
    · exact hG.raise _
    split
    · exact hG.bind unused fun _ => directory
    · exact directory
  · split
    · exact hG.raise _
    split
    · exact hG.bind unused fun _ => directory
    · exact directory
  · refine hG.bind (aside_carried hm (by simp) ?_) fun storage => hG.ret _
    exact (HarborImageCleaner.removeBuildTag_removes _ _ _ _ _ _).mono fun _ h => h.aside
  · split
    · refine hG.bind (aside_carried hm (by simp) ?_) fun _ => hG.ret _
      exact (DockerBuildCleaner.remove_removes _ m _ r).mono fun _ h => h.aside
    · exact hG.raise _

/-- The copy that is saved has the identities of the entry. -/
theorem removal_yields (S : Settings) (m : BuildResources) (tr : ResourceTracker) (st : Cleanup)
    (r : BuildResource) :
    (removal S m tr st r).Yields fun x => x.1.Retains r ∧ r.Retains x.1 := by
  have self : r.Retains r ∧ r.Retains r := ⟨.refl r, .refl r⟩
  refine .after fun latest => ?_
  dsimp only
  split
  · trivial
  split
  · split
    · trivial
    split
    · exact .after fun _ => .after fun _ => .after fun _ => self
    · exact .after fun _ => .after fun _ => self
  · split
    · trivial
    split
    · exact .after fun _ => .after fun _ => .after fun _ => self
    · exact .after fun _ => .after fun _ => self
  · refine .after fun storage => ?_
    have hget {k : MetaKey} (hk : k ≠ .registryStorageStatus) :
        (r.metadata.merge [(.registryStorageStatus, some storage)]).get k = r.metadata.get k := by
      rw [Metadata.get_merge, if_neg]
      simpa [Metadata.has] using Ne.symm hk
    exact ⟨⟨rfl, fun _ => rfl, fun _ _ => hget (by simp), fun _ _ => hget (by simp)⟩,
      ⟨rfl, fun _ => rfl, fun _ _ => (hget (by simp)).symm, fun _ _ => (hget (by simp)).symm⟩⟩
  · split
    · exact .after fun _ => self
    · trivial

/-- **One entry.**  Of an entry at hand, the state changes, and what does not identify it. -/
theorem removeResource_carried (S : Settings) {m : BuildResources} (hm : m.buildId = b')
    (st : Cleanup) {r : BuildResource} (hr : r ∈ L) :
    Carried Z b (Vigil.Tends b b' u ls L) (removeResource S m (tracker b' u) st r) := by
  have hG := carried_compositional Z b (Vigil.Tends b b' u ls L)
  have update {x : BuildResource} (hx : x.Retains r ∧ r.Retains x) (s : ResourceState)
      (e : Option String) : Carried Z b (Vigil.Tends b b' u ls L) ((tracker b' u).update x s e) :=
    update_maintains (carry_direct Z) hr hx.1 hx.2 s e
  have self : r.Retains r ∧ r.Retains r := ⟨.refl r, .refl r⟩
  refine hG.bind guard_carried fun _ => ?_
  split
  · exact hG.bind (update self _ _) fun _ => hG.ret _
  refine hG.bind_of (hG.attempt (removal_carried S hm st r))
    (removal_yields S m _ st r).attempt fun x hx => ?_
  cases x with
  | error e => exact hG.bind (update self _ _) fun _ => hG.ret _
  | ok x =>
      have hx := hx x rfl
      refine hG.bind (hG.attempt (update hx _ _)) fun y => ?_
      cases y with
      | error e => exact hG.bind (update hx _ _) fun _ => hG.ret _
      | ok _ => exact hG.ret _

/-- **The entries of a kind**, of a manifest that is read first. -/
theorem removeKind_carried (S : Settings) {m : BuildResources} (hm : m.buildId = b')
    (st : Cleanup) (kind : ResourceKind) :
    Carried Z b (Vigil.Tends b b' u ls []) (removeKind S m (tracker b' u) st kind) := by
  have hG := carried_compositional Z b (Vigil.Tends b b' u ls [])
  refine hG.bind ?_ fun st => ?_
  · split
    · exact stopContainers_carried hm st
    · exact hG.ret _
  rw [hm]
  refine read_maintains (carry_direct Z) fun current _ => ?_
  have hL := carried_compositional Z b (Vigil.Tends b b' u ls current.resources)
  exact hL.foldEach_mem (fun st r hr =>
    removeResource_carried S hm st (List.mem_of_mem_filter hr)) st

/-! ### Verification -/

/-- Of an entry at hand that turns out to be there still, the state changes. -/
theorem verifyResource_maintains (S : HostSettings) {r : BuildResource} (hr : r ∈ L) :
    (DockerBuildCleaner.verifyResource S (tracker b' u) r).Maintains (knowing b)
      (Vigil.Tends b b' u ls L) := by
  have hG := Prog.maintains_compositional (knowing b) (Vigil.Tends b b' u ls L)
  have looks {β : Type} {p : D β} (h : p.Uses Looks) :
      p.Maintains (knowing b) (Vigil.Tends b b' u ls L) :=
    maintains_aside Vigil.tends_stable (looks_aside h)
  unfold DockerBuildCleaner.verifyResource
  split
  · exact hG.ret _
  split
  · exact hG.ret _
  refine hG.bind (looks (guard_looks _)) fun _ => ?_
  refine hG.bind (looks (DockerBuildCleaner.targetClient_looks S _)) fun client => ?_
  refine hG.tryCatch (looks ?_) fun _ => ?_
  · refine .bind ?_ fun found => ?_
    · split
      · exact DockerBuildCleaner.find?_looks _ _ _
      · exact DockerBuildCleaner.find_looks _ _ _
    · split <;> trivial
  · exact hG.bind (update_maintains onHost_direct hr (.refl r) (.refl r) _ _) fun _ => hG.raise _

theorem verifyEmpty_maintains (S : HostSettings) {m : BuildResources} (hm : m.resources ⊆ L) :
    (DockerBuildCleaner.verifyEmpty S m (tracker b' u)).Maintains (knowing b)
      (Vigil.Tends b b' u ls L) := by
  have hG := Prog.maintains_compositional (knowing b) (Vigil.Tends b b' u ls L)
  have looks {β : Type} {p : D β} (h : p.Uses Looks) :
      p.Maintains (knowing b) (Vigil.Tends b b' u ls L) :=
    maintains_aside Vigil.tends_stable (looks_aside h)
  refine hG.bind (hG.forEach_mem fun r hr => verifyResource_maintains S (hm hr)) fun _ => looks ?_
  refine .bind (uses_ask rfl) fun self => .bind (.forEach fun client => ?_) fun _ => ?_
  · refine .bind (guard_looks _) fun _ => ?_
    refine .bind (uses_request (uses_ask rfl)) fun containers => ?_
    split
    · trivial
    refine .bind (uses_request (uses_ask rfl)) fun volumes => ?_
    split <;> trivial
  · refine .bind (uses_request (uses_ask rfl)) fun services => ?_
    split
    · trivial
    refine .bind (uses_request (uses_ask rfl)) fun networks => ?_
    split <;> trivial

theorem verifyPhase_carried {m : BuildResources} (hm : m.buildId = b') (st : Cleanup) :
    Carried Z b (Vigil.Tends b b' u ls []) (verifyPhase m (tracker b' u) st) := by
  have hG := carried_compositional Z b (Vigil.Tends b b' u ls [])
  unfold verifyPhase
  rw [hm]
  split
  · exact hG.ret _
  refine hG.bind (hG.attempt (hG.bind discover_carried fun _ => ?_)) fun r => ?_
  · exact read_maintains (carry_direct Z) fun current hc =>
      docker_carried hc (by simp) (fun _ hv => hv.owner) (verifyEmpty_maintains _ fun _ hr => hr)
  · cases r with
    | error e => exact hG.ret _
    | ok _ => exact hG.ret _

/-! ### The whole cleanup -/

theorem removePhases_carried (S : Settings) {m : BuildResources} (hm : m.buildId = b') :
    Carried Z b (Vigil.Tends b b' u ls []) (removePhases S m (tracker b' u)) := by
  have hG := carried_compositional Z b (Vigil.Tends b b' u ls [])
  refine hG.bind ?_ fun st => ?_
  · refine hG.bind (collectPhase_carried S hm _) fun st => ?_
    refine hG.bind (discoverPhase_carried hm st) fun st => ?_
    refine hG.bind (hG.foldEach_mem (fun st kind _ => removeKind_carried S hm st kind) st)
      fun st => ?_
    exact verifyPhase_carried hm st
  · exact carried_uses (concludePhase_uses (tracker b' u) st hm) (by simp [Kind.steady, Kind.leased])

/-- **A cleanup** maintains what is known under its lease. -/
theorem cleanupUnderLease_carried (S : Settings) {m : BuildResources} (hm : m.buildId = b') :
    Carried Z b (Vigil.Tends b b' u ls []) (cleanupUnderLease S b' m (some (tracker b' u))) := by
  have hG := carried_compositional Z b (Vigil.Tends b b' u ls [])
  have one {k : Kind} {op : Op} (h : Deed b' (some u) k op) (hk : k.steady = true) :
      Carried Z b (Vigil.Tends b b' u ls []) (call op) :=
    h.carried hk Vigil.tends_stable fun e _ _ hv => hv.session e
  refine hG.bind (one .running rfl) fun _ => ?_
  refine hG.bind (hG.attempt (carried_uses (assertQuiescent_uses b' (some u)) (by
    simp [Kind.steady, Kind.leased]))) fun r => ?_
  cases r with
  | error e => exact hG.bind (one (.abandon e) rfl) fun _ => hG.ret _
  | ok _ => exact removePhases_carried S hm

end

end Orchestrator
