import Orchestrator.Manifests.Watch
import Orchestrator.Discipline.Tasking

/-!
# Manifests — tending a manifest

Under a lease, a thread writes the manifest of its build in two ways: it records something, over
the entry it has just read, or it updates an entry it has read before, whose identities it leaves
alone.

* `knowing b`: the contract of the watch; `Carried P`: programs that maintain `P` once their calls
  are carried out.
* `Vigil.Tends`: what is known under a lease, with the entries at hand.
* `record_maintains`, `update_maintains`: the two ways.
* `docker_carried`: an operation on Docker is carried out with the tracker of the session.
-/

namespace Orchestrator
open Interleaving

/-- The contract of the watch on `b`. -/
abbrev knowing (b : BuildId) : Contract hostApi Vigil := (watching b).relying (Vigil.Grants b)

namespace Vigil

/-- More is known about the same session. -/
structure Grows (v v' : Vigil) : Prop where
  lease : v'.session.lease = v.session.lease
  owner : v'.owner = v.owner
  version : v'.version = v.version
  seen : ∀ k, v.seen k ⊆ v'.seen k

theorem Grows.refl (v : Vigil) : v.Grows v := ⟨rfl, rfl, rfl, fun _ _ h => h⟩

/-- A call that claims nothing and saves nothing shows at most more entries. -/
theorem grows_of {b : BuildId} {v : Vigil} {op : Op} {r : op.Ret}
    (hl : (v.session.observe b op r).lease = v.session.lease)
    (hc : ∀ b' o e l, op ≠ .claimBuildLease b' o e l)
    (hp : ∀ b' x o, op ≠ .putBuildResource b' x o) : v.Grows (v.observe b (.repo op) r) := by
  cases op with
  | claimBuildLease b' o e l => exact absurd rfl (hc b' o e l)
  | putBuildResource b' x o => exact absurd rfl (hp b' x o)
  | getBuildResources b' =>
      refine ⟨hl, rfl, rfl, fun k e he => ?_⟩
      cases r with
      | none => exact he
      | some m =>
          simp only [observe, Entries.after]
          split
          · exact Set.mem_insert_of_mem _ he
          · exact he
  | _ => exact ⟨hl, rfl, rfl, fun _ _ h => h⟩

/-- A property that more knowledge keeps. -/
def Stable (P : Vigil → Prop) : Prop := ∀ v v', P v → v.Grows v' → P v'

/-- An entry that retains one that is known. -/
def Known (v : Vigil) (r : BuildResource) : Prop := ∃ e ∈ v.seen r.key, r.Extends e

theorem Known.mono {v v' : Vigil} {r : BuildResource} (h : v.Known r) (hg : v.Grows v') :
    v'.Known r := by
  obtain ⟨e, he, hr⟩ := h
  exact ⟨e, hg.seen _ he, hr⟩

/-- Between its leases. -/
def Idle (v : Vigil) : Prop := v.session.lease = none

theorem idle_stable : Stable Idle := fun _ _ h hg => hg.lease.trans h

/-- Under the lease of `b'` that was granted to `u` on the statuses `ls`, with the entries `L` at
hand; on another build than `b`, only the tracker counts. -/
structure Tends (b b' : BuildId) (u : Uuid) (ls : List CleanupStatus) (L : List BuildResource)
    (v : Vigil) : Prop where
  owner : v.owner = some u
  lease : v.session.lease = if b' = b then some (u, ls) else none
  known : b' = b → ResourceMap.Distinct L ∧ ∀ r ∈ L, v.Known r

variable {b b' : BuildId} {u : Uuid} {ls : List CleanupStatus} {L : List BuildResource}

theorem tends_stable : Stable (Tends b b' u ls L) := fun _ _ h hg =>
  ⟨hg.owner.trans h.owner, hg.lease.trans h.lease, fun e =>
    ⟨(h.known e).1, fun r hr => ((h.known e).2 r hr).mono hg⟩⟩

theorem Tends.nil {v : Vigil} (h : v.Tends b b' u ls L) : v.Tends b b' u ls [] :=
  ⟨h.owner, h.lease, fun _ => ⟨List.nodup_nil, by simp⟩⟩

theorem Tends.session {v : Vigil} (h : v.Tends b b' u ls L) (e : b' = b) :
    v.session.Owner (some u) := ⟨u, ls, by rw [h.lease, if_pos e], rfl⟩

end Vigil

section
variable {b : BuildId} {J : Vigil → Prop}

/-! ### Calls that leave the entries alone -/

theorem Vigil.allows_of {v : Vigil} {op : Op} (hs : v.session.allows b op) (hf : v.Fresh b op) :
    v.allows b (.repo op) := by
  cases op with
  | guard b' o => trivial
  | _ => exact ⟨hs, hf⟩

theorem Aside.grows {op : HostOp} (h : Aside op) (v : Vigil) :
    v.allows b op ∧ ∀ r, v.Grows (v.observe b op r) := by
  cases op with
  | repo op =>
      cases op with
      | guard b' o => exact ⟨trivial, fun r => .refl v⟩
      | getBuildResources b' =>
          exact ⟨⟨trivial, trivial⟩, fun r => Vigil.grows_of rfl (by simp) (by simp)⟩
      | _ => cases h
  | _ => exact ⟨trivial, fun r => .refl v⟩

theorem maintains_aside {α : Type} {p : D α} (hJ : Vigil.Stable J) (hp : p.Uses Aside) :
    p.Maintains (knowing b) J :=
  Prog.Uses.maintains hp (fun _ => trivial) fun v op hv hop => by
    obtain ⟨ha, hg⟩ := hop.grows (b := b) v
    refine ⟨ha, ?_⟩
    rintro r _ - ⟨-, rfl⟩
    exact hJ v _ hv (hg r)

/-- The kinds of deeds that leave leases and entries alone. -/
def Kind.steady : Kind → Bool
  | put | deployBuild => false
  | k => k.leased

theorem Kind.leased_of_steady {k : Kind} (h : k.steady = true) : k.leased = true := by
  cases k <;> first | exact h | cases h

/-- A deed that leaves leases and entries alone is allowed, in the name of the owner of the
session where it is about `b`. -/
theorem Deed.grows {b' : BuildId} {o : Option Uuid} {k : Kind} {op : Op} {v : Vigil}
    (h : Deed b' o k op) (hk : k.steady = true)
    (ho : b' = b → k ∉ unleasedKinds → v.session.Owner o) :
    v.allows b (.repo op) ∧ ∀ r, v.Grows (v.observe b (.repo op) r) := by
  obtain ⟨ha, hlease⟩ := h.session (b := b) (s := v.session) (Kind.leased_of_steady hk) ho
  have hfresh : v.Fresh b op := by
    cases h with
    | quiet hq => cases op <;> trivial
    | pending | accept | running | abandon | undispatch => exact fun _ => ⟨trivial, trivial⟩
    | conclude hf => exact fun _ => ⟨hf.resources, hf.ownershipVersion⟩
    | put | tend | deployBuild => cases hk
    | _ => trivial
  refine ⟨Vigil.allows_of ha hfresh, fun r => Vigil.grows_of (hlease r) ?_ ?_⟩
  · rintro b' o e l rfl
    cases h with
    | quiet hq => cases hq
    | claim => cases hk
  · rintro b' x o rfl
    cases h with
    | quiet hq => cases hq
    | put => cases hk

/-! ### Programs that are carried out -/

theorem carry_total (Z : SiteSettings) (op : Op) : (carry Z op).Total := by
  unfold carry
  split
  · exact fun self => (Prog.total_attempt _).bind fun _ => trivial
  · exact fun self => (Prog.total_attempt _).bind fun _ => trivial
  · exact Prog.total_attempt _
  · exact Prog.total_attempt _
  · exact fun _ => trivial

theorem carry_yields (Z : SiteSettings) (op : Op) : (carry Z op).Yields op.Sane := by
  unfold carry
  split
  · exact .after fun self => .after fun _ => trivial
  · exact .after fun self => .after fun _ => trivial
  · exact (Prog.yields_true _).mono fun _ _ => trivial
  · exact (Prog.yields_true _).mono fun _ _ => trivial
  · exact fun r hr => hr

/-- `p`, carried out, maintains `J`. -/
abbrev Carried (Z : SiteSettings) (b : BuildId) (J : Vigil → Prop) {α : Type} (p : P α) : Prop :=
  (Prog.interpret (I := api) (J := hostApi) id (carry Z) p).Maintains (knowing b) J

variable {Z : SiteSettings}

theorem carried_compositional (Z : SiteSettings) (b : BuildId) (J : Vigil → Prop) :
    Prog.Compositional (I := api) (fun {_} p => Carried Z b J p) :=
  (Prog.maintains_compositional (knowing b) J).interpret (g := id) (fun _ => rfl) (carry_total Z)
    (carry_yields Z)

theorem maintains_ask {op : HostOp} (h : ∀ v, J v → v.allows b op ∧ ∀ r, v.Grants b op r →
    J (v.observe b op r)) : (ask op).Maintains (knowing b) J := by
  intro v hv
  obtain ⟨ha, hr⟩ := h v hv
  refine ⟨ha, ?_⟩
  rintro r _ - ⟨hg, rfl⟩
  exact ⟨trivial, hr r hg⟩

/-- A deed that leaves leases and entries alone, in the name of the owner of the session. -/
theorem Deed.carried {b' : BuildId} {o : Option Uuid} {k : Kind} {op : Op}
    (h : Deed b' o k op) (hk : k.steady = true) (hJ : Vigil.Stable J)
    (ho : b' = b → k ∉ unleasedKinds → ∀ v, J v → v.session.Owner o) :
    Carried Z b J (call op) := by
  have hrepo : (ask (.repo op)).Maintains (knowing b) J := maintains_ask fun v hv => by
    obtain ⟨ha, hg⟩ := h.grows hk fun e hn => ho e hn v hv
    exact ⟨ha, fun r _ => hJ v _ hv (hg r)⟩
  have aside {α : Type} {p : D α} (hp : p.Uses Aside) : (p.attempt.bind .ret).Maintains (knowing b) J :=
    have hG := Prog.maintains_compositional (knowing b) J
    hG.bind (hG.attempt (maintains_aside hJ hp)) hG.ret
  cases op with
  | openDocker => exact aside (looks_aside (DockerBuildCleaner.init_looks _))
  | deleteBuildSnapshot appid b name =>
      exact aside ((WorkspaceStore.deleteBuildSnapshot_removes _ _ _ _).mono fun _ h => h.aside)
  | docker c =>
      cases h with
      | quiet hq => cases hq
      | tend | deployBuild => cases hk
  | _ => exact hrepo

/-! ### What is recorded -/

/-- A registry image is recorded with a digest, if one is mentioned. -/
def RecordArgs.Digested (r : RecordArgs) : Prop := r.kind = .registryImage →
  (r.metadata.getD []).has .digest = true → falsy ((r.metadata.getD []).get .digest) = false

theorem checkIdentity_ok {old : BuildResource} {r : RecordArgs} (h : checkIdentity old r = .ok ()) :
    (r.nativeId ≠ none → old.nativeId ≠ none → old.nativeId = r.nativeId) ∧
    (r.kind = .volume → falsy (old.metadata.get .creationToken) = false →
      (r.metadata.getD []).has .creationToken = true →
      (r.metadata.getD []).get .creationToken = old.metadata.get .creationToken) ∧
    (r.kind = .registryImage → falsy (old.metadata.get .digest) = false →
      falsy ((r.metadata.getD []).get .digest) = false →
      (r.metadata.getD []).get .digest = old.metadata.get .digest) := by
  unfold checkIdentity at h
  dsimp only at h
  split at h
  · cases h
  next hnative =>
  split at h
  · cases h
  next htoken =>
  split at h
  · cases h
  next hdigest =>
  refine ⟨fun h₁ h₂ => ?_, fun h₁ h₂ h₃ => ?_, fun h₁ h₂ h₃ => ?_⟩
  · by_contra hne
    exact hnative ⟨h₁, h₂, hne⟩
  · by_contra hne
    exact htoken ⟨h₁, h₂, h₃, hne⟩
  · by_contra hne
    exact hdigest ⟨h₁, h₂, h₃, hne⟩

/-- What is saved over an entry keeps its identities. -/
theorem recorded_extends {m : ResourceMap} {r : RecordArgs} {x : BuildResource}
    (h : recorded (m.get (resourceKey r.kind r.target r.name)) r = .ok x) (hr : r.Digested) :
    x.key = resourceKey r.kind r.target r.name ∧ x.Extends (m.get x.key) := by
  generalize hold : m.get (resourceKey r.kind r.target r.name) = old at h
  cases old with
  | none =>
      cases h
      refine ⟨rfl, fun y hy => ?_⟩
      cases hold.symm.trans hy
  | some old =>
      have hkey := ResourceMap.key_of_get hold
      have hkind : old.kind = r.kind := congrArg ResourceKey.kind hkey
      dsimp only [recorded] at h
      split at h
      · cases h
      next hchecked =>
      cases h
      obtain ⟨hnative, htoken, hdigest⟩ := checkIdentity_ok hchecked
      refine ⟨hkey, fun y hy => ?_⟩
      change m.get old.key = some y at hy
      cases (hkey ▸ hold).symm.trans hy
      refine ⟨rfl, fun hne => ?_, fun hk ht => ?_, fun hk ht => ?_⟩
      · dsimp only
        split_ifs with hf
        · rfl
        · refine (hnative (fun e => hf ?_) hne).symm
          rw [e]
          rfl
      · rw [Metadata.get_merge]
        split_ifs with hhas
        · exact htoken (hkind.symm.trans hk) ht hhas
        · rfl
      · rw [Metadata.get_merge]
        split_ifs with hhas
        · exact hdigest (hkind.symm.trans hk) ht (hr (hkind.symm.trans hk) hhas)
        · rfl

/-! ### Reading and saving -/

/-- Manifests are read and saved in single calls. -/
structure Direct (H : (op : Op) → D op.Ret) : Prop where
  get : ∀ b, H (.getBuildResources b) = ask (.repo (.getBuildResources b))
  put : ∀ b x o, H (.putBuildResource b x o) = ask (.repo (.putBuildResource b x o))

theorem carry_direct (Z : SiteSettings) : Direct (carry Z) := ⟨fun _ => rfl, fun _ _ _ => rfl⟩

theorem onHost_direct : Direct fun op => ask (.repo op) := ⟨fun _ => rfl, fun _ _ _ => rfl⟩

section Tends
variable {b' : BuildId} {u : Uuid} {ls : List CleanupStatus} {L : List BuildResource} {v : Vigil}
  {α : Type} {H : (op : Op) → D op.Ret}

/-- The entries that are read are at hand. -/
theorem Vigil.Tends.read (h : v.Tends b b' u ls L) {m : BuildResources}
    (hg : v.Grants b (.repo (.getBuildResources b')) (some m)) :
    (v.observe b (.repo (.getBuildResources b')) (some m)).Tends b b' u ls m.resources ∧
      (b' = b → m.ownershipVersion = v.version ∧ ∀ k,
        m.resources.get k ∈ (v.observe b (.repo (.getBuildResources b')) (some m)).seen k) := by
  have hseen (e : b' = b) (k : ResourceKey) : m.resources.get k ∈
      (v.observe b (.repo (.getBuildResources b')) (some m)).seen k := by
    simp only [Vigil.observe, Entries.after, if_pos e]
    exact Set.mem_insert _ _
  have hgrant (e : b' = b) : m.ownershipVersion = v.version ∧ m.resources.Distinct := by
    obtain ⟨m', hm, hversion, hdistinct⟩ := hg e (by rw [h.lease, if_pos e]; simp)
    cases hm
    exact ⟨hversion, hdistinct⟩
  refine ⟨⟨h.owner, h.lease, fun e => ⟨(hgrant e).2, fun r hr => ?_⟩⟩, fun e =>
    ⟨(hgrant e).1, hseen e⟩⟩
  refine ⟨_, hseen e r.key, fun y hy => ?_⟩
  rw [(hgrant e).2.get hr] at hy
  cases hy
  exact .refl r

/-- What extends an entry that may be taken for current is saved, and the entries at hand stay
known if it agrees with them. -/
theorem save_safe (h : v.Tends b b' u ls L) {x : BuildResource} (hx : b' = b → v.Known x)
    (hL : b' = b → ∀ r ∈ L, r.key = x.key → r.Retains x) :
    (ask (.repo (.putBuildResource b' x (some u)))).Safe (knowing b)
      (fun _ v' => v'.Tends b b' u ls L) v := by
  refine ⟨⟨fun e => h.session e, hx⟩, ?_⟩
  rintro r _ - ⟨-, rfl⟩
  refine ⟨trivial, h.owner, h.lease, fun e => ⟨(h.known e).1, fun y hy => ?_⟩⟩
  obtain ⟨old, hold, hyold⟩ := (h.known e).2 y hy
  cases r with
  | error _ => exact ⟨old, hold, hyold⟩
  | ok _ =>
      simp only [Vigil.Known, Vigil.observe, Entries.after, if_pos e]
      by_cases hkey : y.key = x.key
      · refine ⟨some x, by rw [hkey, Function.update_self]; rfl, ?_⟩
        rintro _ ⟨⟩
        exact hL e y hy hkey
      · exact ⟨old, by rwa [Function.update_of_ne hkey], hyold⟩

/-- A reading program that goes on as long as there is a manifest. -/
theorem read_maintains (hH : Direct H) {f : BuildResources → P α}
    (h : ∀ m, m.buildId = b' → (Prog.interpret (I := api) (J := hostApi) id H (f m)).Maintains
      (knowing b) (Vigil.Tends b b' u ls m.resources)) :
    (Prog.interpret (I := api) (J := hostApi) id H ((currentManifest b').bind f)).Maintains
      (knowing b) (Vigil.Tends b b' u ls []) := by
  intro v hv
  rw [currentManifest, Prog.bind_eq, Prog.bind_assoc, Prog.interpret_send, hH.get]
  refine ⟨⟨trivial, trivial⟩, ?_⟩
  rintro r _ hm ⟨hg, rfl⟩
  refine ⟨trivial, ?_⟩
  cases r with
  | none => exact Vigil.tends_stable v _ hv (Vigil.grows_of rfl (by simp) (by simp))
  | some m => exact (h m (hm m rfl) _ (hv.read hg).1).mono fun _ _ h => h.nil

/-- **Recording.**  What is recorded extends the entry just read. -/
theorem record_maintains (hH : Direct H) {r : RecordArgs} (hr : b' = b → r.Digested) :
    (Prog.interpret (I := api) (J := hostApi) id H
      (ResourceTracker.record ⟨b', some u⟩ r)).Maintains (knowing b) (Vigil.Tends b b' u ls []) := by
  intro v hv
  rw [ResourceTracker.record, Prog.bind_eq, Prog.interpret_send, hH.get]
  refine ⟨⟨trivial, trivial⟩, ?_⟩
  rintro m _ - ⟨hg, rfl⟩
  refine ⟨trivial, ?_⟩
  cases m with
  | none => exact Vigil.tends_stable v _ hv (Vigil.grows_of rfl (by simp) (by simp))
  | some m =>
      obtain ⟨hread, hseen⟩ := hv.read hg
      simp only [Prog.ret_bind, Prog.bind_eq, Prog.interpret_bind]
      generalize hx : recorded _ r = x
      cases x with
      | error e => exact hread.nil
      | ok x =>
          have hsave := save_safe (L := []) hread.nil (x := x)
            (fun e => ⟨_, (hseen e).2 x.key, (recorded_extends hx (hr e)).2⟩) (by simp)
          rw [Prog.ofExcept, Prog.interpret_ret, Prog.ret_bind, Prog.safe_bind, orRaise,
            Prog.interpret_send, hH.put, Prog.safe_bind]
          refine hsave.mono fun y v'' hv'' => ?_
          rcases y with e | e | m' <;> exact hv''

/-- Of the entries at hand, the states and the errors may change. -/
theorem Vigil.Tends.edited (h : v.Tends b b' u ls L) {r x : BuildResource} (hr : r ∈ L)
    (hx : x.Retains r) (hrx : r.Retains x) : (b' = b → v.Known x) ∧
      (b' = b → ∀ y ∈ L, y.key = x.key → y.Retains x) := by
  refine ⟨fun e => ?_, fun e y hy hkey => ?_⟩
  · obtain ⟨old, hold, hrold⟩ := (h.known e).2 r hr
    exact ⟨old, hx.key ▸ hold, fun z hz => hx.trans (hrold z hz)⟩
  · have hy' := (h.known e).1.get hy
    rw [hkey, hx.key, (h.known e).1.get hr] at hy'
    cases hy'
    exact hrx

/-- **Updating.**  Of an entry at hand, the state and the error change. -/
theorem update_maintains (hH : Direct H) {r x : BuildResource} (hr : r ∈ L) (hx : x.Retains r)
    (hrx : r.Retains x) (state : ResourceState) (error : Option String) :
    (Prog.interpret (I := api) (J := hostApi) id H
      (ResourceTracker.update ⟨b', some u⟩ x state error)).Maintains (knowing b)
      (Vigil.Tends b b' u ls L) := by
  intro v hv
  have hedit : BuildResource.Retains { x with state, error } x :=
    ⟨rfl, fun _ => rfl, fun _ _ => rfl, fun _ _ => rfl⟩
  have hback : BuildResource.Retains x { x with state, error } :=
    ⟨rfl, fun _ => rfl, fun _ _ => rfl, fun _ _ => rfl⟩
  obtain ⟨hknown, hagree⟩ := hv.edited hr (hedit.trans hx) (hrx.trans hback)
  rw [ResourceTracker.update, orRaise, Prog.bind_eq, Prog.bind_assoc, Prog.interpret_send, hH.put,
    Prog.safe_bind]
  refine (save_safe hv hknown hagree).mono fun y v' hv' => ?_
  rcases y with e | e | m' <;> exact hv'

/-! ### Operations on Docker -/

/-- The tracker is that of the session. -/
theorem attributes_maintains {o : Option Uuid} (hJ : ∀ v, J v → v.owner = o)
    {f : RunnerState → D α} (h : ∀ self, self.owner = o → (f self).Maintains (knowing b) J) :
    ((ask .attributes).bind f).Maintains (knowing b) J := by
  intro v hv
  refine ⟨trivial, ?_⟩
  rintro self w - ⟨hself, rfl⟩
  exact ⟨trivial, h self (hself.trans (hJ w hv)) w hv⟩

/-- An outcome that is returned is all a tracker has to follow. -/
theorem follow_maintains {β γ : Type} {q : D (Except Exc β)} (hq : q.Maintains (knowing b) J)
    (g : Except Exc β → Except Exc γ) (tr : ResourceTracker) :
    ((q.bind fun r => .ret (.done (g r))).bind fun script =>
      Prog.interpret (I := api) (J := hostApi) id H (tr.follow script)).Maintains (knowing b) J := by
  have hG := Prog.maintains_compositional (knowing b) J
  rw [Prog.bind_assoc]
  refine hG.bind hq fun r => ?_
  rw [Prog.ret_bind, ResourceTracker.follow]
  cases g r with
  | ok a => exact hG.ret a
  | error e => exact hG.raise e

/-- An operation of a cleanup, with the tracker of the session. -/
theorem docker_carried {tr : ResourceTracker} {c : DockerCall} (hb : c.build = tr.buildId)
    (hc : ∀ appid b compose, c ≠ .deployBuild appid b compose) (hJ : ∀ v, J v → v.owner = tr.owner)
    (hp : (perform Z.swarm.host tr c).Maintains (knowing b) J) : Carried Z b J (tr.docker c) := by
  have heq : Prog.interpret (I := api) (J := hostApi) id (carry Z) (tr.docker c) =
      (ask .attributes).bind fun self =>
        ((perform Z.swarm.host ⟨c.build, self.owner⟩ c).attempt.bind fun r =>
          .ret (.done r)).bind fun script =>
            Prog.interpret (I := api) (J := hostApi) id (carry Z) (tr.follow script) := by
    cases c with
    | deployBuild appid b compose => exact absurd rfl (hc appid b compose)
    | _ => rfl
  rw [Carried, heq]
  refine attributes_maintains hJ fun self hself => follow_maintains ?_ id tr
  rw [hb, hself]
  exact (Prog.maintains_compositional _ _).attempt hp

/-- The deployment of a build, with the tracker of the session. -/
theorem deployBuild_carried {tr : ResourceTracker} (hJ : ∀ v, J v → v.owner = tr.owner)
    {appid : String} {compose : Compose}
    (hp : (DockerSwarmAdapter.deployBuild Z.swarm appid tr (Z.document compose)).Maintains
      (knowing b) J) : Carried Z b J (tr.docker (.deployBuild appid tr.buildId compose)) := by
  have heq : Prog.interpret (I := api) (J := hostApi) id (carry Z)
      (tr.docker (.deployBuild appid tr.buildId compose)) = (ask .attributes).bind fun self =>
        ((DockerSwarmAdapter.deployBuild Z.swarm appid ⟨tr.buildId, self.owner⟩
          (Z.document compose)).attempt.bind fun r => .ret (.done (r.map Z.deployed))).bind
            fun script =>
              Prog.interpret (I := api) (J := hostApi) id (carry Z) (tr.follow script) := rfl
  rw [Carried, heq]
  refine attributes_maintains hJ fun self hself => follow_maintains ?_ (·.map Z.deployed) tr
  rw [hself]
  exact (Prog.maintains_compositional _ _).attempt hp

/-- Discovery and deployment keep what is known, with no entries at hand. -/
theorem observing_tends : Observing (fun {_} p => p.Maintains (knowing b)
    (Vigil.Tends b b' u ls [])) ⟨b', some u⟩ where
  compositional := Prog.maintains_compositional _ _
  aside _ hop := maintains_aside Vigil.tends_stable (uses_ask hop)
  record _ hr := record_maintains onHost_direct fun _ hk => absurd hk hr

end Tends

end

end Orchestrator
