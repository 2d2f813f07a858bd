import Orchestrator.Manifests.Site
import Mathlib.Data.Set.Insert

/-!
# Manifests — what a thread knows of the resources

A thread that holds the lease of a build knows the entries it has read or saved under it: nobody
else has written since.  It may save an entry over one it knows, if the identities of that one
are kept.

* `BuildResource.Retains`: a later version of an entry keeps its identities.
* `Vigil`: the session of a thread, and the entries it knows.
* `watching b`: the monitor; `Grants`: what the responses have to say; `Watched`: the invariant.
* `Watched.exec`: under the invariant, an allowed call keeps every entry and its identities.
-/

namespace Orchestrator
open Interleaving

namespace BuildResource

/-- `x` has the key of `e`, and its native identifier, creation token and digest, as far as it has
them. -/
structure Retains (x e : BuildResource) : Prop where
  key : x.key = e.key
  nativeId : e.nativeId ≠ none → x.nativeId = e.nativeId
  creationToken : e.kind = .volume → falsy (e.metadata.get .creationToken) = false →
    x.metadata.get .creationToken = e.metadata.get .creationToken
  digest : e.kind = .registryImage → falsy (e.metadata.get .digest) = false →
    x.metadata.get .digest = e.metadata.get .digest

variable {x y z : BuildResource}

theorem Retains.refl (x : BuildResource) : x.Retains x :=
  ⟨rfl, fun _ => rfl, fun _ _ => rfl, fun _ _ => rfl⟩

theorem Retains.kind (h : x.Retains y) : x.kind = y.kind := congrArg ResourceKey.kind h.key

theorem Retains.trans (h : x.Retains y) (h' : y.Retains z) : x.Retains z where
  key := h.key.trans h'.key
  nativeId hz := by
    have hy := h'.nativeId hz
    exact (h.nativeId (hy ▸ hz)).trans hy
  creationToken hk hz := by
    have hy := h'.creationToken hk hz
    exact (h.creationToken (h'.kind.trans hk) (hy ▸ hz)).trans hy
  digest hk hz := by
    have hy := h'.digest hk hz
    exact (h.digest (h'.kind.trans hk) (hy ▸ hz)).trans hy

/-- `x` retains the entry that is there, if there is one. -/
def Extends (x : BuildResource) (e : Option BuildResource) : Prop := ∀ y, e = some y → x.Retains y

end BuildResource

/-- The entries a thread may take for current. -/
abbrev Entries := ResourceKey → Set (Option BuildResource)

/-- What is known of the entries of `b` after a call. -/
def Entries.after (b : BuildId) (seen : Entries) : (op : Op) → op.Ret → Entries
  | .claimBuildLease b' _ _ _, some m => if b' = b then fun k => {m.resources.get k} else seen
  | .getBuildResources b', some m =>
      if b' = b then fun k => insert (m.resources.get k) (seen k) else seen
  | .putBuildResource b' x _, .ok _ => if b' = b then Function.update seen x.key {some x} else seen
  | _, _ => seen

/-- The version of the manifest of `b` a lease was granted on. -/
def versionAfter (b : BuildId) (version : Nat) : (op : Op) → op.Ret → Nat
  | .claimBuildLease b' _ _ _, some m => if b' = b then m.ownershipVersion else version
  | _, _ => version

/-- What a thread knows about a build, and the owner of its tracker. -/
structure Vigil where
  session : Session := {}
  owner : Option Uuid := none
  version : Nat := 0
  seen : Entries := fun _ => ∅

namespace Vigil

def observe (b : BuildId) (v : Vigil) : (op : HostOp) → op.Ret → Vigil
  | .repo op, r =>
      { session := v.session.observe b op r
        owner := match op.granted r with
          | some o => some o
          | none => v.owner
        version := versionAfter b v.version op r
        seen := v.seen.after b op r }
  | _, _ => v

/-- What is saved extends a known entry, and nothing else changes entries or the version. -/
def Fresh (b : BuildId) (v : Vigil) : Op → Prop
  | .putBuildResource b' x _ => b' = b → ∃ e ∈ v.seen x.key, x.Extends e
  | .updateBuildResources b' f _ => b' = b → f.resources.Untouched ∧ f.ownershipVersion.Untouched
  | _ => True

/-- A guard is always allowed: it raises where the lease is not held. -/
def allows (b : BuildId) (v : Vigil) : HostOp → Prop
  | .repo (.guard ..) => True
  | .repo op => v.session.allows b op ∧ v.Fresh b op
  | _ => True

/-- What the responses say: who owns the tracker, and that under a lease there is a manifest of
the same version. -/
def Grants (b : BuildId) (v : Vigil) : (op : HostOp) → op.Ret → Prop
  | .attributes, self => self.owner = v.owner
  | .repo (.getBuildResources b'), r => b' = b → v.session.lease ≠ none →
      ∃ m, r = some m ∧ m.ownershipVersion = v.version ∧ m.resources.Distinct
  | _, _ => True

theorem observe_other (b : BuildId) (v : Vigil) {op : HostOp} (h : ∀ op', op ≠ .repo op')
    (r : op.Ret) : v.observe b op r = v := by
  cases op with
  | repo op => exact absurd rfl (h op)
  | _ => rfl

end Vigil

abbrev watching (b : BuildId) : Monitor hostApi :=
  ⟨Vigil, {}, Vigil.allows b, Vigil.observe b⟩

section
variable {Z : SiteSettings} {b : BuildId}

/-- What thread `t` knows about `b`, by the log. -/
abbrev watch (b : BuildId) (t : Nat) (l : List (Event (site Z))) : Vigil :=
  viewOf (watching b) t l

/-- Its session is the one the repository has seen. -/
theorem watch_session (t : Nat) (l : List (Event (site Z))) :
    (watch b t l).session = session b t (repoLog l) := by
  induction l with
  | nil => rfl
  | cons e l ih =>
      cases e with
      | call t' op r =>
          cases op with
          | repo op =>
              rw [repoLog_repo]
              by_cases h : t' = t
              · subst h
                rw [watch, viewOf_call_self, session_call_self, ← ih]
                rfl
              · rw [watch, viewOf_call_other h, session_call_other h]
                exact ih
          | _ =>
              rw [repoLog_other t' (by simp)]
              by_cases h : t' = t
              · subst h
                rw [watch, viewOf_call_self]
                exact ih
              · rw [watch, viewOf_call_other h]
                exact ih
      | start t' T => exact ih
      | env x => exact ih

/-- Whoever holds the lease knows the entries as they are. -/
def Vigil.Knows (v : Vigil) (m : BuildResources) : Prop := ∀ o ls, m.leaseOwner = some o →
  v.session.lease = some (o, ls) → ∀ k, ∀ e ∈ v.seen k, m.resources.get k = e

/-- **The invariant.**  Who is in a session knows the version of the manifest, and if it has not
lost the lease, its entries as they are. -/
structure Watched (b : BuildId) (s : Site) (l : List (Event (site Z))) : Prop where
  sessioned : Sessioned b s.world (repoLog l)
  distinct : ∀ m, s.world.repo.buildResources.lookup b = some m → m.resources.Distinct
  version : ∀ t, (watch b t l).session.lease ≠ none → ∃ m,
    s.world.repo.buildResources.lookup b = some m ∧ m.ownershipVersion = (watch b t l).version
  knows : ∀ m t, s.world.repo.buildResources.lookup b = some m → (watch b t l).Knows m
  owners : ∀ t, s.owners t = (watch b t l).owner

/-! ### One call -/

/-- Every entry is still there, with its identities. -/
def BuildResources.Persists (m m' : BuildResources) : Prop := ∀ k e, m.resources.get k = some e →
  ∃ e', m'.resources.get k = some e' ∧ e'.Retains e

theorem BuildResources.Persists.of_eq {m m' : BuildResources} (h : m'.resources = m.resources) :
    m.Persists m' := fun _ e he => ⟨e, h ▸ he, .refl e⟩

theorem BuildResources.Persists.trans {m m' m'' : BuildResources} (h : m.Persists m')
    (h' : m'.Persists m'') : m.Persists m'' := by
  intro k e he
  obtain ⟨x, hx, hxe⟩ := h k e he
  obtain ⟨y, hy, hyx⟩ := h' k x hx
  exact ⟨y, hy, hyx.trans hxe⟩

section
variable {now : DateTime} {v : Vigil} {old new : Option BuildResources} {op : Op} {r : op.Ret}

/-- The call of a thread that knows the entries keeps every entry, the version of the manifest, and
the distinction of keys. -/
theorem ManifestDeed.persists (hd : ManifestDeed now b v.session old new op r)
    (hf : v.Fresh b op) {m : BuildResources} (hm : old = some m) (hk : v.Knows m) :
    ∃ m', new = some m' ∧ m'.ownershipVersion = m.ownershipVersion ∧ m.Persists m' := by
  cases hd with
  | same _ => exact ⟨m, hm, rfl, .of_eq rfl⟩
  | ensured _ _ => cases hm
  | @stored _ x o ls hs hheld =>
      cases hm
      refine ⟨_, rfl, rfl, fun k e he => ?_⟩
      dsimp only
      by_cases hkey : k = x.key
      · obtain ⟨y, hy, hx⟩ := hf rfl
        refine ⟨x, by rw [ResourceMap.get_put, if_pos hkey], hx e ?_⟩
        rw [← hk o ls hheld.1 hs x.key y hy, ← hkey, he]
      · exact ⟨e, by rw [ResourceMap.get_put, if_neg hkey, he], .refl e⟩
  | owned _ _ _ _ _ =>
      cases hm
      obtain ⟨hr, hv⟩ := hf rfl
      exact ⟨_, rfl, by simp [hv.apply], .of_eq (by simp [hr.apply])⟩
  | undispatched _ _ =>
      cases hm
      obtain ⟨hr, hv⟩ := hf rfl
      exact ⟨_, rfl, by simp [hv.apply], .of_eq (by simp [hr.apply])⟩
  | claimed _ _ _ _ => cases hm; exact ⟨_, rfl, rfl, .of_eq rfl⟩
  | released _ _ => cases hm; exact ⟨_, rfl, rfl, .of_eq rfl⟩

theorem ManifestDeed.distinct (hd : ManifestDeed now b v.session old new op r)
    (hf : v.Fresh b op) (h : ∀ m, old = some m → m.resources.Distinct) :
    ∀ m, new = some m → m.resources.Distinct := by
  intro m hm
  cases hd with
  | same _ => exact h m hm
  | ensured _ hb => cases hm; exact hb.resources
  | stored _ _ => cases hm; exact (h _ rfl).put _
  | owned _ _ _ _ _ => cases hm; simpa [(hf rfl).1.apply] using h _ rfl
  | undispatched _ _ => cases hm; simpa [(hf rfl).1.apply] using h _ rfl
  | @claimed x _ _ _ _ _ _ _ => cases hm; exact h x rfl
  | @released x _ _ _ => cases hm; exact h x rfl

/-- Only a grant on `b` changes the version, and what is not granted is at most given back. -/
theorem Vigil.observe_cases (b : BuildId) (v : Vigil) (op : Op) (r : op.Ret) :
    (∃ o e ls m, op = .claimBuildLease b o e ls ∧ HEq r (some m : Option BuildResources) ∧
      v.observe b (.repo op) r =
        ⟨⟨none, some (o, ls)⟩, some o, m.ownershipVersion, fun k => {m.resources.get k}⟩) ∨
    (((v.observe b (.repo op) r).session.lease = v.session.lease ∨
        (v.observe b (.repo op) r).session.lease = none) ∧
      (v.observe b (.repo op) r).version = v.version ∧
      ∀ o e ls m, op = .claimBuildLease b o e ls → ¬ HEq r (some m : Option BuildResources)) := by
  cases op with
  | claimBuildLease b' o e ls =>
      cases r with
      | none =>
          refine .inr ⟨.inl (by simp [observe, Session.observe]), rfl, ?_⟩
          rintro _ _ _ _ - h
          cases h
      | some m =>
          by_cases hb : b' = b
          · subst hb
            exact .inl ⟨o, e, ls, m, rfl, HEq.rfl, by
              simp [observe, Session.observe, Op.granted, versionAfter, Entries.after]⟩
          · refine .inr ⟨.inl (by simp [observe, Session.observe, hb]), by
              simp [observe, versionAfter, hb], ?_⟩
            rintro _ _ _ _ h -
            cases h
            exact absurd rfl hb
  | releaseBuildLease b' o =>
      by_cases hb : b' = b
      · exact .inr ⟨.inr (by simp [observe, Session.observe, hb]), rfl, by simp⟩
      · exact .inr ⟨.inl (by simp [observe, Session.observe, hb]), rfl, by simp⟩
  | _ => exact .inr ⟨.inl rfl, rfl, by simp⟩

/-- A grant shows the manifest. -/
theorem ManifestDeed.granted {s : Session} {o : Uuid} {e : DateTime} {ls : List CleanupStatus}
    {m : BuildResources} (hd : ManifestDeed now b s old new (.claimBuildLease b o e ls) (some m)) :
    new = some m := by
  cases hd with
  | same h => cases h rfl
  | claimed _ _ _ _ => rfl

/-- A thread that makes a call knows the entries after it. -/
theorem ManifestDeed.knows (hd : ManifestDeed now b v.session old new op r)
    (hf : v.Fresh b op) (hk : ∀ m, old = some m → v.Knows m) :
    ∀ m, new = some m → (v.observe b (.repo op) r).Knows m := by
  intro m hm o ls ho hs k e he
  cases hd with
  | same h =>
      subst hm
      have hlease : v.session.lease = some (o, ls) := by
        rcases Vigil.observe_cases b v op r with ⟨_, _, _, m', rfl, hr, -⟩ | ⟨hl | hl, -, -⟩
        · cases h rfl
          cases hr
        · rw [← hl, hs]
        · rw [hl] at hs
          cases hs
      have hold := hk m rfl o ls ho hlease
      -- The response of a read is the manifest; a refused call shows nothing.
      cases op with
      | getBuildResources b' =>
          cases r with
          | none => exact hold k e he
          | some m' =>
              by_cases hb : b' = b
              · cases h hb
                simp only [Vigil.observe, Entries.after, if_pos hb] at he
                rcases he with rfl | he
                · rfl
                · exact hold k e he
              · simp only [Vigil.observe, Entries.after, if_neg hb] at he
                exact hold k e he
      | putBuildResource b' x o' =>
          cases r with
          | error _ => exact hold k e he
          | ok m' =>
              by_cases hb : b' = b
              · cases h hb
              · simp only [Vigil.observe, Entries.after, if_neg hb] at he
                exact hold k e he
      | claimBuildLease b' o' x l =>
          cases r with
          | none => exact hold k e he
          | some m' =>
              by_cases hb : b' = b
              · cases h hb
              · simp only [Vigil.observe, Entries.after, if_neg hb] at he
                exact hold k e he
      | _ => exact hold k e he
  | ensured _ hb =>
      cases hm
      rw [hb.leaseOwner] at ho
      cases ho
  | @stored x y _ _ _ _ =>
      cases hm
      simp only [Vigil.observe, Entries.after, if_pos] at he
      dsimp only
      by_cases hkey : k = y.key
      · subst hkey
        rw [Function.update_self] at he
        rw [ResourceMap.get_put, if_pos rfl, Set.mem_singleton_iff.mp he]
      · rw [Function.update_of_ne hkey] at he
        rw [ResourceMap.get_put, if_neg hkey]
        exact hk x rfl o ls ho hs k e he
  | @owned x _ _ _ _ _ _ _ _ _ =>
      cases hm
      rw [BuildResources.modelCopy_resources, (hf rfl).1.apply]
      exact hk x rfl o ls ho hs k e he
  | @undispatched x _ _ _ =>
      cases hm
      rw [BuildResources.modelCopy_resources, (hf rfl).1.apply]
      exact hk x rfl o ls ho hs k e he
  | @claimed x _ _ _ _ _ _ _ =>
      cases hm
      simp only [Vigil.observe, Entries.after, if_pos] at he
      exact (Set.mem_singleton_iff.mp he).symm
  | released _ _ => cases hm; cases ho

/-- What the call of another thread leaves of that knowledge: whoever knows the entries, and holds
the lease still, was not the caller. -/
theorem ManifestDeed.knows_other {w : Vigil} (hd : ManifestDeed now b v.session old new op r)
    (hf : v.Fresh b op) (hk : ∀ m, old = some m → w.Knows m)
    (hv : ∀ o ls ls', w.session.lease = some (o, ls) → v.session.lease ≠ some (o, ls'))
    (hdrawn : ∀ o ls, w.session.lease = some (o, ls) → v.session.drawn ≠ some o) :
    ∀ m, new = some m → w.Knows m := by
  intro m hm o ls ho hs k e he
  cases hd with
  | same _ => exact hk m hm o ls ho hs k e he
  | ensured _ hb =>
      cases hm
      rw [hb.leaseOwner] at ho
      cases ho
  | @stored x _ o' _ hs' hheld =>
      cases hm
      cases hheld.1.symm.trans ho
      exact absurd hs' (hv o ls _ hs)
  | @owned x _ _ _ _ _ _ _ _ _ =>
      cases hm
      rw [BuildResources.modelCopy_resources, (hf rfl).1.apply]
      exact hk x rfl o ls ho hs k e he
  | @undispatched x _ _ _ =>
      cases hm
      rw [BuildResources.modelCopy_resources, (hf rfl).1.apply]
      exact hk x rfl o ls ho hs k e he
  | claimed hd _ _ _ =>
      cases hm
      cases ho
      exact absurd hd (hdrawn o ls hs)
  | released _ _ => cases hm; cases ho

end

/-! ### The invariant along a run -/

section
variable {s s' : Site} {l : List (Event (site Z))} {t : Nat}

theorem watch_call_self (op : HostOp) (r : op.Ret) :
    watch b t (.call t op r :: l) = (watch b t l).observe b op r := viewOf_call_self t op r l

theorem watch_call_other {t' : Nat} (h : t ≠ t') (op : HostOp) (r : op.Ret) :
    watch b t' (.call t op r :: l) = watch b t' l := viewOf_call_other h op r l

/-- A guard shows in no session. -/
theorem session_guard (t t' : Nat) (b' : BuildId) (o : Option Uuid)
    (r : (Op.guard b' o).Ret) (l : List (Event (orchestrator Z.services))) :
    session b t' (.call t (.guard b' o) r :: l) = session b t' l := by
  by_cases h : t = t'
  · subst h
    exact session_call_self
  · exact session_call_other h

theorem Sessioned.guard {w : World} {l : List (Event (orchestrator Z.services))}
    (h : Sessioned b w l) (t : Nat) (b' : BuildId) (o : Option Uuid) (r : (Op.guard b' o).Ret) :
    Sessioned b w (.call t (.guard b' o) r :: l) where
  owner m o' hm ho := by
    rw [session_guard]
    exact h.owner m o' hm ho
  lease t' o' ls hs := by
    rw [session_guard] at hs
    exact h.lease t' o' ls hs
  drawn t' o' hs := by
    rw [session_guard] at hs ⊢
    exact h.drawn t' o' hs

/-- A call that changes neither the repository nor what is known keeps the invariant. -/
theorem Watched.still (h : Watched b s l) {op : HostOp} {r : op.Ret}
    (hw : s'.world = s.world) (ho : s'.owners = s.owners)
    (hobs : (watch b t l).observe b op r = watch b t l)
    (hs : Sessioned b s.world (repoLog (.call t op r :: l))) :
    Watched b s' (.call t op r :: l) := by
  have hwatch (t' : Nat) : watch b t' (.call t op r :: l) = watch b t' l := by
    by_cases e : t = t'
    · subst e
      rw [watch_call_self, hobs]
    · exact watch_call_other e op r
  refine ⟨hw ▸ hs, fun m hm => h.distinct m (hw ▸ hm), fun t' ht => ?_, fun m t' hm => ?_,
    fun t' => ?_⟩
  · rw [hwatch] at ht ⊢
    obtain ⟨m, hm, hv⟩ := h.version t' ht
    exact ⟨m, by rw [hw, hm], hv⟩
  · rw [hwatch]
    exact h.knows m t' (hw ▸ hm)
  · rw [hwatch, ho]
    exact h.owners t'

/-- A call on the repository that the sessions allow. -/
theorem Watched.repo (h : Watched b s l) {op : Op} {a : Answers} {r : op.Ret} {w : World}
    (ha : (watch b t l).session.allows b op) (hf : (watch b t l).Fresh b op)
    (he : exec t op a s.world = some (r, w)) (hw : s'.world = w)
    (ho : s'.owners = match op.granted r with
      | some o => Function.update s.owners t (some o)
      | none => s.owners) :
    Watched b s' (.call t (.repo op) r :: l) := by
  have hsession (t' : Nat) := watch_session (b := b) t' l
  have hd := manifest_deed ha he
  subst hw
  refine ⟨?_, hd.distinct hf h.distinct, fun t' ht => ?_, fun m t' hm => ?_, fun t' => ?_⟩
  · exact h.sessioned.call (hsession t ▸ ha) he
  · by_cases e : t = t'
    · subst e
      rw [watch_call_self] at ht ⊢
      -- The version is noted when the lease is granted, and stands under it.
      rcases Vigil.observe_cases b (watch b t l) op r with ⟨o, e, ls, m, rfl, hr, hobs⟩ |
          ⟨hlease, hversion, -⟩
      · cases hr
        rw [hobs]
        exact ⟨m, hd.granted, rfl⟩
      · have hold : (watch b t l).session.lease ≠ none := by
          rcases hlease with hl | hl
          · rwa [hl] at ht
          · exact absurd hl ht
        obtain ⟨m, hm, hv⟩ := h.version t hold
        obtain ⟨m', hm', hv', -⟩ := hd.persists hf hm (h.knows m t hm)
        exact ⟨m', hm', by rw [hversion, hv', hv]⟩
    · rw [watch_call_other e] at ht ⊢
      obtain ⟨m, hm, hv⟩ := h.version t' ht
      obtain ⟨m', hm', hv', -⟩ := hd.persists hf hm (h.knows m t hm)
      exact ⟨m', hm', hv'.trans hv⟩
  · by_cases e : t = t'
    · subst e
      rw [watch_call_self]
      exact hd.knows hf (fun m hm => h.knows m t hm) m hm
    · rw [watch_call_other e]
      refine hd.knows_other hf (fun m hm => h.knows m t' hm) (fun o ls ls' hs hs' => e ?_)
        (fun o ls hs hdr => e ?_) m hm
      · rw [hsession] at hs hs'
        exact (h.sessioned.drawer hs').symm.trans (h.sessioned.drawer hs)
      · rw [hsession] at hs hdr
        exact ((h.sessioned.drawn t o hdr).1).symm.trans (h.sessioned.drawer hs)
  · by_cases e : t = t'
    · subst e
      rw [watch_call_self, ho]
      simp only [Vigil.observe]
      split
      · rw [Function.update_self]
      · exact h.owners t
    · rw [watch_call_other e, ho]
      split
      · rw [Function.update_of_ne (Ne.symm e)]
        exact h.owners t'
      · exact h.owners t'

/-- An allowed call on the repository is a guard, or one that the sessions allow. -/
theorem Vigil.allows_repo {v : Vigil} {op : Op} (h : v.allows b (.repo op)) :
    (∃ b' o, op = .guard b' o) ∨ v.session.allows b op ∧ v.Fresh b op := by
  cases op with
  | guard b' o => exact .inl ⟨b', o, rfl⟩
  | _ => exact .inr h

/-- **One call.**  What is allowed keeps the invariant. -/
theorem Watched.call (h : Watched b s l) {op : HostOp} {a : Replies} {r : op.Ret}
    (ha : (watch b t l).allows b op) (he : Site.exec t op a s = some (r, s')) :
    Watched b s' (.call t op r :: l) := by
  rcases Site.exec_cases he with ⟨op, r, rfl, hr, he', ho⟩ | ⟨hop, hw, ho⟩
  · cases hr
    rcases Vigil.allows_repo ha with ⟨b', o, rfl⟩ | ⟨ha, hf⟩
    · exact h.still (congrArg Prod.snd (Option.some.inj he')).symm ho rfl
        (h.sessioned.guard t b' o _)
    · exact h.repo ha hf he' rfl ho
  · exact h.still hw ho (Vigil.observe_other b _ hop r) (by
      rw [repoLog_other t hop]
      exact h.sessioned)

theorem Watched.start (h : Watched b s l) (t : Nat) (T : Task) : Watched b s (.start t T :: l) :=
  ⟨h.sessioned.start T, h.distinct, h.version, h.knows, h.owners⟩

/-- What the environment does to a manifest is not about its entries. -/
theorem Renewal.entries {now : DateTime} {old new : Option BuildResources} (h : Renewal now old new)
    {m : BuildResources} (hm : new = some m) : ∃ m', old = some m' ∧ m.resources = m'.resources ∧
      m.leaseOwner = m'.leaseOwner ∧ m.ownershipVersion = m'.ownershipVersion := by
  cases h with
  | same => exact ⟨m, hm, rfl, rfl, rfl⟩
  | renewed _ => cases hm; exact ⟨_, rfl, rfl, rfl, rfl⟩

theorem Renewal.exists {now : DateTime} {old new : Option BuildResources} (h : Renewal now old new)
    {m : BuildResources} (hm : old = some m) : ∃ m', new = some m' := by
  cases h with
  | same => exact ⟨m, hm⟩
  | renewed _ => exact ⟨_, rfl⟩

theorem Watched.env (h : Watched b s l) {x : Stimulus} (hx : Site.disturb x s = some s') :
    Watched b s' (.env x :: l) := by
  obtain ⟨w, hw, rfl⟩ := Option.map_eq_some_iff.mp hx
  have hr := disturb_manifest hw b
  refine ⟨h.sessioned.env hw, fun m hm => ?_, fun t ht => ?_, fun m t hm => ?_, h.owners⟩
  · obtain ⟨m', hm', hres, -, -⟩ := hr.entries hm
    rw [hres]
    exact h.distinct m' hm'
  · obtain ⟨m, hm, hv⟩ := h.version t ht
    obtain ⟨m', hm'⟩ := hr.exists hm
    obtain ⟨m'', hm'', -, -, hv'⟩ := hr.entries hm'
    cases hm.symm.trans hm''
    exact ⟨m', hm', hv'.trans hv⟩
  · obtain ⟨m', hm', hres, hown, -⟩ := hr.entries hm
    intro o ls ho hs k e he
    rw [hres]
    exact h.knows m' t hm' o ls (hown ▸ ho) hs k e he

/-- Under the invariant, responses say what is assumed of them. -/
theorem Watched.grants (h : Watched b s l) {op : HostOp} {a : Replies} {r : op.Ret}
    (he : Site.exec t op a s = some (r, s')) : (watch b t l).Grants b op r := by
  cases op with
  | attributes =>
      cases he
      exact h.owners t
  | repo op =>
      cases op with
      | getBuildResources b' =>
          rintro rfl hs
          obtain ⟨m, hm, hv⟩ := h.version t hs
          cases he
          exact ⟨m, hm, hv, h.distinct m hm⟩
      | _ => trivial
  | _ => trivial

/-- **One call.**  Under the invariant, what is allowed keeps every entry and its identities. -/
theorem Watched.persists (h : Watched b s l) {op : HostOp} {a : Replies} {r : op.Ret}
    (ha : (watch b t l).allows b op) (he : Site.exec t op a s = some (r, s'))
    {m : BuildResources} (hm : s.world.repo.buildResources.lookup b = some m) :
    ∃ m', s'.world.repo.buildResources.lookup b = some m' ∧ m.Persists m' := by
  rcases Site.exec_cases he with ⟨op, r, rfl, -, he', -⟩ | ⟨-, hw, -⟩
  · rcases Vigil.allows_repo ha with ⟨b', o, rfl⟩ | ⟨ha, hf⟩
    · have hw : s.world = s'.world := congrArg Prod.snd (Option.some.inj he')
      exact ⟨m, hw ▸ hm, .of_eq rfl⟩
    · obtain ⟨m', hm', -, hp⟩ := (manifest_deed ha he').persists hf hm (h.knows m t hm)
      exact ⟨m', hm', hp⟩
  · exact ⟨m, hw ▸ hm, .of_eq rfl⟩

theorem Watched.boot {c : Config (site Z)} (hc : SiteBoot c) :
    Watched (Z := Z) b c.world [] where
  sessioned := .boot hc.repo
  distinct m hm := by simp [hc.repo.buildResources] at hm
  version t ht := absurd rfl ht
  knows m t hm := by simp [hc.repo.buildResources] at hm
  owners t := hc.owners t

end

end

end Orchestrator
