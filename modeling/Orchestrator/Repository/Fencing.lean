import Orchestrator.Interleaving.Lease
import Orchestrator.Repository.Mongo
import Mathlib.Data.Int.Order.Basic

/-!
# Repository — manifest fencing

The five methods that read or write the lease of a manifest, in both stores, as calls on a store
that serves a lease: what a call may do to the lease is a `Grant`, so an owner that lost it is
out until a claim of its own is granted.

* `ManifestCall`, `Backend.perform`: a call, and what either store does with it.
* `InMemoryRepository.grant`, `MongoRepository.grant`: both stores serve the lease.
* `manifest_fencing`: an owner without the lease changes nothing, and a claim is granted only
  on a lease nobody holds.
-/

namespace Orchestrator
open Interleaving

/-- How each implementation of `Repository` keeps an expiry. -/
inductive Backend where
  | inMemory | mongo

def Backend.stamp : Backend → DateTime → DateTime
  | inMemory => id
  | mongo => DateTime.bson

@[simp] theorem Backend.stamp_stamp (k : Backend) (d : DateTime) :
    k.stamp (k.stamp d) = k.stamp d := by
  cases k <;> simp [stamp]

/-- The lease a manifest records. -/
def BuildResources.lease (k : Backend) (m : BuildResources) : Lease Uuid Int :=
  match m.leaseOwner, m.leaseExpiresAt with
  | some o, some e => some (o, (k.stamp e).utc)
  | _, _ => none

/-- `heldBy` is what the abstract lease calls live. -/
theorem BuildResources.heldBy_iff_live (m : BuildResources) (o : Uuid) (clock : Int) :
    m.heldBy o (.now clock) ↔ (m.lease .inMemory).Live o clock := by
  unfold heldBy lease Lease.Live leaseExpired
  cases m.leaseOwner <;> cases m.leaseExpiresAt <;> simp [Backend.stamp]

/-- The lease of manifest `b` in a table of manifests. -/
def leaseIn (k : Backend) (s : Table BuildId BuildResources) (b : BuildId) : Lease Uuid Int :=
  match s.lookup b with
  | some m => m.lease k
  | none => none

section
variable {k : Backend}

theorem leaseIn_of_lookup {s : Table BuildId BuildResources} {b : BuildId} {m : BuildResources}
    (h : s.lookup b = some m) : leaseIn k s b = m.lease k := by simp [leaseIn, h]

@[simp] theorem leaseIn_insert_self (s : Table BuildId BuildResources) (b : BuildId)
    (m : BuildResources) : leaseIn k (s.insert b m) b = m.lease k := by simp [leaseIn]

theorem leaseIn_insert_ne (s : Table BuildId BuildResources) {b b' : BuildId} (h : b ≠ b')
    (m : BuildResources) : leaseIn k (s.insert b' m) b = leaseIn k s b := by
  simp [leaseIn, AList.lookup_insert_ne h]

end

/-! ### Calls -/

/-- The manifest calls; an update does not mention the lease fields. -/
inductive ManifestCall where
  | claim (b : BuildId) (owner : Uuid) (expiresAt : DateTime) (statuses : List CleanupStatus)
  | renew (b : BuildId) (owner : Uuid) (expiresAt : DateTime)
  | release (b : BuildId) (owner : Uuid)
  | put (b : BuildId) (resource : BuildResource) (owner : Option Uuid)
  | update (b : BuildId) (fields : { f : ResourceFields // f.leaseExpiresAt.Untouched })
      (expected : ResourceExpectation)

inductive ManifestReply where
  | manifest (r : Option BuildResources)
  | renewed (ok : Bool)
  | released
  | stored (r : Except Exc BuildResources)

/-- The call reports that it took effect. -/
def ManifestReply.ok : ManifestReply → Bool
  | .manifest r => r.isSome
  | .renewed ok => ok
  | .released => true
  | .stored r => r.isOk

namespace ManifestCall

def build : ManifestCall → BuildId
  | claim b .. | renew b .. | release b .. | put b .. | update b .. => b

/-- The call is made in the name of `o` on manifest `b`, and relies on the lease. -/
def FencedBy (b : BuildId) (o : Uuid) : ManifestCall → Prop
  | claim .. | release .. => False
  | renew b' o' _ => b' = b ∧ o' = o
  | put b' _ o' => b' = b ∧ o' = some o
  | update b' _ e => b' = b ∧ e.owner = some o

end ManifestCall

namespace Backend

def Store : Backend → Type
  | inMemory => Repository
  | mongo => ManifestCollection

def manifests : (k : Backend) → k.Store → Table BuildId BuildResources
  | inMemory, s => s.buildResources
  | mongo, s => s

def perform : (k : Backend) → (now : DateTime) → ManifestCall → k.Store → ManifestReply × k.Store
  | inMemory, now, .claim b o e l, s =>
      let r := InMemoryRepository.claimBuildLease s now b o e l
      (.manifest r.1, r.2)
  | inMemory, now, .renew b o e, s =>
      let r := InMemoryRepository.renewBuildLease s now b o e
      (.renewed r.1, r.2)
  | inMemory, _, .release b o, s => (.released, InMemoryRepository.releaseBuildLease s b o)
  | inMemory, now, .put b x o, s =>
      let r := InMemoryRepository.putBuildResource s now b x o
      (.stored r.1, r.2)
  | inMemory, now, .update b f e, s =>
      let r := InMemoryRepository.updateBuildResources s now b f.1 e
      (.manifest r.1, r.2)
  | mongo, now, .claim b o e l, s =>
      let r := MongoRepository.claimBuildLease s now b o e l
      (.manifest r.1, r.2)
  | mongo, now, .renew b o e, s =>
      let r := MongoRepository.renewBuildLease s now b o e
      (.renewed r.1, r.2)
  | mongo, _, .release b o, s => (.released, MongoRepository.releaseBuildLease s b o)
  | mongo, now, .put b x o, s =>
      let r := MongoRepository.putBuildResource s now b x o
      (.stored r.1, r.2)
  | mongo, now, .update b f e, s =>
      let r := MongoRepository.updateBuildResources s now b f.1 e
      (.manifest r.1, r.2)

end Backend

/-! ### Serving the lease -/

/-- What `put` and `update` ask of the lease. -/
def useRequest (b b' : BuildId) : Option Uuid → LeaseRequest Uuid Int
  | some o => if b' = b then .use o else .unrelated
  | none => .unrelated

/-- What a call asks of the lease of manifest `b`. -/
def ManifestCall.request (k : Backend) (b : BuildId) : ManifestCall → LeaseRequest Uuid Int
  | .claim b' o e _ => if b' = b then .claim o (k.stamp e).utc else .unrelated
  | .renew b' o e => if b' = b then .renew o (k.stamp e).utc else .unrelated
  | .release b' o => if b' = b then .release o else .unrelated
  | .put b' _ o => useRequest b b' o
  | .update b' _ e => useRequest b b' e.owner

/-- A manifest without an owner has no live lease. -/
theorem not_live_of_free {k : Backend} {m : BuildResources} (h : m.leaseOwner = none) (o : Uuid)
    (clock : Int) : ¬ (m.lease k).Live o clock := by
  rintro ⟨e, he, -⟩
  simp [BuildResources.lease, h] at he

/-- Nor has one whose expiry has passed. -/
theorem not_live_of_expired {k : Backend} {m : BuildResources} {clock : Int}
    (h : ∀ e, m.leaseExpiresAt = some e → (k.stamp e).utc ≤ clock) (o : Uuid) :
    ¬ (m.lease k).Live o clock := by
  rintro ⟨t, ht, hlt⟩
  unfold BuildResources.lease at ht
  split at ht
  · next o' e _ he =>
      cases ht
      exact absurd (h e he) (not_le.mpr hlt)
  · cases ht

section
variable {k : Backend}

/-- Giving the lease back. -/
theorem lease_release (m : BuildResources) (o : Uuid) (h : m.leaseOwner = some o) :
    ({ m with leaseOwner := none, leaseExpiresAt := none } : BuildResources).lease k =
      (m.lease k).dropBy o := by
  unfold BuildResources.lease Lease.dropBy
  rw [h]
  cases m.leaseExpiresAt <;> simp

theorem dropBy_of_ne {m : BuildResources} {o : Uuid} (h : m.leaseOwner ≠ some o) :
    (m.lease k).dropBy o = m.lease k := by
  unfold BuildResources.lease Lease.dropBy
  cases ho : m.leaseOwner with
  | none => rfl
  | some o' =>
      have : o' ≠ o := by rintro rfl; exact h ho
      cases m.leaseExpiresAt <;> simp [this]

/-- An update that does not mention the expiry keeps the lease. -/
theorem lease_modelCopy (m : BuildResources) (f : ResourceFields)
    (hf : f.leaseExpiresAt.Untouched) : (m.modelCopy f).lease k = m.lease k := by
  simp [BuildResources.lease, hf.apply]

theorem useRequest_other {b b' : BuildId} (h : b' ≠ b) (o : Option Uuid) :
    useRequest b b' o = .unrelated := by
  cases o <;> simp [useRequest, h]

theorem grant_use {b : BuildId} {o : Option Uuid} {l : Lease Uuid Int} {now : Int}
    (h : ∀ o', o = some o' → l.Live o' now) : Grant now l (useRequest b b o) true l := by
  cases o with
  | none => exact .unrelated
  | some o => simpa [useRequest] using Grant.used (h o rfl)

theorem request_other {c : ManifestCall} {b : BuildId} (h : c.build ≠ b) :
    c.request k b = .unrelated := by
  cases c <;> simp_all [ManifestCall.request, ManifestCall.build, useRequest_other]

/-- A call that replaces one manifest does to the lease of `b` what it does to that manifest. -/
theorem grant_insert {s : Table BuildId BuildResources} {b b' : BuildId} {m m' : BuildResources}
    {c : ManifestCall} {now : Int} (hc : c.build = b') (hm : s.lookup b' = some m)
    (h : b' = b → Grant now (m.lease k) (c.request k b) true (m'.lease k)) :
    Grant now (leaseIn k s b) (c.request k b) true (leaseIn k (s.insert b' m') b) := by
  by_cases hb : b' = b
  · subst hb
    simpa [leaseIn_of_lookup hm] using h rfl
  · rw [leaseIn_insert_ne s (Ne.symm hb), request_other (hc ▸ hb)]
    exact .unrelated

/-- A claim of a manifest with no live lease. -/
theorem leaseIn_claim {s : Table BuildId BuildResources} {b b' : BuildId} {m : BuildResources}
    {o : Uuid} {e e' : DateTime} {l : List CleanupStatus} {now : Int}
    (hm : s.lookup b' = some m) (hfree : ∀ o', ¬ (m.lease k).Live o' now)
    (he : k.stamp e' = k.stamp e) :
    Grant now (leaseIn k s b) ((ManifestCall.claim b' o e l).request k b) true
      (leaseIn k (s.insert b' { m with leaseOwner := some o, leaseExpiresAt := some e' }) b) := by
  refine grant_insert rfl hm ?_
  rintro rfl
  have hl : ({ m with leaseOwner := some o, leaseExpiresAt := some e' } : BuildResources).lease k =
      some (o, (k.stamp e').utc) := rfl
  rw [hl, he]
  simpa [ManifestCall.request] using Grant.claimed hfree

/-- A renewal of a manifest whose lease is live. -/
theorem leaseIn_renew {s : Table BuildId BuildResources} {b b' : BuildId} {m m' : BuildResources}
    {o : Uuid} {e : DateTime} {now : Int} (hm : s.lookup b' = some m)
    (hheld : (m.lease k).Live o now) (hm' : m'.lease k = some (o, (k.stamp e).utc)) :
    Grant now (leaseIn k s b) ((ManifestCall.renew b' o e).request k b) true
      (leaseIn k (s.insert b' m') b) := by
  refine grant_insert rfl hm ?_
  rintro rfl
  simpa [ManifestCall.request, hm'] using Grant.renewed hheld

/-- A release, which drops the lease of its owner only. -/
theorem leaseIn_release {s s' : Table BuildId BuildResources} {b b' : BuildId} {o : Uuid} {now : Int}
    (h : (s' = s ∧ ∀ m, s.lookup b' = some m → m.leaseOwner ≠ some o) ∨
      ∃ m, s.lookup b' = some m ∧ m.leaseOwner = some o ∧
        s' = s.insert b' { m with leaseOwner := none, leaseExpiresAt := none }) :
    Grant now (leaseIn k s b) ((ManifestCall.release b' o).request k b) true (leaseIn k s' b) := by
  by_cases hb : b' = b
  · subst hb
    have hdrop : leaseIn k s' b' = (leaseIn k s b').dropBy o := by
      rcases h with ⟨rfl, hne⟩ | ⟨m, hm, ho, rfl⟩
      · cases hm : s'.lookup b' with
        | none => simp [leaseIn, hm, Lease.dropBy]
        | some m => simpa [leaseIn, hm] using (dropBy_of_ne (hne m hm)).symm
      · simpa [leaseIn_of_lookup hm] using lease_release m o ho
    rw [hdrop]
    simpa [ManifestCall.request] using (Grant.released : Grant now _ (.release o) true _)
  · have hkeep : leaseIn k s' b = leaseIn k s b := by
      rcases h with ⟨rfl, -⟩ | ⟨m, -, -, rfl⟩
      · rfl
      · exact leaseIn_insert_ne s (Ne.symm hb) _
    rw [hkeep, request_other (c := .release b' o) hb]
    exact .unrelated

/-- An update, conditioned on the lease where it names an owner, that keeps the lease. -/
theorem leaseIn_use {s : Table BuildId BuildResources} {b b' : BuildId} {m m' : BuildResources}
    {o : Option Uuid} {now : Int} (hm : s.lookup b' = some m)
    (hheld : ∀ o', o = some o' → (m.lease k).Live o' now) (hm' : m'.lease k = m.lease k) :
    Grant now (leaseIn k s b) (useRequest b b' o) true (leaseIn k (s.insert b' m') b) := by
  by_cases hb : b' = b
  · subst hb
    simpa [leaseIn_of_lookup hm, hm'] using grant_use hheld
  · rw [leaseIn_insert_ne s (Ne.symm hb), useRequest_other hb]
    exact .unrelated

end

namespace InMemoryRepository

theorem live_of_heldBy {m : BuildResources} {o : Uuid} {clock : Int}
    (h : m.heldBy o (.now clock)) : (m.lease .inMemory).Live o clock :=
  (m.heldBy_iff_live o clock).mp h

/-- The in-memory store serves the lease. -/
theorem grant (b : BuildId) (clock : Int) (c : ManifestCall) (s : Repository) :
    Grant clock (leaseIn .inMemory s.buildResources b) (c.request .inMemory b)
      (Backend.perform .inMemory (.now clock) c s).1.ok
      (leaseIn .inMemory (Backend.perform .inMemory (.now clock) c s).2.buildResources b) := by
  cases c with
  | claim b' o e l =>
      rcases h : claimBuildLease s (.now clock) b' o e l with ⟨r, s'⟩
      simp only [Backend.perform, h, ManifestReply.ok]
      rcases claimBuildLease_cases h with ⟨rfl, rfl⟩ | ⟨m, hm, -, hfree, rfl, rfl⟩
      · exact .refused
      · refine leaseIn_claim hm (fun o' => ?_) rfl
        rcases hfree with hfree | hfree
        · exact not_live_of_free hfree o' clock
        · exact not_live_of_expired (fun e' he' => by
            simpa [leaseExpired, he', Backend.stamp] using hfree) o'
  | renew b' o e =>
      rcases h : renewBuildLease s (.now clock) b' o e with ⟨ok, s'⟩
      simp only [Backend.perform, h, ManifestReply.ok]
      rcases renewBuildLease_cases h with ⟨rfl, rfl⟩ | ⟨m, hm, hheld, rfl, rfl⟩
      · exact .refused
      · exact leaseIn_renew hm (live_of_heldBy hheld) (by simp [BuildResources.lease, hheld.1])
  | release b' o =>
      refine leaseIn_release ?_
      rcases releaseBuildLease_cases (s := s) (b := b') (o := o) rfl with ⟨hs, hne⟩ |
          ⟨m, hm, ho, hs⟩
      · exact .inl ⟨by simp only [Backend.perform, hs], hne⟩
      · exact .inr ⟨m, hm, ho, by simp only [Backend.perform, hs]⟩
  | put b' x o =>
      rcases h : putBuildResource s (.now clock) b' x o with ⟨r, s'⟩
      simp only [Backend.perform, h, ManifestReply.ok]
      rcases putBuildResource_cases h with ⟨hr, rfl⟩ | ⟨m, hm, hheld, rfl, rfl⟩
      · rw [hr]; exact .refused
      · exact leaseIn_use hm (fun o' ho' => live_of_heldBy (hheld o' ho')) rfl
  | update b' f e =>
      rcases h : updateBuildResources s (.now clock) b' f.1 e with ⟨r, s'⟩
      simp only [Backend.perform, h, ManifestReply.ok]
      rcases updateBuildResources_cases h with ⟨rfl, rfl⟩ | ⟨m, hm, he, hexp, rfl, rfl⟩
      · exact .refused
      · exact leaseIn_use hm (fun o' ho' => live_of_heldBy
          ⟨ResourceExpectation.holds_owner he ho', hexp (by simp [ho'])⟩)
          (lease_modelCopy m f.1 f.2)

/-- A call that fails changes nothing. -/
theorem unchanged (now : DateTime) (c : ManifestCall) (s : Repository)
    (h : (Backend.perform .inMemory now c s).1.ok = false) :
    (Backend.perform .inMemory now c s).2 = s := by
  cases c with
  | claim b o e l =>
      rcases hc : claimBuildLease s now b o e l with ⟨r, s'⟩
      simp only [Backend.perform, hc, ManifestReply.ok] at h ⊢
      rcases claimBuildLease_cases hc with ⟨rfl, rfl⟩ | ⟨m, -, -, -, rfl, -⟩
      · rfl
      · simp at h
  | renew b o e =>
      rcases hc : renewBuildLease s now b o e with ⟨r, s'⟩
      simp only [Backend.perform, hc, ManifestReply.ok] at h ⊢
      rcases renewBuildLease_cases hc with ⟨-, rfl⟩ | ⟨m, -, -, rfl, -⟩
      · rfl
      · simp at h
  | release b o => simp [Backend.perform, ManifestReply.ok] at h
  | put b x o =>
      rcases hc : putBuildResource s now b x o with ⟨r, s'⟩
      simp only [Backend.perform, hc, ManifestReply.ok] at h ⊢
      rcases putBuildResource_cases hc with ⟨-, rfl⟩ | ⟨m, -, -, rfl, -⟩
      · rfl
      · simp [Except.isOk, Except.toBool] at h
  | update b f e =>
      rcases hc : updateBuildResources s now b f.1 e with ⟨r, s'⟩
      simp only [Backend.perform, hc, ManifestReply.ok] at h ⊢
      rcases updateBuildResources_cases hc with ⟨rfl, rfl⟩ | ⟨m, -, -, -, rfl, -⟩
      · rfl
      · simp at h

end InMemoryRepository

namespace MongoRepository

/-- Truncating the clock as well does not change which BSON dates it has passed. -/
theorem bson_now_lt (e : DateTime) (clock : Int) :
    (DateTime.now clock).bson.utc < e.bson.utc ↔ clock < e.bson.utc := by
  simp only [DateTime.utc_bson, DateTime.utc_now]
  omega

theorem live_of_matchesGt {m : BuildResources} {o : Uuid} {clock : Int}
    (ho : m.leaseOwner = some o) (h : matchesGt m.leaseExpiresAt (.now clock) = true) :
    (m.lease .mongo).Live o clock := by
  unfold matchesGt at h
  split at h
  · cases h
  · next e he =>
      refine ⟨e.bson.utc, ?_, (bson_now_lt e clock).mp (by simpa using h)⟩
      simp [BuildResources.lease, ho, he, Backend.stamp]

theorem not_live_of_matchesLte {m : BuildResources} {clock : Int}
    (h : matchesLte m.leaseExpiresAt (.now clock) = true) (o : Uuid) :
    ¬ (m.lease .mongo).Live o clock := by
  unfold matchesLte at h
  split at h
  · cases h
  · next e he =>
      refine not_live_of_expired (fun e' he' => ?_) o
      cases Option.some.inj (he.symm.trans he')
      by_contra hlt
      exact absurd ((bson_now_lt e clock).mpr (not_le.mp hlt)) (not_lt.mpr (by simpa using h))

/-- What `update_build_resources` does to a document. -/
theorem updateBuildResources_cases {s s' : ManifestCollection} {clock : Int} {b : BuildId}
    {f : ResourceFields} {e : ResourceExpectation} {r : Option BuildResources}
    (h : updateBuildResources s (.now clock) b f e = (r, s')) :
    (r = none ∧ s' = s) ∨
    ∃ m, s.lookup b = some m ∧ (∀ o, e.owner = some o → (m.lease .mongo).Live o clock) ∧
      r = some (setFields f m) ∧ s' = s.insert b (setFields f m) := by
  rcases findOneAndUpdate_cases h with ⟨rfl, rfl⟩ | ⟨m, hm, hq, rfl, rfl⟩
  · exact .inl ⟨rfl, rfl⟩
  · simp only [Bool.and_eq_true, Bool.or_eq_true] at hq
    refine .inr ⟨m, hm, fun o ho => ?_, rfl, rfl⟩
    exact live_of_matchesGt (ResourceExpectation.holds_owner hq.1 ho) (by simpa [ho] using hq.2)

/-- An update that does not mention the expiry keeps the lease. -/
theorem lease_setFields (m : BuildResources) (f : ResourceFields)
    (hf : f.leaseExpiresAt.Untouched) : (setFields f m).lease .mongo = m.lease .mongo := by
  unfold setFields
  cases hx : f.leaseExpiresAt with
  | keep => rfl
  | set x => rw [hx] at hf; exact hf.elim

/-- The MongoDB store serves the lease. -/
theorem grant (b : BuildId) (clock : Int) (c : ManifestCall) (s : ManifestCollection) :
    Grant clock (leaseIn .mongo s b) (c.request .mongo b)
      (Backend.perform .mongo (.now clock) c s).1.ok
      (leaseIn .mongo (Backend.perform .mongo (.now clock) c s).2 b) := by
  cases c with
  | claim b' o e l =>
      rcases h : claimBuildLease s (.now clock) b' o e l with ⟨r, s'⟩
      simp only [Backend.perform, h, ManifestReply.ok]
      rcases findOneAndUpdate_cases h with ⟨rfl, rfl⟩ | ⟨m, hm, hq, rfl, rfl⟩
      · exact .refused
      · simp only [Bool.and_eq_true, Bool.or_eq_true, Option.isNone_iff_eq_none] at hq
        refine leaseIn_claim hm (fun o' => ?_) (DateTime.bson_bson e)
        rcases hq.2 with hfree | hfree
        · exact not_live_of_free hfree o' clock
        · exact not_live_of_matchesLte hfree o'
  | renew b' o e =>
      rcases h : updateBuildResources s (.now clock) b' { leaseExpiresAt := .set (some e) }
        { leaseOwner := .eq (some o) } with ⟨r, s'⟩
      simp only [Backend.perform, renewBuildLease, h, ManifestReply.ok]
      rcases updateBuildResources_cases h with ⟨rfl, rfl⟩ | ⟨m, hm, hl, rfl, rfl⟩
      · exact .refused
      · have hlive := hl o rfl
        have howner : m.leaseOwner = some o := by
          obtain ⟨t, ht, -⟩ := hlive
          unfold BuildResources.lease at ht
          split at ht
          · next o' _ ho' _ => cases ht; exact ho'
          · cases ht
        refine leaseIn_renew hm hlive ?_
        simp [BuildResources.lease, setFields, howner, Backend.stamp]
  | release b' o =>
      refine leaseIn_release ?_
      rcases h : findOneAndUpdate s b' (fun m => m.leaseOwner == some o)
        (fun m => { m with leaseOwner := none, leaseExpiresAt := none }) with ⟨r, s'⟩
      simp only [Backend.perform, releaseBuildLease, h]
      rcases findOneAndUpdate_cases h with ⟨rfl, rfl⟩ | ⟨m, hm, hq, rfl, rfl⟩
      · refine .inl ⟨rfl, fun m hm ho => ?_⟩
        simp [findOneAndUpdate, hm, ho] at h
      · exact .inr ⟨m, hm, by simpa using hq, rfl⟩
  | put b' x o =>
      rcases h : putBuildResource s (.now clock) b' x o with ⟨r, s'⟩
      simp only [Backend.perform, h, ManifestReply.ok]
      rcases putBuildResource_cases h with ⟨hr, rfl⟩ | ⟨m, hm, hq, rfl, rfl⟩
      · rw [hr]; exact .refused
      · refine leaseIn_use hm (fun o' ho' => ?_) rfl
        subst ho'
        simp only [ownerQuery, Bool.and_eq_true, beq_iff_eq] at hq
        exact live_of_matchesGt hq.1 hq.2
  | update b' f e =>
      rcases h : updateBuildResources s (.now clock) b' f.1 e with ⟨r, s'⟩
      simp only [Backend.perform, h, ManifestReply.ok]
      rcases updateBuildResources_cases h with ⟨rfl, rfl⟩ | ⟨m, hm, hl, rfl, rfl⟩
      · exact .refused
      · exact leaseIn_use hm hl (lease_setFields m f.1 f.2)

/-- A call that fails changes nothing. -/
theorem unchanged (now : DateTime) (c : ManifestCall) (s : ManifestCollection)
    (h : (Backend.perform .mongo now c s).1.ok = false) :
    (Backend.perform .mongo now c s).2 = s := by
  cases c with
  | claim b o e l =>
      rcases hc : claimBuildLease s now b o e l with ⟨r, s'⟩
      simp only [Backend.perform, hc, ManifestReply.ok] at h ⊢
      rcases findOneAndUpdate_cases hc with ⟨-, rfl⟩ | ⟨m, -, -, rfl, -⟩
      · rfl
      · simp at h
  | renew b o e =>
      rcases hc : updateBuildResources s now b { leaseExpiresAt := .set (some e) }
        { leaseOwner := .eq (some o) } with ⟨r, s'⟩
      simp only [Backend.perform, renewBuildLease, hc, ManifestReply.ok] at h ⊢
      rcases findOneAndUpdate_cases hc with ⟨-, rfl⟩ | ⟨m, -, -, rfl, -⟩
      · rfl
      · simp at h
  | release b o => simp [Backend.perform, ManifestReply.ok] at h
  | put b x o =>
      rcases hc : putBuildResource s now b x o with ⟨r, s'⟩
      simp only [Backend.perform, hc, ManifestReply.ok] at h ⊢
      rcases putBuildResource_cases hc with ⟨-, rfl⟩ | ⟨m, -, -, rfl, -⟩
      · rfl
      · simp [Except.isOk, Except.toBool] at h
  | update b f e =>
      rcases hc : updateBuildResources s now b f.1 e with ⟨r, s'⟩
      simp only [Backend.perform, hc, ManifestReply.ok] at h ⊢
      rcases findOneAndUpdate_cases hc with ⟨-, rfl⟩ | ⟨m, -, -, rfl, -⟩
      · rfl
      · simp at h

end MongoRepository

/-! ### Fencing -/

/-- Either store, with the lease of manifest `b`. -/
def Backend.leaseStore (k : Backend) (b : BuildId) : LeaseStore Uuid Int where
  State := k.Store
  Call := ManifestCall
  perform clock c s := ((k.perform (.now clock) c s).1.ok, (k.perform (.now clock) c s).2)
  lease s := leaseIn k (k.manifests s) b
  request := ManifestCall.request k b
  grant clock c s := match k, s with
    | .inMemory, s => InMemoryRepository.grant b clock c s
    | .mongo, s => MongoRepository.grant b clock c s
  unchanged _ c s h := match k, s with
    | .inMemory, s => InMemoryRepository.unchanged _ c s h
    | .mongo, s => MongoRepository.unchanged _ c s h

/-- `o` is recorded as the owner of manifest `b`, with an expiry the clock has not reached. -/
def Backend.Holds (k : Backend) (s : k.Store) (clock : Int) (b : BuildId) (o : Uuid) : Prop :=
  ∃ m e, (k.manifests s).lookup b = some m ∧ m.leaseOwner = some o ∧
    m.leaseExpiresAt = some e ∧ clock < (k.stamp e).utc

theorem Backend.holds_iff_live (k : Backend) (s : k.Store) (clock : Int) (b : BuildId) (o : Uuid) :
    k.Holds s clock b o ↔ (leaseIn k (k.manifests s) b).Live o clock := by
  unfold Holds leaseIn
  cases (k.manifests s).lookup b with
  | none => simp [Lease.Live]
  | some m =>
      rcases ho : m.leaseOwner with _ | o' <;> rcases he : m.leaseExpiresAt with _ | e <;>
        simp [Lease.Live, BuildResources.lease, ho, he]

/-- A granted claim found the manifest in a status it allows. -/
theorem Backend.status_of_claim (k : Backend) {now : DateTime} {s : k.Store} {b : BuildId}
    {o : Uuid} {e : DateTime} {l : List CleanupStatus}
    (h : (k.perform now (.claim b o e l) s).1.ok = true) :
    ∃ m, (k.manifests s).lookup b = some m ∧ m.cleanupStatus ∈ l := by
  cases k with
  | inMemory =>
      rcases hc : InMemoryRepository.claimBuildLease s now b o e l with ⟨r, s'⟩
      simp only [perform, hc, ManifestReply.ok] at h
      rcases InMemoryRepository.claimBuildLease_cases hc with ⟨rfl, -⟩ | ⟨m, hm, hl, -⟩
      · simp at h
      · exact ⟨m, hm, hl⟩
  | mongo =>
      rcases hc : MongoRepository.claimBuildLease s now b o e l with ⟨r, s'⟩
      simp only [perform, hc, ManifestReply.ok] at h
      rcases MongoRepository.findOneAndUpdate_cases hc with ⟨rfl, -⟩ | ⟨m, hm, hq, -⟩
      · simp at h
      · simp only [Bool.and_eq_true, decide_eq_true_eq] at hq
        exact ⟨m, hm, hq.1⟩

/-- **Manifest fencing.**  In both stores, an owner that does not hold the lease (it expired, was
released or was taken over) holds it at no later point, whoever calls what and however far the
clock moves, until a claim of its own is granted: every renewal and every fenced update it tries
there fails and changes nothing.  And a claim is granted only while nobody holds the lease, in a
status it allows. -/
theorem manifest_fencing (k : Backend) (b : BuildId) :
    (∀ (o : Uuid) (clock : Int) (s : k.Store) (steps : List (TimedStep ManifestCall Int)),
      ¬ k.Holds s clock b o → LeaseStore.NoClaim (S := k.leaseStore b) o (clock, s) steps →
      ∀ c : ManifestCall, c.FencedBy b o →
        let x := (k.leaseStore b).play (clock, s) steps
        (k.perform (.now x.1) c x.2).1.ok = false ∧ (k.perform (.now x.1) c x.2).2 = x.2) ∧
    (∀ (o : Uuid) (clock : Int) (s : k.Store) (e : DateTime) (l : List CleanupStatus),
      (k.perform (.now clock) (.claim b o e l) s).1.ok = true →
        (∀ o', ¬ k.Holds s clock b o') ∧
        ∃ m, (k.manifests s).lookup b = some m ∧ m.cleanupStatus ∈ l) := by
  refine ⟨fun o clock s steps hout hno c hc => ?_, fun o clock s e l hok => ⟨fun o' => ?_, ?_⟩⟩
  · rw [k.holds_iff_live] at hout
    refine LeaseStore.fails_of_out (S := k.leaseStore b) ?_ (LeaseStore.out_of_out hout hno)
    cases c with
    | claim => exact hc.elim
    | release => exact hc.elim
    | renew b' o' e =>
        obtain ⟨rfl, rfl⟩ := hc
        exact .inr ⟨_, if_pos rfl⟩
    | put b' x o' =>
        obtain ⟨rfl, rfl⟩ := hc
        exact .inl (if_pos rfl)
    | update b' f e =>
        obtain ⟨rfl, he⟩ := hc
        refine .inl ?_
        change useRequest b' b' e.owner = .use o
        rw [he]
        exact if_pos rfl
  · rw [k.holds_iff_live]
    have hg := (k.leaseStore b).grant clock (.claim b o e l) s
    have hr : (k.leaseStore b).request (.claim b o e l) = .claim o (k.stamp e).utc := if_pos rfl
    rw [show ((k.leaseStore b).perform clock (.claim b o e l) s).1 = true from hok, hr] at hg
    exact hg.free_of_claim o'
  · exact k.status_of_claim hok

/-- A worker whose lease ran out while another one took over cannot renew. -/
theorem manifest_fencing_takeover :
    let b : BuildId := ⟨0, 0⟩
    let m : BuildResources :=
      { buildId := b, appid := "shop", leaseOwner := some ⟨1, 0⟩,
        leaseExpiresAt := some ⟨120, some 0⟩ }
    let s : Repository := { buildResources := (∅ : Table BuildId BuildResources).insert b m }
    let steps : List (TimedStep ManifestCall Int) :=
      [.wait 200, .call (.claim b ⟨2, 0⟩ ⟨320, some 0⟩ [.notStarted]), .wait 250]
    let x := (Backend.leaseStore .inMemory b).play (130, s) steps
    (Backend.perform .inMemory (.now x.1) (.renew b ⟨1, 0⟩ ⟨400, some 0⟩) x.2).1.ok = false :=
  ((manifest_fencing .inMemory ⟨0, 0⟩).1 ⟨1, 0⟩ 130 _ _
    (by rintro ⟨m, e, hm, -, he, hlt⟩
        cases (AList.lookup_insert _).symm.trans hm
        cases he
        exact absurd hlt (by decide))
    (by simp [LeaseStore.NoClaim, LeaseStore.GrantsClaim, Backend.leaseStore,
      ManifestCall.request]) (.renew ⟨0, 0⟩ ⟨1, 0⟩ ⟨400, some 0⟩) ⟨rfl, rfl⟩).1

end Orchestrator
