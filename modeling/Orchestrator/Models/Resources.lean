import Orchestrator.Models.Scalars
import Mathlib.Data.List.Nodup
import Mathlib.Tactic.Simps.Basic

/-!
# Models — the resource manifest of a build

`BuildResource` and `BuildResources` of `models.py`, and the two arguments of
`update_build_resources`.  Left out are the timestamps that only feed listings and reports
(`created_at`, `updated_at`, `started_at`, `finished_at`, `cleanup_requested_at`).
-/

namespace Orchestrator

/-- The keys the code uses in `BuildResource.metadata`. -/
inductive MetaKey where
  | creationToken | digest | buildId | composeService | serviceId | nodeId | port | protocol
  | serviceName | volumeAlias | registryStorageStatus
  deriving DecidableEq, Repr

/-- A metadata dictionary; a key may be present with the value `None`. -/
abbrev Metadata := List (MetaKey × Option String)

namespace Metadata

/-- `metadata.get(key)`. -/
def get (m : Metadata) (key : MetaKey) : Option String :=
  match m.find? (·.1 == key) with
  | some (_, v) => v
  | none => none

/-- `key in metadata`. -/
def has (m : Metadata) (key : MetaKey) : Bool := m.any (·.1 == key)

/-- `{**m, **extra}`. -/
def merge (m extra : Metadata) : Metadata := extra ++ m.filter fun e => !extra.has e.1

/-- The later dictionary wins. -/
theorem get_merge (m extra : Metadata) (key : MetaKey) :
    (m.merge extra).get key = if extra.has key then extra.get key else m.get key := by
  unfold get merge
  rw [List.find?_append]
  split_ifs with h
  · obtain ⟨e, he, hk⟩ := List.any_eq_true.mp h
    have hsome : (extra.find? (·.1 == key)).isSome = true := List.find?_isSome.mpr ⟨e, he, hk⟩
    rw [Option.or_of_isSome hsome]
  · have hnone : extra.find? (·.1 == key) = none :=
      List.find?_eq_none.mpr fun e he hk => h (List.any_eq_true.mpr ⟨e, he, hk⟩)
    have hfind : (m.filter fun e => !extra.has e.1).find? (·.1 == key) = m.find? (·.1 == key) := by
      induction m with
      | nil => rfl
      | cons e m ih =>
          by_cases hk : e.1 = key
          · simp [hk, h]
          · by_cases hx : extra.has e.1 = true <;> simp [hk, hx, ih]
    rw [hnone, Option.none_or, hfind]

end Metadata

/-- What `resource_key` digests. -/
structure ResourceKey where
  kind : ResourceKind
  target : String
  name : String
  deriving DecidableEq, Repr

structure BuildResource where
  kind : ResourceKind
  name : String
  target : String := "docker"
  nativeId : Option String := none
  managed : Bool := true
  state : ResourceState := .planned
  metadata : Metadata := []
  error : Option String := none
  deriving DecidableEq, Repr

/-- `resource_key(kind, target, name)`; the digest is taken to be injective. -/
def resourceKey (kind : ResourceKind) (target name : String) : ResourceKey := ⟨kind, target, name⟩

def BuildResource.key (r : BuildResource) : ResourceKey := resourceKey r.kind r.target r.name

/-- The `resources` dictionary, in insertion order. -/
abbrev ResourceMap := List BuildResource

namespace ResourceMap

def get (m : ResourceMap) (key : ResourceKey) : Option BuildResource :=
  m.find? (·.key == key)

/-- `m[r.key] = r`: in place where the key is present, else at the end. -/
def put (m : ResourceMap) (r : BuildResource) : ResourceMap :=
  if m.any (·.key == r.key) then m.map fun old => if old.key == r.key then r else old
  else m ++ [r]

/-- No two resources have the same key. -/
def Distinct (m : ResourceMap) : Prop := (m.map BuildResource.key).Nodup

variable {m : ResourceMap} {r : BuildResource}

theorem key_of_get {k : ResourceKey} (h : m.get k = some r) : r.key = k := by
  simpa using List.find?_some h

/-- Where keys are distinct, every resource is found. -/
theorem Distinct.get (h : m.Distinct) (hr : r ∈ m) : m.get r.key = some r := by
  induction m with
  | nil => cases hr
  | cons x m ih =>
      obtain ⟨hx, hm⟩ := List.nodup_cons.mp h
      rcases List.mem_cons.mp hr with rfl | hr
      · simp [ResourceMap.get]
      · have hne : x.key ≠ r.key := fun e => hx (e ▸ List.mem_map_of_mem hr)
        simpa [ResourceMap.get, hne] using ih hm hr

/-- What is stored is found, and nothing else has changed. -/
theorem get_put (m : ResourceMap) (r : BuildResource) (k : ResourceKey) :
    (m.put r).get k = if k = r.key then some r else m.get k := by
  have hmap (m : ResourceMap) (hany : m.any (·.key == r.key) = true) :
      get (m.map fun old => if old.key == r.key then r else old) r.key = some r := by
    induction m with
    | nil => cases hany
    | cons x m ih =>
        by_cases hx : x.key = r.key
        · simp [ResourceMap.get, hx]
        · have hm : m.any (·.key == r.key) = true := by simpa [hx] using hany
          simpa [ResourceMap.get, hx] using ih hm
  have hother (m : ResourceMap) (hk : k ≠ r.key) :
      get (m.map fun old => if old.key == r.key then r else old) k = get m k := by
    induction m with
    | nil => rfl
    | cons x m ih =>
        simp only [ResourceMap.get, List.map_cons, List.find?_cons] at ih ⊢
        by_cases hx : x.key = r.key
        · rw [hx, beq_self_eq_true, if_pos rfl, beq_false_of_ne (Ne.symm hk)]
          exact ih
        · rw [beq_false_of_ne hx, if_neg Bool.false_ne_true, ih]
  unfold put
  split
  · next hany =>
      split_ifs with hk
      · rw [hk]
        exact hmap m hany
      · exact hother m hk
  · next hany =>
      split_ifs with hk
      · rw [hk, ResourceMap.get, List.find?_append, List.find?_eq_none.mpr fun x hx => ?_]
        · simp
        · exact fun h => hany (List.any_eq_true.mpr ⟨x, hx, h⟩)
      · rw [ResourceMap.get, List.find?_append, List.find?_cons_of_neg (by simpa using Ne.symm hk)]
        simp [ResourceMap.get]

theorem Distinct.put (h : m.Distinct) (r : BuildResource) : (m.put r).Distinct := by
  unfold ResourceMap.put Distinct
  split
  · have hkeys : (m.map fun old => if old.key == r.key then r else old).map BuildResource.key =
        m.map BuildResource.key := by
      rw [List.map_map]
      refine List.map_congr_left fun x _ => ?_
      by_cases hx : x.key = r.key
      · simp [hx]
      · simp [hx]
    rw [hkeys]
    exact h
  · next hany =>
      rw [List.map_append, List.map_singleton, List.nodup_append]
      refine ⟨h, List.nodup_singleton _, fun k hk k' hk' => ?_⟩
      rw [List.mem_singleton.mp hk']
      rintro rfl
      obtain ⟨x, hx, he⟩ := List.mem_map.mp hk
      exact hany (List.any_eq_true.mpr ⟨x, hx, beq_iff_eq.mpr he⟩)

theorem Distinct.foldl (h : m.Distinct) (l : List BuildResource) : Distinct (l.foldl ResourceMap.put m) := by
  induction l generalizing m with
  | nil => exact h
  | cons r l ih => exact ih (h.put r)

end ResourceMap

structure BuildResources where
  buildId : BuildId
  appid : String
  ownershipVersion : Nat := 1
  namespace_ : Option String := none
  repositoryUrl : Option String := none
  environmentCiphertext : Option String := none
  jenkinsTriggerPending : Bool := false
  resources : ResourceMap := []
  cleanupStatus : CleanupStatus := .notStarted
  cleanupGeneration : Nat := 0
  leaseOwner : Option Uuid := none
  leaseExpiresAt : Option DateTime := none
  lastError : Option String := none
  registryStorageStatus : String := "not_applicable"
  deriving DecidableEq, Repr

/-- The `fields` of `update_build_resources`. -/
structure ResourceFields where
  ownershipVersion : Change Nat := .keep
  namespace_ : Change (Option String) := .keep
  repositoryUrl : Change (Option String) := .keep
  environmentCiphertext : Change (Option String) := .keep
  jenkinsTriggerPending : Change Bool := .keep
  resources : Change ResourceMap := .keep
  cleanupStatus : Change CleanupStatus := .keep
  cleanupGeneration : Change Nat := .keep
  leaseExpiresAt : Change (Option DateTime) := .keep
  lastError : Change (Option String) := .keep
  registryStorageStatus : Change String := .keep

/-- `model_copy(update=fields)`. -/
@[simps] def BuildResources.modelCopy (m : BuildResources) (f : ResourceFields) :
    BuildResources where
  buildId := m.buildId
  appid := m.appid
  ownershipVersion := f.ownershipVersion.apply m.ownershipVersion
  namespace_ := f.namespace_.apply m.namespace_
  repositoryUrl := f.repositoryUrl.apply m.repositoryUrl
  environmentCiphertext := f.environmentCiphertext.apply m.environmentCiphertext
  jenkinsTriggerPending := f.jenkinsTriggerPending.apply m.jenkinsTriggerPending
  resources := f.resources.apply m.resources
  cleanupStatus := f.cleanupStatus.apply m.cleanupStatus
  cleanupGeneration := f.cleanupGeneration.apply m.cleanupGeneration
  leaseOwner := m.leaseOwner
  leaseExpiresAt := f.leaseExpiresAt.apply m.leaseExpiresAt
  lastError := f.lastError.apply m.lastError
  registryStorageStatus := f.registryStorageStatus.apply m.registryStorageStatus

/-- The `expected` of `update_build_resources`. -/
structure ResourceExpectation where
  ownershipVersion : Expect Nat := .any
  namespace_ : Expect (Option String) := .any
  repositoryUrl : Expect (Option String) := .any
  environmentCiphertext : Expect (Option String) := .any
  jenkinsTriggerPending : Expect Bool := .any
  resources : Expect ResourceMap := .any
  cleanupStatus : Expect CleanupStatus := .any
  cleanupGeneration : Expect Nat := .any
  leaseOwner : Expect (Option Uuid) := .any
  lastError : Expect (Option String) := .any
  registryStorageStatus : Expect String := .any

/-- `all(getattr(m, key) == value for key, value in expected.items())`. -/
def ResourceExpectation.holds (e : ResourceExpectation) (m : BuildResources) : Bool :=
  e.ownershipVersion.holds m.ownershipVersion && e.namespace_.holds m.namespace_ &&
  e.repositoryUrl.holds m.repositoryUrl &&
  e.environmentCiphertext.holds m.environmentCiphertext &&
  e.jenkinsTriggerPending.holds m.jenkinsTriggerPending && e.resources.holds m.resources &&
  e.cleanupStatus.holds m.cleanupStatus && e.cleanupGeneration.holds m.cleanupGeneration &&
  e.leaseOwner.holds m.leaseOwner && e.lastError.holds m.lastError &&
  e.registryStorageStatus.holds m.registryStorageStatus

/-- The owner an update is conditioned on (`expected.get("lease_owner")`). -/
def ResourceExpectation.owner (e : ResourceExpectation) : Option Uuid :=
  match e.leaseOwner with
  | .any => none
  | .eq o => o

namespace ResourceExpectation
variable {e : ResourceExpectation} {m : BuildResources}

theorem holds_owner (h : e.holds m = true) {o : Uuid} (ho : e.owner = some o) :
    m.leaseOwner = some o := by
  simp only [holds, Bool.and_eq_true] at h
  have hl := h.1.1.2
  unfold owner at ho
  split at ho
  · cases ho
  · next o' he => rw [he] at hl; simpa [ho] using hl

theorem holds_status (h : e.holds m = true) {s : CleanupStatus} (hs : e.cleanupStatus = .eq s) :
    m.cleanupStatus = s := by
  simp only [holds, Bool.and_eq_true] at h
  simpa [hs] using h.1.1.1.1.2

end ResourceExpectation

end Orchestrator
