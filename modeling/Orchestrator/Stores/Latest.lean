import Mathlib.Data.List.AList
import Mathlib.Data.List.Induction

/-!
# Stores — the latest record of every identity

A store that replaces a record by the next one of the same identity keeps, of a sequence of
saves, the records that no later one supersedes.

* `Superseded key x post`: a later save has the identity of `x`.
* `Latest key saves x`: `x` was saved, and is superseded by no later save.
* `saveAll_values`: the store after a sequence of saves holds the latest records.
* `latest_agree_iff`: two identities keep the same records, exactly if they supersede alike.
-/

namespace Stores

variable {V K K₁ K₂ : Type}

/-- One of the saves `post` has the identity of `x`. -/
def Superseded (key : V → K) (x : V) (post : List V) : Prop := ∃ y ∈ post, key y = key x

/-- `x` is among the saves, and no later one has its identity. -/
def Latest (key : V → K) (saves : List V) (x : V) : Prop :=
  ∃ pre post, saves = pre ++ x :: post ∧ ¬ Superseded key x post

/-- The store after a sequence of saves, each under its identity. -/
def saveAll [DecidableEq K] (key : V → K) (saves : List V) : AList fun _ : K => V :=
  saves.foldl (fun t x => t.insert (key x) x) ∅

section
variable [DecidableEq K]

/-- What a table holds is what it holds under some key. -/
theorem mem_entries_iff {t : AList fun _ : K => V} {x : V} :
    x ∈ t.entries.map (·.2) ↔ ∃ k, t.lookup k = some x := by
  constructor
  · intro h
    obtain ⟨⟨k, y⟩, hy, rfl⟩ := List.mem_map.mp h
    exact ⟨k, AList.mem_lookup_iff.mpr hy⟩
  · rintro ⟨k, hk⟩
    exact List.mem_map.mpr ⟨⟨k, x⟩, AList.mem_lookup_iff.mp hk, rfl⟩

variable (key : V → K)

/-- Under an identity, the last save with it. -/
theorem lookup_saveAll (saves : List V) (k : K) :
    (saveAll key saves).lookup k = saves.reverse.find? fun x => key x = k := by
  induction saves using List.reverseRecOn with
  | nil => rfl
  | append_singleton saves x ih =>
      simp only [saveAll, List.foldl_append, List.foldl_cons, List.foldl_nil, List.reverse_append,
        List.reverse_cons, List.reverse_nil, List.nil_append, List.singleton_append]
      by_cases h : key x = k
      · subst h
        simp
      · rw [AList.lookup_insert_ne (Ne.symm h), List.find?_cons_of_neg (by simpa using h)]
        exact ih

/-- **Saves.**  The store holds the latest records. -/
theorem saveAll_values (saves : List V) (x : V) :
    x ∈ (saveAll key saves).entries.map (·.2) ↔ Latest key saves x := by
  simp only [mem_entries_iff, lookup_saveAll, List.find?_eq_some_iff_append, decide_eq_true_eq]
  constructor
  · rintro ⟨k, rfl, post, pre, hs, hp⟩
    refine ⟨pre.reverse, post.reverse, ?_, fun ⟨y, hy, he⟩ => ?_⟩
    · rw [← List.reverse_reverse saves, hs]
      simp
    · have := hp y (List.mem_reverse.mp hy)
      simp [he] at this
  · rintro ⟨pre, post, rfl, hp⟩
    refine ⟨key x, rfl, post.reverse, pre.reverse, by simp, fun y hy => ?_⟩
    simpa using fun he => hp ⟨y, List.mem_reverse.mp hy, he⟩

end

section
variable {key₁ : V → K₁} {key₂ : V → K₂} {saves pre post : List V} {x : V}

/-- A record that is the latest by both identities is so by the same save. -/
theorem superseded_of_latest (h : saves = pre ++ x :: post) (h₁ : ¬ Superseded key₂ x post)
    (h₂ : Latest key₁ saves x) : ¬ Superseded key₁ x post := by
  obtain ⟨pre', post', h', hp⟩ := h₂
  rw [h] at h'
  rcases List.append_eq_append_iff.mp h' with ⟨as, hpre, hrest⟩ | ⟨as, hpre, hrest⟩
  · cases as with
    | nil => cases hrest; exact hp
    | cons a as =>
        -- The other save of `x` is among the later ones.
        cases hrest
        exact absurd ⟨x, by simp, rfl⟩ h₁
  · cases as with
    | nil => cases hrest; exact hp
    | cons a as =>
        cases hrest
        exact absurd ⟨x, by simp, rfl⟩ hp

/-- **Two identities.**  They keep the same records of a kind, exactly if they supersede alike. -/
theorem latest_agree_iff (C : V → Prop) :
    (∀ x, C x → (Latest key₁ saves x ↔ Latest key₂ saves x)) ↔
    ∀ pre x post, saves = pre ++ x :: post → C x →
      (Superseded key₁ x post ↔ Superseded key₂ x post) := by
  constructor
  · intro h pre x post hs hx
    rw [← not_iff_not]
    exact ⟨fun h₁ => superseded_of_latest hs h₁ ((h x hx).mp ⟨pre, post, hs, h₁⟩),
      fun h₂ => superseded_of_latest hs h₂ ((h x hx).mpr ⟨pre, post, hs, h₂⟩)⟩
  · intro h x hx
    constructor
    · rintro ⟨pre, post, hs, hp⟩
      exact ⟨pre, post, hs, fun hp' => hp ((h pre x post hs hx).mpr hp')⟩
    · rintro ⟨pre, post, hs, hp⟩
      exact ⟨pre, post, hs, fun hp' => hp ((h pre x post hs hx).mp hp')⟩

end

end Stores
