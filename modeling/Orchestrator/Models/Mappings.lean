import Mathlib.Algebra.GroupWithZero.Nat
import Mathlib.Data.List.Nodup
import Mathlib.Data.List.Sort

/-!
# Models — mappings

A dictionary with texts as keys, as the list of its entries in the order of their insertion.

* `assign`, `update`: `d[k] = v`, and `d.update(e)`.
* `sortKeys`: the entries in the order of their keys.
* `sortKeys_congr`: the order of the entries is all that this drops.
-/

namespace Orchestrator.Mapping

variable {α : Type}

/-- `d[k] = v`. -/
def assign (d : List (String × α)) (k : String) (v : α) : List (String × α) :=
  if k ∈ d.map Prod.fst then d.map fun e => if e.1 = k then (k, v) else e else d ++ [(k, v)]

/-- `d.update(e)`. -/
def update (d e : List (String × α)) : List (String × α) :=
  e.foldl (fun d x => assign d x.1 x.2) d

/-- `{k: d[k] for k in sorted(d)}`. -/
def sortKeys (d : List (String × α)) : List (String × α) :=
  d.insertionSort fun x y => x.1 ≤ y.1

theorem keys_assign (d : List (String × α)) (k : String) (v : α) :
    (assign d k v).map Prod.fst =
      if k ∈ d.map Prod.fst then d.map Prod.fst else d.map Prod.fst ++ [k] := by
  rw [assign]
  split
  · rw [List.map_map]
    refine List.map_congr_left fun e _ => ?_
    rw [Function.comp_apply]
    split
    · next h => exact h.symm
    · rfl
  · rw [List.map_append]
    rfl

theorem nodup_assign {d : List (String × α)} (h : (d.map Prod.fst).Nodup) (k : String) (v : α) :
    ((assign d k v).map Prod.fst).Nodup := by
  rw [keys_assign]
  split
  · exact h
  · next hk =>
      refine List.nodup_append.mpr ⟨h, List.nodup_singleton k, fun a ha b hb e => ?_⟩
      rw [List.mem_singleton] at hb
      rw [hb] at e
      exact hk (e ▸ ha)

theorem mem_keys_assign {d : List (String × α)} {k k' : String} {v : α} :
    k' ∈ (assign d k v).map Prod.fst ↔ k' = k ∨ k' ∈ d.map Prod.fst := by
  rw [keys_assign]
  split
  · next hk =>
      constructor
      · exact .inr
      · rintro (rfl | h)
        · exact hk
        · exact h
  · rw [List.mem_append, List.mem_singleton, or_comm]

/-- New keys are put at the end. -/
theorem update_eq_append {d e : List (String × α)} (h : ((d ++ e).map Prod.fst).Nodup) :
    update d e = d ++ e := by
  induction e generalizing d with
  | nil => simp [update]
  | cons x e ih =>
      have hx : x.1 ∉ d.map Prod.fst := by
        rw [List.map_append, List.map_cons] at h
        exact fun hm => (List.disjoint_of_nodup_append h) hm List.mem_cons_self
      have hassign : assign d x.1 x.2 = d ++ [x] := by rw [assign, if_neg hx]
      have hstep : update d (x :: e) = update (assign d x.1 x.2) e := rfl
      rw [hstep, hassign, ih (by simpa using h)]
      simp

/-- With no key twice, an entry is what its key is looked up to. -/
theorem lookup_eq_some_iff {d : List (String × α)} (h : (d.map Prod.fst).Nodup) {k : String}
    {v : α} : d.lookup k = some v ↔ (k, v) ∈ d := by
  induction d with
  | nil => simp
  | cons e d ih =>
      obtain ⟨k', v'⟩ := e
      rw [List.map_cons, List.nodup_cons] at h
      rw [List.lookup_cons, List.mem_cons, Prod.mk.injEq]
      by_cases hk : k = k'
      · subst hk
        rw [beq_self_eq_true]
        constructor
        · intro e
          exact .inl ⟨rfl, (Option.some.inj e).symm⟩
        · rintro (⟨-, rfl⟩ | hm)
          · rfl
          · exact absurd (List.mem_map_of_mem (f := Prod.fst) hm) h.1
      · rw [beq_false_of_ne hk]
        exact (ih h.2).trans ⟨.inr, fun hm => hm.resolve_left fun e => hk e.1⟩

/-- A key is looked up to what the mapping makes of it. -/
theorem lookup_map_self {f : String → α} {l : List String} {k : String} (h : k ∈ l) :
    (l.map fun x => (x, f x)).lookup k = some (f k) := by
  induction l with
  | nil => cases h
  | cons x l ih =>
      rw [List.map_cons, List.lookup_cons]
      by_cases hx : k = x
      · rw [hx, beq_self_eq_true]
      · rw [beq_false_of_ne hx]
        exact ih ((List.mem_cons.mp h).resolve_left hx)

theorem mem_assign {d : List (String × α)} {k : String} {v : α} {x : String × α}
    (h : x ∈ assign d k v) : x ∈ d ∨ x = (k, v) := by
  unfold assign at h
  split at h
  · obtain ⟨z, hz, rfl⟩ := List.mem_map.mp h
    split
    · exact .inr rfl
    · exact .inl hz
  · rcases List.mem_append.mp h with h | h
    · exact .inl h
    · exact .inr (List.mem_singleton.mp h)

/-- What the values weigh grows by no more than the weight of the new one. -/
theorem sum_assign_le (weight : α → Nat) {d : List (String × α)} (h : (d.map Prod.fst).Nodup)
    (k : String) (v : α) : ((assign d k v).map fun e => weight e.2).sum ≤
      (d.map fun e => weight e.2).sum + weight v := by
  unfold assign
  split
  · next hk =>
      clear hk
      induction d with
      | nil => exact Nat.zero_le _
      | cons e d ih =>
          rw [List.map_cons, List.nodup_cons] at h
          by_cases he : e.1 = k
          · -- No other entry has the key.
            have hrest : (d.map fun e => if e.1 = k then (k, v) else e) = d := by
              refine (List.map_congr_left fun x hx => ?_).trans (List.map_id d)
              refine if_neg fun hxk => h.1 ?_
              rw [he, ← hxk]
              exact List.mem_map_of_mem hx
            rw [List.map_cons, hrest, if_pos he]
            simp only [List.map_cons, List.sum_cons]
            omega
          · have hd := ih h.2
            rw [List.map_cons, if_neg he]
            simp only [List.map_cons, List.sum_cons] at hd ⊢
            omega
  · rw [List.map_append, List.sum_append]
    simp

theorem perm_sortKeys (d : List (String × α)) : (sortKeys d).Perm d :=
  List.perm_insertionSort _ d

theorem pairwise_sortKeys (d : List (String × α)) :
    (sortKeys d).Pairwise fun x y => x.1 ≤ y.1 := by
  have : IsTrans (String × α) fun x y => x.1 ≤ y.1 := ⟨fun x y z h h' => String.le_trans h h'⟩
  have : Std.Total (α := String × α) fun x y => x.1 ≤ y.1 := ⟨fun x y => String.le_total x.1 y.1⟩
  exact List.pairwise_insertionSort _ d

theorem sortKeys_congr {d d' : List (String × α)} (hnd : (d.map Prod.fst).Nodup)
    (h : d.Perm d') : sortKeys d = sortKeys d' := by
  refine @List.Perm.eq_of_pairwise _ (fun x y => x.1 ≤ y.1) _ _ (fun x y hx hy hxy hyx => ?_)
    (pairwise_sortKeys d) (pairwise_sortKeys d')
    ((perm_sortKeys d).trans (h.trans (perm_sortKeys d').symm))
  have hx := (perm_sortKeys d).subset hx
  have hy := h.symm.subset ((perm_sortKeys d').subset hy)
  exact List.inj_on_of_nodup_map hnd hx hy (String.le_antisymm hxy hyx)

end Orchestrator.Mapping
