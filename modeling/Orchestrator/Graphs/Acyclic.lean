import Mathlib.Data.Fintype.Card
import Mathlib.Data.Set.Finite.Basic
import Mathlib.Data.List.Perm.Basic
import Mathlib.Logic.Relation
import Mathlib.Order.WellFounded

/-!
# Graphs — acyclic relations

Relations `E`, where `E a b` says that `a` depends on `b`.

* `Acyclic`: nothing depends on itself, directly or not.
* `Follows`: a list in which everything comes after what it depends on.
* `Acyclic.exists_source`: in a finite part of an acyclic relation, something depends on nothing
  else of it.
* `Follows.acyclic`: what can be listed so has no cycle.
-/

namespace Orchestrator.Graphs

variable {α : Type}

/-- No path of edges comes back. -/
def Acyclic (E : α → α → Prop) : Prop := ∀ a, ¬ Relation.TransGen E a a

/-- Everything in `order` comes after what it depends on, which is in `done` or before it. -/
def FollowsAfter (E : α → α → Prop) : List α → List α → Prop
  | _, [] => True
  | done, a :: order => (∀ b, E a b → b ∈ done) ∧ FollowsAfter E (a :: done) order

/-- Each element comes after those it has edges to. -/
def Follows (E : α → α → Prop) (order : List α) : Prop :=
  ∀ before a after, order = before ++ a :: after → ∀ b, E a b → b ∈ before

variable {E : α → α → Prop}

/-- With fewer edges, none comes back either. -/
theorem Acyclic.mono {E' : α → α → Prop} (h : Acyclic E) (hsub : ∀ a b, E' a b → E a b) :
    Acyclic E' := fun a e =>
  h a (Relation.TransGen.mono hsub a a e)

/-- Some element of a list has no edge from another. -/
theorem Acyclic.exists_source (h : Acyclic E) {l : List α} (hl : l ≠ []) :
    ∃ a ∈ l, ∀ b ∈ l, ¬ E a b := by
  let R : {x // x ∈ l} → {x // x ∈ l} → Prop := fun x y => Relation.TransGen E y.1 x.1
  have hfin : Finite {x // x ∈ l} := List.finite_toSet l
  have htrans : IsTrans {x // x ∈ l} R := ⟨fun x y z hxy hyz => hyz.trans hxy⟩
  have hirrefl : Std.Irrefl R := ⟨fun x e => h x.1 e⟩
  have hwf : WellFounded R := Finite.wellFounded_of_trans_of_irrefl R
  obtain ⟨c, hc⟩ := List.exists_mem_of_ne_nil l hl
  obtain ⟨a, -, ha⟩ := hwf.has_min Set.univ ⟨⟨c, hc⟩, trivial⟩
  exact ⟨a.1, a.2, fun b hb e => ha ⟨b, hb⟩ trivial (.single e)⟩

/-- A relation may say less of the rest of a list, where it says no more of what is done. -/
theorem FollowsAfter.relax {E' : α → α → Prop} {done done' order : List α}
    (h : FollowsAfter E' done' order) (hsub : ∀ a ∈ done', a ∈ done)
    (hE : ∀ a ∈ order, ∀ b, E a b → b ∈ done ∨ E' a b) : FollowsAfter E done order := by
  induction order generalizing done done' with
  | nil => trivial
  | cons a order ih =>
      refine ⟨fun b hb => ?_, ih h.2 (fun x hx => ?_) fun x hx b hb => ?_⟩
      · rcases hE a List.mem_cons_self b hb with e | e
        · exact e
        · exact hsub b (h.1 b e)
      · rcases List.mem_cons.mp hx with rfl | hx
        · exact List.mem_cons_self
        · exact List.mem_cons_of_mem _ (hsub x hx)
      · exact (hE x (List.mem_cons_of_mem _ hx) b hb).imp_left (List.mem_cons_of_mem _)

/-- What depends on nothing new may come first. -/
theorem FollowsAfter.append {done ready order : List α}
    (hready : ∀ a ∈ ready, ∀ b, E a b → b ∈ done)
    (h : FollowsAfter E (done ++ ready) order) : FollowsAfter E done (ready ++ order) := by
  induction ready generalizing done with
  | nil => simpa using h
  | cons a ready ih =>
      refine ⟨hready a List.mem_cons_self, ih (fun x hx b hb =>
        List.mem_cons_of_mem _ (hready x (List.mem_cons_of_mem _ hx) b hb)) ?_⟩
      refine h.relax (fun x hx => ?_) fun x _ b hb => .inr hb
      simp only [List.mem_append, List.mem_cons] at hx ⊢
      tauto

/-- What an element has edges to comes before it, or was done. -/
theorem FollowsAfter.split {done before after : List α} {a : α}
    (h : FollowsAfter E done (before ++ a :: after)) : ∀ b, E a b → b ∈ before ∨ b ∈ done := by
  induction before generalizing done with
  | nil => exact fun b hb => .inr (h.1 b hb)
  | cons x before ih =>
      intro b hb
      rcases ih h.2 b hb with e | e
      · exact .inl (List.mem_cons_of_mem _ e)
      · rcases List.mem_cons.mp e with rfl | e
        · exact .inl List.mem_cons_self
        · exact .inr e

theorem FollowsAfter.follows {order : List α} (h : FollowsAfter E [] order) : Follows E order := by
  rintro before a after rfl b hb
  exact (h.split b hb).resolve_right List.not_mem_nil

/-- What only listed things have is a well-founded dependency, by the place in the list. -/
theorem Follows.acc {order : List α} (h : Follows E order) :
    ∀ n before a after, before.length = n → order = before ++ a :: after →
      Acc (fun x y => E y x) a := by
  intro n
  induction n using Nat.strong_induction_on with
  | h n ih =>
      rintro before a after rfl ho
      refine .intro a fun b hb => ?_
      obtain ⟨s, t, hst⟩ := List.append_of_mem (h before a after ho b hb)
      refine ih s.length ?_ s b (t ++ a :: after) rfl (by rw [ho, hst]; simp)
      rw [hst, List.length_append, List.length_cons]
      omega

/-- Where there is such an order, there is no cycle. -/
theorem Follows.acyclic {order : List α} (h : Follows E order)
    (hall : ∀ a b, E a b → a ∈ order) : Acyclic E := by
  have hwf : WellFounded fun x y => E y x := by
    refine ⟨fun a => ?_⟩
    by_cases ha : a ∈ order
    · obtain ⟨s, t, hst⟩ := List.append_of_mem ha
      exact h.acc s.length s a t rfl hst
    · exact .intro a fun b hb => absurd (hall a b hb) ha
  intro a e
  have hswap : Relation.TransGen (fun x y => E y x) a a := Relation.transGen_swap.mpr e
  exact hwf.transGen.irrefl.irrefl a hswap

end Orchestrator.Graphs
