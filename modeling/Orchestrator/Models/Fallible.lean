import Mathlib.Data.List.Forall2
import Orchestrator.Repository.InMemory

/-!
# Models — fallible steps

What a computation that may raise has done when it has not.

* `bind_ok`: a step, and then the next.
* `checkEach`, `mapM_ok`, `mapM_some`: a loop over a list.
* `forall₂_mem_left`, `forall₂_mem_right`, `forall₂_trans`: what such a loop says of an element.
-/

namespace Orchestrator

/-- A result of two steps is a result of the second on one of the first. -/
theorem bind_ok {ε α β : Type} {x : Except ε α} {f : α → Except ε β} {b : β}
    (h : x >>= f = .ok b) : ∃ a, x = .ok a ∧ f a = .ok b := by
  cases x with
  | error e => cases h
  | ok a => exact ⟨a, rfl, h⟩

/-- What is left of a result without its error. -/
theorem toOption_eq_some {ε α : Type} {x : Except ε α} {a : α} :
    x.toOption = some a ↔ x = .ok a := by
  cases x with
  | error e =>
      constructor
      · intro h
        cases h
      · intro h
        cases h
  | ok b => exact ⟨fun h => congrArg _ (Option.some.inj h), fun h => congrArg _ (Except.ok.inj h)⟩

/-- `for a in l: check(a)`. -/
def checkEach {α : Type} (l : List α) (check : α → Except Exc Unit) : Except Exc Unit :=
  match l with
  | [] => .ok ()
  | a :: l => do check a; checkEach l check

/-- A loop of checks passes if each check does. -/
theorem checkEach_ok {α : Type} {l : List α} {check : α → Except Exc Unit} :
    checkEach l check = .ok () ↔ ∀ a ∈ l, check a = .ok () := by
  induction l with
  | nil => simp [checkEach]
  | cons a l ih =>
      simp only [checkEach, List.forall_mem_cons, ← ih]
      cases check a <;> simp [bind, Except.bind]

/-- Each result of a loop is one of its element. -/
theorem mapM_ok {ε α β : Type} {f : α → Except ε β} {l : List α} {l' : List β}
    (h : l.mapM f = .ok l') : List.Forall₂ (fun a b => f a = .ok b) l l' := by
  induction l generalizing l' with
  | nil => cases h; exact .nil
  | cons a l ih =>
      rw [List.mapM_cons] at h
      obtain ⟨b, hb, h⟩ := bind_ok h
      obtain ⟨bs, hbs, h⟩ := bind_ok h
      cases h
      exact .cons hb (ih hbs)

/-- The same, where a step may give nothing. -/
theorem mapM_some {α β : Type} {f : α → Option β} {l : List α} {l' : List β}
    (h : l.mapM f = some l') : List.Forall₂ (fun a b => f a = some b) l l' := by
  induction l generalizing l' with
  | nil => cases h; exact .nil
  | cons a l ih =>
      rw [List.mapM_cons] at h
      obtain ⟨b, hb, h⟩ := Option.bind_eq_some_iff.mp h
      obtain ⟨bs, hbs, h⟩ := Option.bind_eq_some_iff.mp h
      cases h
      exact .cons hb (ih hbs)

/-- Each result comes from an element. -/
theorem forall₂_mem_right {α β : Type} {P : α → β → Prop} {l : List α} {l' : List β}
    (h : List.Forall₂ P l l') {b : β} (hb : b ∈ l') : ∃ a ∈ l, P a b := by
  induction h with
  | nil => cases hb
  | cons hab _ ih =>
      rcases List.mem_cons.mp hb with rfl | hb
      · exact ⟨_, List.mem_cons_self, hab⟩
      · obtain ⟨a, ha, hp⟩ := ih hb
        exact ⟨a, List.mem_cons_of_mem _ ha, hp⟩

/-- Two relations of lists make a third. -/
theorem forall₂_trans {α : Type} {P : α → α → Prop} (hP : ∀ a b c, P a b → P b c → P a c)
    {l l' l'' : List α} (h : List.Forall₂ P l l') (h' : List.Forall₂ P l' l'') :
    List.Forall₂ P l l'' := by
  induction h generalizing l'' with
  | nil => cases h'; exact .nil
  | cons hab _ ih => cases h' with | cons hbc h' => exact .cons (hP _ _ _ hab hbc) (ih h')

/-- Each element has a result. -/
theorem forall₂_mem_left {α β : Type} {P : α → β → Prop} {l : List α} {l' : List β}
    (h : List.Forall₂ P l l') {a : α} (ha : a ∈ l) : ∃ b ∈ l', P a b := by
  induction h with
  | nil => cases ha
  | cons hab _ ih =>
      rcases List.mem_cons.mp ha with rfl | ha
      · exact ⟨_, List.mem_cons_self, hab⟩
      · obtain ⟨b, hb, hp⟩ := ih ha
        exact ⟨b, List.mem_cons_of_mem _ hb, hp⟩

theorem mapM_mem {α β : Type} {f : α → Except Exc β} {l : List α} {l' : List β}
    (h : l.mapM f = .ok l') {b : β} (hb : b ∈ l') : ∃ a ∈ l, f a = .ok b :=
  forall₂_mem_right (mapM_ok h) hb

end Orchestrator
