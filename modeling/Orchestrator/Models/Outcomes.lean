import Mathlib.Data.List.Forall2
import Mathlib.Data.List.Perm.Basic

/-!
# Models — outcomes

Two computations that can fail, compared: both fail, with whatever errors, or their results are
related.

* `Outcomes`: the comparison; `Outcomes.bind`, `Outcomes.toOption_eq`.
* `mapM_perm`, `mapM_forall₂`: a loop over the same elements in another order.
* `foldlM_flatten`: a loop of loops is one loop, where all else is done before.
-/

namespace Orchestrator

variable {ε α β γ δ σ : Type}

/-- Two results are related, or both are errors. -/
inductive Outcomes (R : α → β → Prop) : Except ε α → Except ε β → Prop
  | ok {a : α} {b : β} (h : R a b) : Outcomes R (.ok a) (.ok b)
  | error (e e' : ε) : Outcomes R (.error e) (.error e')

namespace Outcomes

variable {R : α → β → Prop}

/-- A computation compares with itself. -/
theorem refl (x : Except ε α) : Outcomes Eq x x := by
  cases x with
  | ok a => exact .ok rfl
  | error e => exact .error e e

/-- The comparison can be turned round. -/
theorem flip {x : Except ε α} {y : Except ε β} (h : Outcomes R x y) :
    Outcomes (fun b a => R a b) y x := by
  cases h with
  | ok h => exact .ok h
  | error e e' => exact .error e' e

/-- A weaker relation is enough. -/
theorem mono {S : α → β → Prop} {x : Except ε α} {y : Except ε β} (h : Outcomes R x y)
    (hRS : ∀ a b, R a b → S a b) : Outcomes S x y := by
  cases h with
  | ok h => exact .ok (hRS _ _ h)
  | error e e' => exact .error e e'

/-- Comparisons go on from one another. -/
theorem trans {S : β → γ → Prop} {x : Except ε α} {y : Except ε β} {z : Except ε γ}
    (h : Outcomes R x y) (h' : Outcomes S y z) :
    Outcomes (fun a c => ∃ b, R a b ∧ S b c) x z := by
  cases h with
  | ok h => cases h' with
    | ok h' => exact .ok ⟨_, h, h'⟩
  | error e e' => cases h' with
    | error e' e'' => exact .error e e''

/-- Steps that compare, on results that compare. -/
theorem bind {S : γ → δ → Prop} {x : Except ε α} {y : Except ε β} {f : α → Except ε γ}
    {g : β → Except ε δ} (h : Outcomes R x y) (hfg : ∀ a b, R a b → Outcomes S (f a) (g b)) :
    Outcomes S (x >>= f) (y >>= g) := by
  cases h with
  | ok h => exact hfg _ _ h
  | error e e' => exact .error e e'

theorem map {S : γ → δ → Prop} {x : Except ε α} {y : Except ε β} {f : α → γ} {g : β → δ}
    (h : Outcomes R x y) (hfg : ∀ a b, R a b → S (f a) (g b)) : Outcomes S (x.map f) (y.map g) := by
  cases h with
  | ok h => exact .ok (hfg _ _ h)
  | error e e' => exact .error e e'

/-- Equal outcomes have the same result, if any. -/
theorem toOption_eq {x y : Except ε α} (h : Outcomes Eq x y) : x.toOption = y.toOption := by
  cases h with
  | ok h => rw [h]
  | error e e' => rfl

/-- The error of a step does not matter. -/
theorem ite {p q : Prop} [Decidable p] [Decidable q] {e e' : ε} {x : Except ε α} {y : Except ε β}
    (hpq : p ↔ q) (h : ¬ p → Outcomes R x y) :
    Outcomes R (if p then .error e else x) (if q then .error e' else y) := by
  by_cases hp : p
  · rw [if_pos hp, if_pos (hpq.mp hp)]
    exact .error e e'
  · rw [if_neg hp, if_neg fun hq => hp (hpq.mpr hq)]
    exact h hp

end Outcomes

/-! ### Loops -/

/-- A loop over elements that are related one by one. -/
theorem mapM_forall₂ {A : α → β → Prop} {R : γ → δ → Prop} {f : α → Except ε γ}
    {g : β → Except ε δ} (hfg : ∀ a b, A a b → Outcomes R (f a) (g b)) {l : List α} {l' : List β}
    (h : List.Forall₂ A l l') : Outcomes (List.Forall₂ R) (l.mapM f) (l'.mapM g) := by
  induction h with
  | nil => exact .ok .nil
  | cons hab _ ih =>
      rw [List.mapM_cons, List.mapM_cons]
      exact (hfg _ _ hab).bind fun c d hcd => ih.bind fun l l' hl => .ok (.cons hcd hl)

/-- The order of a loop decides which error it raises, and the order of its results. -/
theorem mapM_perm {f : α → Except ε β} {l l' : List α} (h : l.Perm l') :
    Outcomes List.Perm (l.mapM f) (l'.mapM f) := by
  induction h with
  | nil => exact .ok .nil
  | cons a _ ih =>
      rw [List.mapM_cons, List.mapM_cons]
      exact (Outcomes.refl (f a)).bind fun b b' hb => ih.bind fun l l' hl => .ok (hb ▸ hl.cons b)
  | swap a b l =>
      simp only [List.mapM_cons]
      cases f a with
      | error e => cases f b with
        | error e' => exact .error e' e
        | ok y => exact .error e e
      | ok x => cases f b with
        | error e' => exact .error e' e'
        | ok y => cases l.mapM f with
          | error e => exact .error e e
          | ok m => exact .ok (List.Perm.swap x y m)
  | trans _ _ ih ih' => exact (ih.trans ih').mono fun a c ⟨b, hab, hbc⟩ => hab.trans hbc

/-- A loop that checks its elements as it goes fails where the check of one fails. -/
theorem foldlM_check {f : α → Except ε β} {g : σ → β → Except ε σ} (l : List α) (s : σ) :
    Outcomes Eq (l.foldlM (fun s a => do g s (← f a)) s)
      (do (← l.mapM f).foldlM g s) := by
  induction l generalizing s with
  | nil => exact .refl _
  | cons a l ih =>
      have hcons : (do (← (a :: l).mapM f).foldlM g s) =
          f a >>= fun b => l.mapM f >>= fun bs => (b :: bs).foldlM g s := by
        rw [List.mapM_cons]
        cases f a with
        | error e => rfl
        | ok b => cases l.mapM f with
          | error e => rfl
          | ok bs => rfl
      rw [List.foldlM_cons, hcons]
      cases f a with
      | error e => exact .error e e
      | ok b =>
          show Outcomes Eq (g s b >>= fun t => l.foldlM (fun s a => do g s (← f a)) t)
            (l.mapM f >>= fun bs => (b :: bs).foldlM g s)
          cases hg : g s b with
          | error e =>
              cases l.mapM f with
              | error e' => exact .error e e'
              | ok bs =>
                  show Outcomes Eq _ ((b :: bs).foldlM g s)
                  rw [List.foldlM_cons, hg]
                  exact .error e e
          | ok t =>
              have h := ih t
              cases hm : l.mapM f with
              | error e => rw [hm] at h; exact h
              | ok bs =>
                  rw [hm] at h
                  show Outcomes Eq _ ((b :: bs).foldlM g s)
                  rw [List.foldlM_cons, hg]
                  exact h

/-- A loop over lists is a loop over what they make up. -/
theorem foldlM_flatten {g : σ → β → Except ε σ} (tss : List (List β)) (s : σ) :
    tss.flatten.foldlM g s = tss.foldlM (fun s ts => ts.foldlM g s) s := by
  induction tss generalizing s with
  | nil => rfl
  | cons ts tss ih =>
      rw [List.flatten_cons, List.foldlM_append, List.foldlM_cons]
      exact congrArg _ (funext fun t => ih t)

end Orchestrator
