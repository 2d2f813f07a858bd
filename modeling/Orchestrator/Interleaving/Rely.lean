import Orchestrator.Interleaving.Interpretation

/-!
# Interleaving — relying on the other threads

What a thread reads is up to the other threads.  A thread that is well behaved only if its
responses meet an assumption, which the invariant of the system grants as long as every thread
is well behaved, is well behaved.

* `Prog.Maintains C P p`: from every state at which `P` holds, `p` is safe and comes back to `P`.
* `Compositional.interpret`: what sequencing keeps, it keeps of programs that are carried out.
* `Monitor.relying M A`: the contract of a monitor, under the assumption `A` on responses.
* `Relied`: the invariant holds, and what is left of every thread is safe under the assumption.
* `Run.relied`: along every run.
-/

namespace Interleaving

variable {I : Interface} {σ α β : Type}

namespace Prog

/-- From every state at which `P` holds, `p` is safe and comes back to `P`. -/
def Maintains (C : Contract I σ) (P : σ → Prop) (p : Prog I α) : Prop :=
  ∀ s, P s → p.Safe C (fun _ s' => P s') s

theorem maintains_compositional (C : Contract I σ) (P : σ → Prop) :
    Compositional (I := I) (fun {_} p => p.Maintains C P) where
  ret _ _ hs := hs
  raise _ _ hs := hs
  bind_of hp hq hf s hs := by
    rw [safe_bind]
    refine ((hp s hs).and_yields hq).mono fun r s' hr => ?_
    cases r with
    | ok a => exact hf a (hr.2 a rfl) s' hr.1
    | error e => exact hr.1
  attempt hp s hs := by
    rw [safe_attempt]
    exact hp s hs

/-- A program all of whose calls are allowed at, and keep, `P` maintains it. -/
theorem Uses.maintains {C : Contract I σ} {F : I.Op → Prop} {P : σ → Prop} {p : Prog I α}
    (hp : p.Uses F) (hC : ∀ s, C.holds s)
    (hF : ∀ s op, P s → F op → C.allows s op ∧
      ∀ r s', I.Sane op r → C.does s op r s' → P s') : p.Maintains C P :=
  fun _ hs => hp.safe hF (fun s _ => hC s) hs

/-! ### Programs that are carried out -/

/-- `p` raises nothing, whatever the responses. -/
def Total : Prog I α → Prop
  | .ret _ => True
  | .raise _ => False
  | .call _ k => ∀ r, (k r).Total

theorem Total.bind {p : Prog I α} {f : α → Prog I β} (hp : p.Total) (hf : ∀ a, (f a).Total) :
    (p.bind f).Total := by
  induction p with
  | ret a => exact hf a
  | raise e => exact hp.elim
  | call op k ih => exact fun r => ih r (hp r)

theorem total_attempt (p : Prog I α) : p.attempt.Total := by
  induction p with
  | ret a => trivial
  | raise e => trivial
  | call op k ih => exact ih

theorem Total.bind_attempt {p : Prog I α} (hp : p.Total) (f : α → Prog I β) :
    (p.bind f).attempt = p.bind fun a => (f a).attempt := by
  induction p with
  | ret a => rfl
  | raise e => exact hp.elim
  | call op k ih => simp only [call_bind, attempt, fun r => ih r (hp r)]

section Interpret
variable {J : Interface} {e : I.Exc → J.Exc} {H : (op : I.Op) → Prog J (I.Ret op)}

theorem Yields.interpret {Q : α → Prop} {p : Prog I α} (h : p.Yields Q)
    (hH : ∀ op, (H op).Yields (I.Sane op)) : (p.interpret e H).Yields Q := by
  induction p with
  | ret a => exact h
  | raise x => trivial
  | call op k ih => exact (hH op).bind fun r hr => ih r (h r hr)

/-- An outcome as a value, where calls raise nothing and exceptions are told by their images. -/
theorem interpret_attempt {g : J.Exc → I.Exc} (hg : ∀ x, g (e x) = x)
    (hH : ∀ op, (H op).Total) (p : Prog I α) : p.attempt.interpret e H =
      (p.interpret e H).attempt.bind fun r => .ret (r.mapError g) := by
  induction p with
  | ret a => rfl
  | raise x => exact congrArg (fun y => ret (Except.error y : Except I.Exc α)) (hg x).symm
  | call op k ih => simp only [attempt, interpret_call, (hH op).bind_attempt, bind_assoc, ih]

/-- **Carried out.**  What sequencing keeps of programs over `J`, it keeps of programs over `I`
that are carried out there. -/
theorem Compositional.interpret {G : {α : Type} → Prog J α → Prop} (hG : Compositional G)
    {g : J.Exc → I.Exc} (hg : ∀ x, g (e x) = x) (hH : ∀ op, (H op).Total)
    (hS : ∀ op, (H op).Yields (I.Sane op)) :
    Compositional (I := I) (fun {_} p => G (p.interpret e H)) where
  ret a := hG.ret a
  raise x := hG.raise (e x)
  bind_of hp hq hf := by
    rw [interpret_bind]
    exact hG.bind_of hp (hq.interpret hS) hf
  attempt hp := by
    rw [interpret_attempt hg hH]
    exact hG.bind (hG.attempt hp) fun r => hG.ret _

end Interpret

end Prog

/-! ### Runs -/

/-- What a monitor sees, as a contract: responses meet the assumption. -/
def Monitor.relying (M : Monitor I) (A : M.View → (op : I.Op) → I.Ret op → Prop) :
    Contract I M.View where
  does v op r v' := A v op r ∧ v' = M.observe v op r
  allows := M.allows
  holds _ := True

section Runs
variable {K : Machine I} {M : Monitor I} {A : M.View → (op : I.Op) → I.Ret op → Prop}
  {Inv : K.World → List (Event K) → Prop} {ok : Config K → Move K → Prop} {c c' : Config K}

variable (A Inv) in
/-- The invariant holds, and what is left of every thread is safe under the assumption. -/
structure Relied (c : Config K) : Prop where
  inv : Inv c.world c.log
  threads : ∀ t, match c.threads t with
    | some p => p.Safe (M.relying A) (fun _ _ => True) (viewOf M t c.log)
    | none => viewOf M t c.log = M.init

variable (A Inv) in
/-- What it takes: tasks are safe under the assumption, and as long as threads make allowed calls
only, the invariant grants the assumption and is kept. -/
structure Reliable : Prop where
  tasks : ∀ T, (K.body T).Safe (M.relying A) (fun _ _ => True) M.init
  grants : ∀ {w l t op a r w'}, K.Good w → Inv w l → M.allows (viewOf M t l) op →
    K.exec t op a w = some (r, w') → A (viewOf M t l) op r
  call : ∀ {w l t op a r w'}, K.Good w → Inv w l → M.allows (viewOf M t l) op →
    K.exec t op a w = some (r, w') → Inv w' (.call t op r :: l)
  start : ∀ {w l} (t : Nat) (T : K.Task), Inv w l → Inv w (.start t T :: l)
  env : ∀ {w l x w'}, Inv w l → K.disturb x w = some w' → Inv w' (.env x :: l)

/-- The next call of a thread is allowed. -/
theorem Relied.allows (h : Relied A Inv c) {t : Nat} {op : I.Op} {k : I.Ret op → Prog I Unit}
    (hk : c.threads t = some (.call op k)) : M.allows (viewOf M t c.log) op := by
  have ht := h.threads t
  rw [hk] at ht
  exact ht.1

theorem Relied.step (hR : Reliable A Inv) (h : Relied A Inv c) (hg : K.Good c.world)
    {m : Move K} (hs : Machine.step c m = some c') : Relied A Inv c' := by
  rcases Machine.step_cases hs with ⟨t, a, op, k, r, w, -, hk, he, rfl⟩ |
      ⟨t, task, -, hk, rfl⟩ | ⟨x, w, -, he, rfl⟩
  · have hallows := h.allows hk
    refine ⟨hR.call hg h.inv hallows he, fun t' => ?_⟩
    by_cases e : t' = t
    · subst e
      have ht := h.threads t'
      rw [hk] at ht
      have hr := ht.2 r _ (K.good_exec hg he).1 ⟨hR.grants hg h.inv hallows he, rfl⟩
      simpa using hr.2
    · simpa [Function.update_of_ne e, viewOf_call_other (Ne.symm e)] using h.threads t'
  · refine ⟨hR.start t task h.inv, fun t' => ?_⟩
    by_cases e : t' = t
    · subst e
      have ht := h.threads t'
      rw [hk] at ht
      simpa [ht] using hR.tasks task
    · simpa [Function.update_of_ne e] using h.threads t'
  · exact ⟨hR.env h.inv he, h.threads⟩

/-- **The rule of reliance.**  Every run keeps the invariant, and every thread safe. -/
theorem Run.relied (hR : Reliable A Inv) (hr : Run ok c c') (hg : K.Good c.world)
    (h : Relied A Inv c) : Relied A Inv c' := by
  induction hr with
  | refl => exact h
  | snoc hr _ hs ih => exact ih.step hR (hr.good hg) hs

/-- Before anything has started, only the invariant has to be shown. -/
theorem Relied.boot (hc : ∀ t, c.threads t = none) (hl : c.log = []) (h : Inv c.world []) :
    Relied A Inv c := by
  refine ⟨hl ▸ h, fun t => ?_⟩
  rw [hc t, hl]
  rfl

end Runs

end Interleaving
