import Orchestrator.Interleaving.Succession

/-!
# Interleaving — the calls of one interface in terms of another

A program over `I` runs on `J` once every call of `I` has a program over `J`.

* `Prog.interpret H p`: every call of `p` is carried out by its program.
* `Safe.interpret`: where each of these programs keeps to `C` and does what `C₀` says of its
  call, a program safe for `C₀` becomes one that is safe for `C`.
* `Leads does p s q t`: an execution of `p` from `s`, cut off at the state `t`, with `q` left.
* `Safe.of_leads`: what is safe stays safe along every execution.
* `Prog.play`: the execution in which every call is answered as a function says.
-/

namespace Interleaving

variable {I J : Interface} {σ α β : Type}

namespace Prog

/-- `p`, with each of its calls carried out over `J`. -/
def interpret (e : I.Exc → J.Exc) (H : (op : I.Op) → Prog J (I.Ret op)) : Prog I α → Prog J α
  | .ret a => .ret a
  | .raise x => .raise (e x)
  | .call op k => (H op).bind fun r => (k r).interpret e H

section Interpret
variable {e : I.Exc → J.Exc} {H : (op : I.Op) → Prog J (I.Ret op)}

@[simp] theorem interpret_ret (a : α) : (ret a : Prog I α).interpret e H = .ret a := rfl

@[simp] theorem interpret_raise (x : I.Exc) :
    (raise x : Prog I α).interpret e H = .raise (e x) := rfl

@[simp] theorem interpret_call (op : I.Op) (k : I.Ret op → Prog I α) :
    (call op k).interpret e H = (H op).bind fun r => (k r).interpret e H := rfl

theorem interpret_send (op : I.Op) (k : I.Ret op → Prog I α) :
    ((send op).bind k).interpret e H = (H op).bind fun r => (k r).interpret e H := rfl

theorem interpret_bind (p : Prog I α) (f : α → Prog I β) :
    (p.bind f).interpret e H = (p.interpret e H).bind fun a => (f a).interpret e H := by
  induction p with
  | ret a => rfl
  | raise x => rfl
  | call op k ih => simp only [call_bind, interpret_call, bind_assoc, ih]

/-- Calls of `I` that are allowed by `C₀` are carried out within `C`, and do what `C₀` says. -/
def Carries (C₀ : Contract I σ) (C : Contract J σ) (op : I.Op) (p : Prog J (I.Ret op)) : Prop :=
  ∀ s, C₀.holds s → C₀.allows s op → p.Safe C (fun r s' => ∀ a, r = .ok a →
    I.Sane op a ∧ C₀.does s op a s') s

/-- A program that is safe for `C₀` is safe for `C` once its calls are carried out there. -/
theorem Safe.interpret {C₀ : Contract I σ} {C : Contract J σ}
    {Q : Except I.Exc α → σ → Prop} {p : Prog I α} {s : σ} (h : p.Safe C₀ Q s)
    (hs : C₀.holds s) (hH : ∀ op, Carries C₀ C op (H op)) :
    (p.interpret e H).Safe C (fun r s' => ∀ a, r = .ok a → Q (.ok a) s') s := by
  induction p generalizing s with
  | ret a => rintro _ ⟨⟩; exact h
  | raise x => rintro _ ⟨⟩
  | call op k ih =>
      rw [interpret_call, safe_bind]
      refine (hH op s hs h.1).mono fun r s' hr => ?_
      cases r with
      | error x => rintro _ ⟨⟩
      | ok a =>
          obtain ⟨ha, hd⟩ := hr a rfl
          obtain ⟨hs', hk⟩ := h.2 a s' ha hd
          exact ih a hk hs'

end Interpret

end Prog

/-! ### Executions -/

/-- From `s`, `p` has come to `s'`, and `q` is left of it. -/
inductive Leads (does : σ → (op : I.Op) → I.Ret op → σ → Prop) :
    Prog I α → σ → Prog I α → σ → Prop
  | refl (p : Prog I α) (s : σ) : Leads does p s p s
  | step {p : Prog I α} {s t u : σ} {op : I.Op} {k : I.Ret op → Prog I α} {r : I.Ret op} :
      Leads does p s (.call op k) t → I.Sane op r → does t op r u → Leads does p s (k r) u

section Leads
variable {does : σ → (op : I.Op) → I.Ret op → σ → Prop} {C : Contract I σ}
  {Q : Except I.Exc α → σ → Prop} {p q : Prog I α} {s t : σ}

/-- What is left of a safe program is safe. -/
theorem Prog.Safe.of_leads (h : p.Safe C Q s) (hl : Leads C.does p s q t) : q.Safe C Q t := by
  induction hl with
  | refl => exact h
  | step _ hr hd ih => exact (ih.2 _ _ hr hd).2

/-- Where it ends, the outcome is as promised. -/
theorem Prog.Safe.outcome {r : Except I.Exc α} (h : p.Safe C Q s)
    (hl : Leads C.does p s (.ofExcept r) t) : Q r t := by
  have := h.of_leads hl
  rwa [Prog.safe_ofExcept] at this

/-- The first call of an execution. -/
theorem Leads.head {op : I.Op} {k : I.Ret op → Prog I α} {r : I.Ret op} {u : σ}
    (hr : I.Sane op r) (hd : does s op r t) (hl : Leads does (k r) t q u) :
    Leads does (.call op k) s q u := by
  induction hl with
  | refl => exact .step (.refl _ _) hr hd
  | step _ hr' hd' ih => exact .step ih hr' hd'

end Leads

/-! ### One execution -/

namespace Prog

/-- `p` from `s`, with each call answered by `answer`: the outcome, and the state reached. -/
def play (answer : σ → (op : I.Op) → Option (I.Ret op × σ)) :
    Prog I α → σ → Option (Except I.Exc α × σ)
  | .ret a, s => some (.ok a, s)
  | .raise e, s => some (.error e, s)
  | .call op k, s => match answer s op with
      | some (r, t) => (k r).play answer t
      | none => none

/-- Where the answers are possible, as long as `P` holds, so is the execution. -/
theorem leads_of_play {does : σ → (op : I.Op) → I.Ret op → σ → Prop} {P : σ → Prop}
    {answer : σ → (op : I.Op) → Option (I.Ret op × σ)}
    (ha : ∀ s op r t, P s → answer s op = some (r, t) → I.Sane op r ∧ does s op r t ∧ P t)
    {p : Prog I α} {r : Except I.Exc α} {s t : σ} (hs : P s) (h : p.play answer s = some (r, t)) :
    Leads does p s (.ofExcept r) t := by
  induction p generalizing s with
  | ret a => cases h; exact .refl _ _
  | raise e => cases h; exact .refl _ _
  | call op k ih =>
      rw [play] at h
      split at h
      · next x u hx =>
          obtain ⟨hr, hd, hu⟩ := ha _ _ _ _ hs hx
          exact .head hr hd (ih x hu h)
      · cases h

end Prog

end Interleaving
