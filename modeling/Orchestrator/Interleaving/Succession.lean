import Orchestrator.Interleaving.Machine

/-!
# Interleaving — one program after another

A program that may be cut off after any of its calls, and is started again, keeps an invariant
only if every call keeps it: what the program restores at its end does not count.

* `Contract I σ`: what a call does to a state, which calls are allowed in it, and the invariant.
* `Prog.Safe C p Q s`: from `s`, every call of `p` is allowed where it is made and keeps the
  invariant, and `Q` holds of the outcome and the state there.
* `Sight K C`: the state a contract speaks of, as a function of world and log of a machine.
* `Successive`: only the thread that was started last moves, and only until the environment
  breaks in.
* `Run.safe`: along such a run, the invariant holds, and the running thread is safe.
-/

namespace Interleaving

variable {I : Interface} {σ α β : Type}

/-- What calls do to a state, which of them are allowed, and what always holds. -/
structure Contract (I : Interface) (σ : Type) where
  does : σ → (op : I.Op) → I.Ret op → σ → Prop
  allows : σ → I.Op → Prop
  holds : σ → Prop

namespace Prog

/-- From `s`, every call of `p` is allowed and keeps the invariant, and `Q` holds of the outcome
and the state reached. -/
def Safe (C : Contract I σ) : Prog I α → (Except I.Exc α → σ → Prop) → σ → Prop
  | .ret a, Q, s => Q (.ok a) s
  | .raise e, Q, s => Q (.error e) s
  | .call op k, Q, s => C.allows s op ∧ ∀ r s', I.Sane op r → C.does s op r s' →
      C.holds s' ∧ (k r).Safe C Q s'

section Safe
variable {C : Contract I σ} {Q Q' : Except I.Exc α → σ → Prop} {s : σ}

@[simp] theorem safe_ret (a : α) : (ret a : Prog I α).Safe C Q s ↔ Q (.ok a) s := Iff.rfl

@[simp] theorem safe_raise (e : I.Exc) : (raise e : Prog I α).Safe C Q s ↔ Q (.error e) s :=
  Iff.rfl

@[simp] theorem safe_call (op : I.Op) (k : I.Ret op → Prog I α) :
    (call op k).Safe C Q s ↔ C.allows s op ∧ ∀ r s', I.Sane op r → C.does s op r s' →
      C.holds s' ∧ (k r).Safe C Q s' := Iff.rfl

@[simp] theorem safe_send (op : I.Op) (Q : Except I.Exc (I.Ret op) → σ → Prop) :
    (send op : Prog I _).Safe C Q s ↔ C.allows s op ∧ ∀ r s', I.Sane op r → C.does s op r s' →
      C.holds s' ∧ Q (.ok r) s' := Iff.rfl

@[simp] theorem safe_ofExcept (r : Except I.Exc α) : (ofExcept r).Safe C Q s ↔ Q r s := by
  cases r <;> rfl

theorem Safe.mono {p : Prog I α} (h : p.Safe C Q s) (hQ : ∀ r s', Q r s' → Q' r s') :
    p.Safe C Q' s := by
  induction p generalizing s with
  | ret a => exact hQ _ _ h
  | raise e => exact hQ _ _ h
  | call op k ih =>
      exact ⟨h.1, fun r s' hr hs => ⟨(h.2 r s' hr hs).1, ih r (h.2 r s' hr hs).2⟩⟩

@[simp] theorem safe_bind {p : Prog I α} {f : α → Prog I β} {Q : Except I.Exc β → σ → Prop} :
    (p.bind f).Safe C Q s ↔ p.Safe C (fun r s' => match r with
      | .ok a => (f a).Safe C Q s'
      | .error e => Q (.error e) s') s := by
  induction p generalizing s with
  | ret a => rfl
  | raise e => rfl
  | call op k ih => simp only [call_bind, safe_call, ih]

@[simp] theorem safe_attempt {p : Prog I α} {Q : Except I.Exc (Except I.Exc α) → σ → Prop} :
    p.attempt.Safe C Q s ↔ p.Safe C (fun r s' => Q (.ok r) s') s := by
  induction p generalizing s with
  | ret a => rfl
  | raise e => rfl
  | call op k ih => simp only [attempt, safe_call, ih]

/-- Where a program ends, the invariant holds. -/
theorem Safe.held {p : Prog I α} (h : p.Safe C Q s) (hs : C.holds s) :
    p.Safe C (fun r s' => Q r s' ∧ C.holds s') s := by
  induction p generalizing s with
  | ret a => exact ⟨h, hs⟩
  | raise e => exact ⟨h, hs⟩
  | call op k ih =>
      refine ⟨h.1, fun r s' hr hd => ?_⟩
      obtain ⟨hs', hk⟩ := h.2 r s' hr hd
      exact ⟨hs', ih r hk hs'⟩

/-- A program all of whose calls are allowed at, and keep, `P` is safe from `P`. -/
theorem Uses.safe {F : I.Op → Prop} {P : σ → Prop} {p : Prog I α} (hp : p.Uses F)
    (hF : ∀ s op, P s → F op → C.allows s op ∧ ∀ r s', I.Sane op r → C.does s op r s' → P s')
    (hP : ∀ s, P s → C.holds s) (hs : P s) : p.Safe C (fun _ s' => P s') s := by
  induction p generalizing s with
  | ret a => exact hs
  | raise e => exact hs
  | call op k ih =>
      obtain ⟨ha, hk⟩ := hF s op hs hp.1
      refine ⟨ha, fun r s' hr hd => ?_⟩
      have hs' := hk r s' hr hd
      exact ⟨hP s' hs', ih r (hp.2 r hr) hs'⟩

/-- A loop whose body keeps `P`, as long as it returns, keeps `P`. -/
theorem Safe.foldEach {P : β → σ → Prop} {f : β → α → Prog I β} {l : List α}
    (hf : ∀ b, ∀ a ∈ l, ∀ s, P b s →
      (f b a).Safe C (fun r s' => ∀ b', r = .ok b' → P b' s') s) {b : β} (hs : P b s) :
    (Prog.foldEach f b l).Safe C (fun r s' => ∀ b', r = .ok b' → P b' s') s := by
  induction l generalizing b s with
  | nil =>
      rintro _ ⟨⟩
      exact hs
  | cons a l ih =>
      rw [Prog.foldEach, safe_bind]
      refine (hf b a (by simp) s hs).mono fun r s' hr => ?_
      cases r with
      | error e => rintro _ ⟨⟩
      | ok b' => exact ih (fun b a ha => hf b a (by simp [ha])) (hr b' rfl)

/-- The result and what it yields, together. -/
theorem Safe.and_yields {R : α → Prop} {p : Prog I α} (h : p.Safe C Q s) (hy : p.Yields R) :
    p.Safe C (fun r s' => Q r s' ∧ ∀ a, r = .ok a → R a) s := by
  induction p generalizing s with
  | ret a => exact ⟨h, by rintro _ ⟨⟩; exact hy⟩
  | raise e => exact ⟨h, by rintro _ ⟨⟩⟩
  | call op k ih =>
      exact ⟨h.1, fun r s' hr hd => ⟨(h.2 r s' hr hd).1, ih r (h.2 r s' hr hd).2 (hy r hr)⟩⟩

end Safe

end Prog

/-! ### Runs -/

/-- The state of a contract, read off world and log: calls do to it what the contract says, and
a start does not show. -/
structure Sight (K : Machine I) (C : Contract I σ) where
  at_ : K.World → List (Event K) → σ
  call : ∀ {t op a w r w'} (l : List (Event K)), K.Good w → K.exec t op a w = some (r, w') →
    C.does (at_ w l) op r (at_ w' (.call t op r :: l))
  start : ∀ {w l} (t : Nat) (task : K.Task), at_ w (.start t task :: l) = at_ w l

section Successive
variable {K : Machine I}

/-- The thread that was started last, unless the environment broke in after it. -/
def latest (breaks : K.Stimulus → Bool) : List (Event K) → Option Nat
  | [] => none
  | .call _ _ _ :: l => latest breaks l
  | .start t _ :: _ => some t
  | .env x :: l => if breaks x then none else latest breaks l

/-- Every thread has stopped for good when the next one starts, or the environment breaks in. -/
def Successive (breaks : K.Stimulus → Bool) (c : Config K) : Move K → Prop
  | .run t _ => latest breaks c.log = some t
  | .start _ _ | .env _ => True

variable {C : Contract I σ} {breaks : K.Stimulus → Bool} {c c₁ c₂ : Config K}

/-- The invariant holds, and what is left of the running thread is safe. -/
structure Sound (V : Sight K C) (breaks : K.Stimulus → Bool) (c : Config K) : Prop where
  holds : C.holds (V.at_ c.world c.log)
  running : ∀ t p, latest breaks c.log = some t → c.threads t = some p →
    p.Safe C (fun _ _ => True) (V.at_ c.world c.log)

/-- What it takes of the environment: it shows only where it breaks in, and keeps the
invariant. -/
structure Calm (V : Sight K C) (breaks : K.Stimulus → Bool) : Prop where
  still : ∀ {x w w' l}, K.disturb x w = some w' → breaks x = false →
    V.at_ w' (.env x :: l) = V.at_ w l
  kept : ∀ {x w w' l}, K.disturb x w = some w' → C.holds (V.at_ w l) →
    C.holds (V.at_ w' (.env x :: l))

theorem Sound.step {V : Sight K C} (hV : Calm V breaks)
    (hK : ∀ task s, C.holds s → (K.body task).Safe C (fun _ _ => True) s)
    (h : Sound V breaks c₁) (hg : K.Good c₁.world) {m : Move K} (hok : Successive breaks c₁ m)
    (hs : Machine.step c₁ m = some c₂) : Sound V breaks c₂ := by
  rcases Machine.step_cases hs with ⟨t, a, op, k, r, w, rfl, hk, he, rfl⟩ |
      ⟨t, task, rfl, hk, rfl⟩ | ⟨x, w, rfl, he, rfl⟩
  · obtain ⟨hh, hp⟩ := (h.running t _ hok hk).2 r _ (K.good_exec hg he).1 (V.call c₁.log hg he)
    refine ⟨hh, fun t' p ht hp' => ?_⟩
    obtain rfl : t = t' := Option.some.inj (hok.symm.trans ht)
    simp only [Function.update_self] at hp'
    cases hp'
    exact hp
  · refine ⟨(V.start t task).symm ▸ h.holds, fun t' p ht hp => ?_⟩
    obtain rfl : t = t' := Option.some.inj ht
    simp only [Function.update_self] at hp
    cases hp
    rw [V.start]
    exact hK task _ h.holds
  · refine ⟨hV.kept he h.holds, fun t p ht hp => ?_⟩
    simp only [latest] at ht
    split at ht
    · cases ht
    · next hx =>
        rw [hV.still he (by simpa using hx)]
        exact h.running t p ht hp

/-- **The succession rule.**  Where every task is safe from the invariant, threads that run one
after another keep it, wherever each of them is cut off. -/
theorem Run.safe {V : Sight K C} (hV : Calm V breaks)
    (hK : ∀ task s, C.holds s → (K.body task).Safe C (fun _ _ => True) s)
    (hr : Run (Successive breaks) c c₁) (hg : K.Good c.world) (h : Sound V breaks c) :
    Sound V breaks c₁ := by
  induction hr with
  | refl => exact h
  | snoc hr hok hs ih => exact ih.step hV hK (hr.good hg) hok hs

/-- Before anything has started, only the invariant has to be shown. -/
theorem Sound.boot {V : Sight K C} (hl : c.log = []) (h : C.holds (V.at_ c.world c.log)) :
    Sound V breaks c := by
  refine ⟨h, fun t p ht _ => ?_⟩
  rw [hl] at ht
  cases ht

/-- The next call of the running thread is allowed. -/
theorem Sound.allows {V : Sight K C} (h : Sound V breaks c) {t : Nat} {op : I.Op}
    {k : I.Ret op → Prog I Unit} (ht : latest breaks c.log = some t)
    (hk : c.threads t = some (.call op k)) : C.allows (V.at_ c.world c.log) op :=
  (h.running t _ ht hk).1

/-- A run is successive when the thread of each of its calls is the latest. -/
theorem Run.successive (hr : Run (Calling fun _ l t _ => latest breaks l = some t) c c₁) :
    Run (Successive breaks) c c₁ := by
  induction hr with
  | refl => exact .refl _
  | @snoc c₁ c₂ m _ hok hs ih =>
      refine .snoc ih ?_ hs
      rcases Machine.step_cases hs with ⟨t, a, op, k, r, w, rfl, hk, -, -⟩ |
          ⟨t, task, rfl, -, -⟩ | ⟨x, w, rfl, -, -⟩
      · exact hok op k hk
      · trivial
      · trivial

/-- A schedule in which only the latest thread moves is a successive run. -/
theorem Run.of_latest {ms : List (Move K)} (hp : Machine.play c ms = some c₁)
    (hm : Machine.calls (fun _ l t _ => latest breaks l == some t) c ms = true) :
    Run (Successive breaks) c c₁ :=
  .successive (.of_calls (fun _ _ _ _ h => beq_iff_eq.mp h) hp hm)

end Successive

end Interleaving
