import Mathlib.Logic.Basic

/-!
# Interleaving — programs over an interface

A program is a tree of calls.  It returns, raises, or makes one call and goes on with the
response; between two calls anything may happen to the world, so a call is the unit in which
programs interleave.

* `Prog.bind`, `Prog.attempt`, `Prog.tryCatch`, `Prog.ensuring`: sequencing, and the three ways
  an exception is observed.
* `Prog.Uses F p`: every call `p` can make satisfies `F`, whatever the (sane) responses.
* `Monitor`: a typestate.  It sees the calls of one program with their responses, and says
  which call is allowed next.  `Prog.Obeys M p Q v`: from view `v`, every call `p` makes is
  allowed, and `Q` holds of the outcome and the view there.
* `Prog.Uses.obeys`: a program whose calls all keep a property of the view obeys the monitor.
-/

namespace Interleaving

/-- What programs may do: the calls, the responses to each, what every response satisfies, and
the exceptions. -/
structure Interface where
  Op : Type
  Ret : Op → Type
  Exc : Type
  Sane : (op : Op) → Ret op → Prop

variable {I : Interface} {α β γ : Type}

/-- A program: a result, an exception, or a call and a continuation. -/
inductive Prog (I : Interface) (α : Type) where
  | ret (a : α)
  | raise (e : I.Exc)
  | call (op : I.Op) (k : I.Ret op → Prog I α)

namespace Prog

/-- A program, and then one for its result. -/
def bind : Prog I α → (α → Prog I β) → Prog I β
  | .ret a, f => f a
  | .raise e, _ => .raise e
  | .call op k, f => .call op fun r => (k r).bind f

instance : Monad (Prog I) where
  pure := .ret
  bind := .bind

/-- The program that makes one call. -/
def send (op : I.Op) : Prog I (I.Ret op) :=
  .call op .ret

/-- The program has returned or raised. -/
def ended : Prog I α → Bool
  | .ret _ | .raise _ => true
  | .call _ _ => false

/-- A recorded outcome, played back. -/
def ofExcept : Except I.Exc α → Prog I α
  | .ok a => .ret a
  | .error e => .raise e

/-- `p`, with its outcome as a value. -/
def attempt : Prog I α → Prog I (Except I.Exc α)
  | .ret a => .ret (.ok a)
  | .raise e => .ret (.error e)
  | .call op k => .call op fun r => (k r).attempt

/-- `try p except e: h e`. -/
def tryCatch (p : Prog I α) (h : I.Exc → Prog I α) : Prog I α :=
  p.attempt.bind fun
    | .ok a => .ret a
    | .error e => h e

/-- `try: p finally: q`.  An exception of `q` replaces the outcome of `p`. -/
def ensuring (p : Prog I α) (q : Prog I Unit) : Prog I α :=
  p.attempt.bind fun r => q.bind fun _ => ofExcept r

/-- `for a in l: f a`. -/
def forEach : List α → (α → Prog I Unit) → Prog I Unit
  | [], _ => .ret ()
  | a :: l, f => (f a).bind fun _ => forEach l f

/-- `for a in l: s = f s a`. -/
def foldEach (f : β → α → Prog I β) : β → List α → Prog I β
  | b, [] => .ret b
  | b, a :: l => (f b a).bind fun b' => foldEach f b' l

@[simp] theorem pure_eq (a : α) : (pure a : Prog I α) = .ret a := rfl

@[simp] theorem bind_eq (p : Prog I α) (f : α → Prog I β) : p >>= f = p.bind f := rfl

@[simp] theorem ret_bind (a : α) (f : α → Prog I β) : (ret a : Prog I α).bind f = f a := rfl

@[simp] theorem raise_bind (e : I.Exc) (f : α → Prog I β) :
    (raise e : Prog I α).bind f = .raise e := rfl

@[simp] theorem call_bind (op : I.Op) (k : I.Ret op → Prog I α) (f : α → Prog I β) :
    (call op k).bind f = .call op fun r => (k r).bind f := rfl

/-- Three programs in a row need no brackets. -/
theorem bind_assoc (p : Prog I α) (f : α → Prog I β) (g : β → Prog I γ) :
    (p.bind f).bind g = p.bind fun a => (f a).bind g := by
  induction p with
  | ret a => rfl
  | raise e => rfl
  | call op k ih => simp only [call_bind, ih]

/-! ### The calls a program can make -/

/-- Every call of `p` satisfies `F`, on every path. -/
def Uses (F : I.Op → Prop) : Prog I α → Prop
  | .ret _ | .raise _ => True
  | .call op k => F op ∧ ∀ r, I.Sane op r → (k r).Uses F

section Uses
variable {F G : I.Op → Prop}

@[simp] theorem uses_ret (a : α) : (ret a : Prog I α).Uses F := trivial

@[simp] theorem uses_raise (e : I.Exc) : (raise e : Prog I α).Uses F := trivial

@[simp] theorem uses_call (op : I.Op) (k : I.Ret op → Prog I α) :
    (call op k).Uses F ↔ F op ∧ ∀ r, I.Sane op r → (k r).Uses F := Iff.rfl

/-- A single call. -/
@[simp] theorem uses_send (op : I.Op) : (send op : Prog I _).Uses F ↔ F op := by
  simp [send]

@[simp] theorem uses_ofExcept (r : Except I.Exc α) : (ofExcept r).Uses F := by
  cases r <;> trivial

/-- A larger footprint is a footprint. -/
theorem Uses.mono {p : Prog I α} (h : p.Uses F) (hFG : ∀ op, F op → G op) : p.Uses G := by
  induction p with
  | ret a => trivial
  | raise e => trivial
  | call op k ih => exact ⟨hFG op h.1, fun r hr => ih r (h.2 r hr)⟩

/-- What two programs do, one after the other. -/
theorem Uses.bind {p : Prog I α} {f : α → Prog I β} (hp : p.Uses F) (hf : ∀ a, (f a).Uses F) :
    (p.bind f).Uses F := by
  induction p with
  | ret a => exact hf a
  | raise e => trivial
  | call op k ih => exact ⟨hp.1, fun r hr => ih r (hp.2 r hr)⟩

theorem Uses.attempt {p : Prog I α} (hp : p.Uses F) : p.attempt.Uses F := by
  induction p with
  | ret a => trivial
  | raise e => trivial
  | call op k ih => exact ⟨hp.1, fun r hr => ih r (hp.2 r hr)⟩

/-- What a program does, or its handler. -/
theorem Uses.tryCatch {p : Prog I α} {h : I.Exc → Prog I α} (hp : p.Uses F)
    (hh : ∀ e, (h e).Uses F) : (p.tryCatch h).Uses F :=
  hp.attempt.bind fun
    | .ok _ => trivial
    | .error e => hh e

theorem Uses.ensuring {p : Prog I α} {q : Prog I Unit} (hp : p.Uses F) (hq : q.Uses F) :
    (p.ensuring q).Uses F :=
  hp.attempt.bind fun r => hq.bind fun _ => uses_ofExcept r

/-- What a loop does with the elements of its list. -/
theorem Uses.forEach_mem {l : List α} {f : α → Prog I Unit} (hf : ∀ a ∈ l, (f a).Uses F) :
    (Prog.forEach l f).Uses F := by
  induction l with
  | nil => trivial
  | cons a l ih => exact (hf a (by simp)).bind fun _ => ih fun b hb => hf b (by simp [hb])

theorem Uses.forEach {l : List α} {f : α → Prog I Unit} (hf : ∀ a, (f a).Uses F) :
    (Prog.forEach l f).Uses F := .forEach_mem fun a _ => hf a

/-- What a loop does that carries a value. -/
theorem Uses.foldEach_mem {f : β → α → Prog I β} {l : List α}
    (hf : ∀ b, ∀ a ∈ l, (f b a).Uses F) (b : β) : (Prog.foldEach f b l).Uses F := by
  induction l generalizing b with
  | nil => trivial
  | cons a l ih => exact (hf b a (by simp)).bind fun b' => ih (fun b a ha => hf b a (by simp [ha])) b'

theorem Uses.foldEach {f : β → α → Prog I β} (hf : ∀ b a, (f b a).Uses F) (l : List α) (b : β) :
    (Prog.foldEach f b l).Uses F := .foldEach_mem (fun b a _ => hf b a) b

/-- Two footprints at once. -/
theorem Uses.and {p : Prog I α} (hF : p.Uses F) (hG : p.Uses G) :
    p.Uses fun op => F op ∧ G op := by
  induction p with
  | ret a => trivial
  | raise e => trivial
  | call op k ih => exact ⟨⟨hF.1, hG.1⟩, fun r hr => ih r (hF.2 r hr) (hG.2 r hr)⟩

/-- One call, and what follows on each sane response. -/
theorem Uses.call {op : I.Op} {k : I.Ret op → Prog I β} (h : F op)
    (hk : ∀ r, I.Sane op r → (k r).Uses F) : ((send op).bind k).Uses F := ⟨h, hk⟩

end Uses

/-! ### The results of a program -/

/-- Every result of `p` satisfies `Q`, on every path of sane responses. -/
def Yields (Q : α → Prop) : Prog I α → Prop
  | .ret a => Q a
  | .raise _ => True
  | .call op k => ∀ r, I.Sane op r → (k r).Yields Q

section Yields
variable {F : I.Op → Prop} {Q : α → Prop} {R : β → Prop}

@[simp] theorem yields_ret (a : α) : (ret a : Prog I α).Yields Q ↔ Q a := Iff.rfl

@[simp] theorem yields_raise (e : I.Exc) : (raise e : Prog I α).Yields Q := trivial

/-- What a program yields is known to the next. -/
theorem Yields.bind {p : Prog I α} {f : α → Prog I β} (hp : p.Yields Q)
    (hf : ∀ a, Q a → (f a).Yields R) : (p.bind f).Yields R := by
  induction p with
  | ret a => exact hf a hp
  | raise e => trivial
  | call op k ih => exact fun r hr => ih r (hp r hr)

/-- Less may be said of it. -/
theorem Yields.mono {R : α → Prop} {p : Prog I α} (hp : p.Yields Q) (h : ∀ a, Q a → R a) :
    p.Yields R := by
  induction p with
  | ret a => exact h a hp
  | raise e => trivial
  | call op k ih => exact fun r hr => ih r (hp r hr)

/-- Nothing is said of what is bound. -/
theorem Yields.after {p : Prog I α} {f : α → Prog I β} (hf : ∀ a, (f a).Yields R) :
    (p.bind f).Yields R := by
  induction p with
  | ret a => exact hf a
  | raise e => trivial
  | call op k ih => exact fun r _ => ih r

/-- An attempt yields what the program yields, or its error. -/
theorem Yields.attempt {p : Prog I α} (h : p.Yields Q) :
    p.attempt.Yields fun r => ∀ a, r = .ok a → Q a := by
  induction p with
  | ret a => rintro _ ⟨⟩; exact h
  | raise e => rintro _ ⟨⟩
  | call op k ih => exact fun r hr => ih r (h r hr)

/-- A result that is at hand is yielded. -/
theorem yields_ofExcept {r : Except I.Exc α} (h : ∀ a, r = .ok a → Q a) :
    (ofExcept r : Prog I α).Yields Q := by
  cases r with
  | ok a => exact h a rfl
  | error e => trivial

/-- The answer of a call is sane. -/
theorem Yields.call {op : I.Op} {k : I.Ret op → Prog I β}
    (hk : ∀ r, I.Sane op r → (k r).Yields R) : ((send op).bind k).Yields R := hk

/-- The calls after `p` may rely on what `p` yields. -/
theorem Uses.bind_of {p : Prog I α} {f : α → Prog I β} (hp : p.Uses F) (hq : p.Yields Q)
    (hf : ∀ a, Q a → (f a).Uses F) : (p.bind f).Uses F := by
  induction p with
  | ret a => exact hf a hq
  | raise e => trivial
  | call op k ih => exact ⟨hp.1, fun r hr => ih r (hp.2 r hr) (hq r hr)⟩

end Yields

/-- A property of programs that sequencing and handlers keep. -/
structure Compositional (G : {α : Type} → Prog I α → Prop) : Prop where
  ret : ∀ {α : Type} (a : α), G (ret a)
  raise : ∀ {α : Type} (e : I.Exc), G (raise e : Prog I α)
  bind_of : ∀ {α β : Type} {p : Prog I α} {f : α → Prog I β} {Q : α → Prop}, G p → p.Yields Q →
    (∀ a, Q a → G (f a)) → G (p.bind f)
  attempt : ∀ {α : Type} {p : Prog I α}, G p → G p.attempt

theorem yields_true {α : Type} (p : Prog I α) : p.Yields fun _ => True := by
  induction p with
  | ret a => trivial
  | raise e => trivial
  | call op k ih => exact fun r _ => ih r

namespace Compositional
variable {G : {α : Type} → Prog I α → Prop} {α β : Type}

/-- Compositional properties hold of two programs in a row. -/
theorem bind (hG : Compositional G) {p : Prog I α} {f : α → Prog I β} (hp : G p)
    (hf : ∀ a, G (f a)) : G (p.bind f) := hG.bind_of hp (yields_true p) fun a _ => hf a

theorem tryCatch (hG : Compositional G) {p : Prog I α} {h : I.Exc → Prog I α} (hp : G p)
    (hh : ∀ e, G (h e)) : G (p.tryCatch h) :=
  hG.bind (hG.attempt hp) fun
    | .ok a => hG.ret a
    | .error e => hh e

theorem ofExcept (hG : Compositional G) (r : Except I.Exc α) : G (Prog.ofExcept r) := by
  cases r with
  | ok a => exact hG.ret a
  | error e => exact hG.raise e

theorem ensuring (hG : Compositional G) {p : Prog I α} {q : Prog I Unit} (hp : G p) (hq : G q) :
    G (p.ensuring q) :=
  hG.bind (hG.attempt hp) fun r => hG.bind hq fun _ => hG.ofExcept r

/-- And of a loop. -/
theorem forEach_mem (hG : Compositional G) {l : List α} {f : α → Prog I Unit}
    (hf : ∀ a ∈ l, G (f a)) : G (Prog.forEach l f) := by
  induction l with
  | nil => exact hG.ret ()
  | cons a l ih =>
      exact hG.bind (hf a List.mem_cons_self) fun _ => ih fun a ha => hf a (List.mem_cons_of_mem _ ha)

theorem forEach (hG : Compositional G) {l : List α} {f : α → Prog I Unit} (hf : ∀ a, G (f a)) :
    G (Prog.forEach l f) := hG.forEach_mem fun a _ => hf a

/-- Of a loop that carries a value as well. -/
theorem foldEach_mem (hG : Compositional G) {f : β → α → Prog I β} {l : List α}
    (hf : ∀ b, ∀ a ∈ l, G (f b a)) (b : β) : G (Prog.foldEach f b l) := by
  induction l generalizing b with
  | nil => exact hG.ret b
  | cons a l ih =>
      exact hG.bind (hf b a List.mem_cons_self) fun b' =>
        ih (fun b a ha => hf b a (List.mem_cons_of_mem _ ha)) b'

/-- A property of every single call `p` makes is a property of `p`. -/
theorem of_uses (hG : Compositional G) {F : I.Op → Prop} (hF : ∀ op, F op → G (send op))
    {p : Prog I α} (hp : p.Uses F) : G p := by
  induction p with
  | ret a => exact hG.ret a
  | raise e => exact hG.raise e
  | call op k ih =>
      exact hG.bind_of (p := send op) (Q := I.Sane op) (hF op hp.1) (fun r hr => hr)
        fun r hr => ih r (hp.2 r hr)

end Compositional

/-- A footprint is compositional. -/
theorem uses_compositional (F : I.Op → Prop) :
    Compositional (I := I) (fun {_} p => p.Uses F) where
  ret _ := trivial
  raise _ := trivial
  bind_of := .bind_of
  attempt := .attempt

end Prog

/-! ### Monitors -/

/-- A typestate over the calls of one program. -/
structure Monitor (I : Interface) where
  View : Type
  init : View
  allows : View → I.Op → Prop
  observe : View → (op : I.Op) → I.Ret op → View

namespace Prog
variable {M : Monitor I}

/-- From view `v`, every call of `p` is allowed, and `Q` holds of the outcome and the view
reached, whatever the responses. -/
def Obeys (M : Monitor I) : Prog I α → (Except I.Exc α → M.View → Prop) → M.View → Prop
  | .ret a, Q, v => Q (.ok a) v
  | .raise e, Q, v => Q (.error e) v
  | .call op k, Q, v => M.allows v op ∧ ∀ r, I.Sane op r → (k r).Obeys M Q (M.observe v op r)

section Obeys
variable {Q Q' : Except I.Exc α → M.View → Prop} {v : M.View}

@[simp] theorem obeys_ret (a : α) : (ret a : Prog I α).Obeys M Q v ↔ Q (.ok a) v := Iff.rfl

@[simp] theorem obeys_raise (e : I.Exc) :
    (raise e : Prog I α).Obeys M Q v ↔ Q (.error e) v := Iff.rfl

@[simp] theorem obeys_call (op : I.Op) (k : I.Ret op → Prog I α) :
    (call op k).Obeys M Q v ↔
      M.allows v op ∧ ∀ r, I.Sane op r → (k r).Obeys M Q (M.observe v op r) := Iff.rfl

@[simp] theorem obeys_send (op : I.Op) (Q : Except I.Exc (I.Ret op) → M.View → Prop) :
    (send op : Prog I _).Obeys M Q v ↔
      M.allows v op ∧ ∀ r, I.Sane op r → Q (.ok r) (M.observe v op r) := Iff.rfl

@[simp] theorem obeys_ofExcept (r : Except I.Exc α) : (ofExcept r).Obeys M Q v ↔ Q r v := by
  cases r <;> rfl

/-- Less may be said of the end. -/
theorem Obeys.mono {p : Prog I α} (h : p.Obeys M Q v) (hQ : ∀ r v', Q r v' → Q' r v') :
    p.Obeys M Q' v := by
  induction p generalizing v with
  | ret a => exact hQ _ _ h
  | raise e => exact hQ _ _ h
  | call op k ih => exact ⟨h.1, fun r hr => ih r (h.2 r hr)⟩

/-- A monitor goes on from one program to the next. -/
@[simp] theorem obeys_bind {p : Prog I α} {f : α → Prog I β}
    {Q : Except I.Exc β → M.View → Prop} :
    (p.bind f).Obeys M Q v ↔ p.Obeys M (fun r v' => match r with
      | .ok a => (f a).Obeys M Q v'
      | .error e => Q (.error e) v') v := by
  induction p generalizing v with
  | ret a => rfl
  | raise e => rfl
  | call op k ih => simp only [call_bind, obeys_call, ih]

@[simp] theorem obeys_attempt {p : Prog I α}
    {Q : Except I.Exc (Except I.Exc α) → M.View → Prop} :
    p.attempt.Obeys M Q v ↔ p.Obeys M (fun r v' => Q (.ok r) v') v := by
  induction p generalizing v with
  | ret a => rfl
  | raise e => rfl
  | call op k ih => simp only [attempt, obeys_call, ih]

/-- It goes on to the handler after an error. -/
@[simp] theorem obeys_tryCatch {p : Prog I α} {h : I.Exc → Prog I α} :
    (p.tryCatch h).Obeys M Q v ↔ p.Obeys M (fun r v' => match r with
      | .ok a => Q (.ok a) v'
      | .error e => (h e).Obeys M Q v') v := by
  simp only [tryCatch, obeys_bind, obeys_attempt]
  constructor <;> intro hp <;> refine hp.mono fun r v' hr => ?_ <;> cases r <;> exact hr

/-- It goes on to the last step either way. -/
@[simp] theorem obeys_ensuring {p : Prog I α} {q : Prog I Unit} :
    (p.ensuring q).Obeys M Q v ↔ p.Obeys M (fun r v' => q.Obeys M (fun r' v'' => match r' with
      | .ok _ => Q r v''
      | .error e => Q (.error e) v'') v') v := by
  simp only [ensuring, obeys_bind, obeys_attempt]
  constructor <;> intro hp <;> refine hp.mono fun r v' hq => ?_ <;>
    refine hq.mono fun r' v'' hr => ?_ <;> cases r' <;> simpa using hr

/-- A program all of whose calls are allowed at, and keep, `P` obeys the monitor from `P`. -/
theorem Uses.obeys {F : I.Op → Prop} {P : M.View → Prop} {p : Prog I α} (hp : p.Uses F)
    (hF : ∀ v op, P v → F op → M.allows v op ∧ ∀ r, I.Sane op r → P (M.observe v op r))
    (hv : P v) :
    p.Obeys M (fun _ v' => P v') v := by
  induction p generalizing v with
  | ret a => exact hv
  | raise e => exact hv
  | call op k ih =>
      obtain ⟨ha, hk⟩ := hF v op hv hp.1
      exact ⟨ha, fun r hr => ih r (hp.2 r hr) (hk r hr)⟩

/-- The result and what it yields, together. -/
theorem Obeys.and_yields {α : Type} {p : Prog I α} {Q : Except I.Exc α → M.View → Prop}
    {R : α → Prop} {v : M.View} (h : p.Obeys M Q v) (hy : p.Yields R) :
    p.Obeys M (fun r v' => Q r v' ∧ ∀ a, r = .ok a → R a) v := by
  induction p generalizing v with
  | ret a => exact ⟨h, by rintro _ ⟨⟩; exact hy⟩
  | raise e => exact ⟨h, by rintro _ ⟨⟩⟩
  | call op k ih => exact ⟨h.1, fun r hr => ih r (h.2 r hr) (hy r hr)⟩

end Obeys

/-- From every view at which `P` holds, `p` obeys the monitor and comes back to `P`. -/
def Keeps (M : Monitor I) (P : M.View → Prop) {α : Type} (p : Prog I α) : Prop :=
  ∀ v, P v → p.Obeys M (fun _ v' => P v') v

/-- An invariant of the monitor is compositional. -/
theorem keeps_compositional (P : M.View → Prop) :
    Compositional (I := I) (fun {_} p => p.Keeps M P) where
  ret _ _ hv := hv
  raise _ _ hv := hv
  bind_of hp hq hf v hv := by
    rw [obeys_bind]
    refine ((hp v hv).and_yields hq).mono fun r v' hr => ?_
    cases r with
    | ok a => exact hf a (hr.2 a rfl) v' hr.1
    | error e => exact hr.1
  attempt hp v hv := by
    rw [obeys_attempt]
    exact hp v hv

/-- It is kept if each call of the footprint keeps it. -/
theorem Uses.keeps {α : Type} {F : I.Op → Prop} {P : M.View → Prop} {p : Prog I α}
    (hp : p.Uses F)
    (hF : ∀ v op, P v → F op → M.allows v op ∧ ∀ r, I.Sane op r → P (M.observe v op r)) :
    p.Keeps M P := fun _ hv => hp.obeys hF hv

end Prog

end Interleaving
