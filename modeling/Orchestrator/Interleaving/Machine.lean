import Orchestrator.Interleaving.Program
import Mathlib.Logic.Function.Basic

/-!
# Interleaving — threads over a shared world

A machine runs any number of programs against one world.  A move starts a task in an unused
thread, lets one thread make its next call, or lets the environment act; a thread that is never
moved again has crashed.  The log holds every event of the run, the newest first.

* `Machine.step`: one move, as a partial function.
* `Run ok c c'`: a run from `c` to `c'` all of whose steps meet `ok`.
* `viewOf M t l`: what a monitor saw of thread `t` in the log `l`.
* `Run.supervised`: along every run, every thread obeys a monitor that every task obeys.
* `Run.invariant`: an invariant of world and log that every allowed call, every act of the
  environment and every start preserve.
-/

namespace Interleaving

/-- Programs over an interface `I`, run against a world.  An `Answer` is what an external party
may reply to a call; a call that does not need one ignores it.  In a `Good` world responses are
sane, and no call and no act of the environment leaves the good worlds. -/
structure Machine (I : Interface) where
  World : Type
  Answer : Type
  Stimulus : Type
  Task : Type
  body : Task → Prog I Unit
  exec : Nat → (op : I.Op) → Answer → World → Option (I.Ret op × World)
  disturb : Stimulus → World → Option World
  Good : World → Prop
  good_exec : ∀ {t op a w r w'}, Good w → exec t op a w = some (r, w') → I.Sane op r ∧ Good w'
  good_disturb : ∀ {x w w'}, Good w → disturb x w = some w' → Good w'

variable {I : Interface}

/-- What happened in one step. -/
inductive Event (K : Machine I) where
  | call (t : Nat) (op : I.Op) (r : I.Ret op)
  | start (t : Nat) (task : K.Task)
  | env (x : K.Stimulus)

inductive Move (K : Machine I) where
  | run (t : Nat) (a : K.Answer)
  | start (t : Nat) (task : K.Task)
  | env (x : K.Stimulus)

structure Config (K : Machine I) where
  world : K.World
  threads : Nat → Option (Prog I Unit)
  log : List (Event K)

namespace Machine
variable (K : Machine I)

/-- No thread has started. -/
def boot (w : K.World) : Config K := ⟨w, fun _ => none, []⟩

variable {K}

/-- One move from a configuration, if it is possible there. -/
def step (c : Config K) : Move K → Option (Config K)
  | .run t a =>
      match c.threads t with
      | some (.call op k) =>
          match K.exec t op a c.world with
          | some (r, w) =>
              some ⟨w, Function.update c.threads t (some (k r)), .call t op r :: c.log⟩
          | none => none
      | _ => none
  | .start t task =>
      match c.threads t with
      | none => some ⟨c.world, Function.update c.threads t (some (K.body task)),
          .start t task :: c.log⟩
      | some _ => none
  | .env x =>
      match K.disturb x c.world with
      | some w => some ⟨w, c.threads, .env x :: c.log⟩
      | none => none

/-- The moves of a schedule, one after another. -/
def play (c : Config K) : List (Move K) → Option (Config K)
  | [] => some c
  | m :: ms => match step c m with
      | some c' => play c' ms
      | none => none

/-- Every call the schedule makes passes a check of the world and the log before it. -/
def calls (check : K.World → List (Event K) → Nat → I.Op → Bool) (c : Config K) :
    List (Move K) → Bool
  | [] => true
  | m :: ms =>
      (match m with
        | .run t _ => match c.threads t with
            | some (.call op _) => check c.world c.log t op
            | _ => true
        | .start _ _ | .env _ => true) &&
      match step c m with
      | some c' => calls check c' ms
      | none => true

/-- What a step does, by the kind of its move. -/
theorem step_cases {c c' : Config K} {m : Move K} (h : step c m = some c') :
    (∃ t a op k r w, m = .run t a ∧ c.threads t = some (.call op k) ∧
      K.exec t op a c.world = some (r, w) ∧
      c' = ⟨w, Function.update c.threads t (some (k r)), .call t op r :: c.log⟩) ∨
    (∃ t task, m = .start t task ∧ c.threads t = none ∧
      c' = ⟨c.world, Function.update c.threads t (some (K.body task)),
        .start t task :: c.log⟩) ∨
    (∃ x w, m = .env x ∧ K.disturb x c.world = some w ∧
      c' = ⟨w, c.threads, .env x :: c.log⟩) := by
  cases m with
  | run t a =>
      simp only [step] at h
      split at h
      · next op k hk =>
          split at h
          · next r w hw => exact .inl ⟨t, a, op, k, r, w, rfl, hk, hw, (Option.some.inj h).symm⟩
          · cases h
      · cases h
  | start t task =>
      simp only [step] at h
      split at h
      · next hk => exact .inr (.inl ⟨t, task, rfl, hk, (Option.some.inj h).symm⟩)
      · cases h
  | env x =>
      simp only [step] at h
      split at h
      · next w hw => exact .inr (.inr ⟨x, w, rfl, hw, (Option.some.inj h).symm⟩)
      · cases h

end Machine

/-- A run from `c` to `c'` all of whose steps meet `ok`. -/
inductive Run {K : Machine I} (ok : Config K → Move K → Prop) : Config K → Config K → Prop where
  | refl (c : Config K) : Run ok c c
  | snoc {c c₁ c₂ : Config K} {m : Move K} (h : Run ok c c₁) (hok : ok c₁ m)
      (hs : Machine.step c₁ m = some c₂) : Run ok c c₂

/-- The condition every step meets. -/
def Anything {K : Machine I} (_ : Config K) (_ : Move K) : Prop := True

namespace Run
variable {K : Machine I} {ok ok' : Config K → Move K → Prop} {c c₁ c₂ : Config K}

theorem mono (h : Run ok c c₁) (hok : ∀ c m, ok c m → ok' c m) : Run ok' c c₁ := by
  induction h with
  | refl => exact .refl _
  | snoc _ hm hs ih => exact .snoc ih (hok _ _ hm) hs

theorem trans (h₁ : Run ok c c₁) (h₂ : Run ok c₁ c₂) : Run ok c c₂ := by
  induction h₂ with
  | refl => exact h₁
  | snoc _ hm hs ih => exact .snoc ih hm hs

/-- A schedule that can be played is a run. -/
theorem of_play {ms : List (Move K)} (h : Machine.play c ms = some c₁) : Run Anything c c₁ := by
  induction ms generalizing c with
  | nil => cases h; exact .refl _
  | cons m ms ih =>
      simp only [Machine.play] at h
      split at h
      · next c' hc => exact (Run.snoc (.refl _) trivial hc).trans (ih h)
      · cases h

theorem good (h : Run ok c c₁) (hc : K.Good c.world) : K.Good c₁.world := by
  induction h with
  | refl => exact hc
  | snoc _ _ hs ih =>
      rcases Machine.step_cases hs with ⟨t, a, op, k, r, w, -, -, he, rfl⟩ |
          ⟨t, task, -, -, rfl⟩ | ⟨x, w, -, he, rfl⟩
      · exact (K.good_exec ih he).2
      · exact ih
      · exact K.good_disturb ih he

/-- The log only grows. -/
theorem log_suffix (h : Run ok c c₁) : ∃ l, c₁.log = l ++ c.log := by
  induction h with
  | refl => exact ⟨[], rfl⟩
  | snoc _ _ hs ih =>
      obtain ⟨l, hl⟩ := ih
      rcases Machine.step_cases hs with ⟨t, a, op, k, r, w, -, -, -, rfl⟩ |
          ⟨t, task, -, -, rfl⟩ | ⟨x, w, -, -, rfl⟩
      · exact ⟨.call t op r :: l, by simp [hl]⟩
      · exact ⟨.start t task :: l, by simp [hl]⟩
      · exact ⟨.env x :: l, by simp [hl]⟩

/-- A thread that has come to its end stays there. -/
theorem ended (h : Run ok c c₁) {t : Nat} {p : Prog I Unit} (hp : ∀ op k, p ≠ .call op k)
    (ht : c.threads t = some p) : c₁.threads t = some p := by
  induction h with
  | refl => exact ht
  | snoc _ _ hs ih =>
      rcases Machine.step_cases hs with ⟨t', a, op, k, r, w, -, hk, -, rfl⟩ |
          ⟨t', task, -, hk, rfl⟩ | ⟨x, w, -, -, rfl⟩
      · have hne : t ≠ t' := by
          rintro rfl
          rw [ih] at hk
          exact hp op k (Option.some.inj hk)
        simpa [Function.update_of_ne hne] using ih
      · have hne : t ≠ t' := by
          rintro rfl
          rw [ih] at hk
          cases hk
        simpa [Function.update_of_ne hne] using ih
      · exact ih

/-- What holds of every call of a task holds of every call its thread has left. -/
theorem uses {F : K.Task → I.Op → Prop} (hF : ∀ task, (K.body task).Uses (F task))
    (hr : Run ok c c₁) (hg : K.Good c.world) (hc : ∀ t, c.threads t = none) {t : Nat}
    {p : Prog I Unit} (hp : c₁.threads t = some p) :
    ∃ task, .start t task ∈ c₁.log ∧ p.Uses (F task) := by
  induction hr generalizing t p with
  | refl => rw [hc t] at hp; cases hp
  | snoc hr _ hs ih =>
      rcases Machine.step_cases hs with ⟨t', a, op, k, r, w, -, hk, he, rfl⟩ |
          ⟨t', task, -, -, rfl⟩ | ⟨x, w, -, -, rfl⟩
      · by_cases e : t = t'
        · subst e
          obtain ⟨task, ht, hu⟩ := ih hk
          simp only [Function.update_self] at hp
          cases hp
          exact ⟨task, List.mem_cons_of_mem _ ht, hu.2 r (K.good_exec (hr.good hg) he).1⟩
        · simp only [Function.update_of_ne (fun h : t = t' => e h)] at hp
          obtain ⟨task, ht, hu⟩ := ih hp
          exact ⟨task, List.mem_cons_of_mem _ ht, hu⟩
      · by_cases e : t = t'
        · subst e
          simp only [Function.update_self] at hp
          cases hp
          exact ⟨task, List.mem_cons_self, hF task⟩
        · simp only [Function.update_of_ne (fun h : t = t' => e h)] at hp
          obtain ⟨task', ht, hu⟩ := ih hp
          exact ⟨task', List.mem_cons_of_mem _ ht, hu⟩
      · obtain ⟨task, ht, hu⟩ := ih hp
        exact ⟨task, List.mem_cons_of_mem _ ht, hu⟩

end Run

/-- The thread an event belongs to. -/
def Event.thread {K : Machine I} : Event K → Option Nat
  | .call t _ _ | .start t _ => some t
  | .env _ => none

/-- An unused thread has not occurred. -/
theorem Run.unused {K : Machine I} {ok : Config K → Move K → Prop} {c c' : Config K}
    (hr : Run ok c c') (hc : ∀ t, ∀ e ∈ c.log, e.thread ≠ some t) {t : Nat}
    (ht : c'.threads t = none) : ∀ e ∈ c'.log, e.thread ≠ some t := by
  induction hr with
  | refl => exact hc t
  | snoc hr _ hs ih =>
      rcases Machine.step_cases hs with ⟨t', a, op, k, r, w, -, hk, -, rfl⟩ |
          ⟨t', task, -, hk, rfl⟩ | ⟨x, w, -, -, rfl⟩
      · have hne : t' ≠ t := by rintro rfl; simp at ht
        simp only [Function.update_of_ne hne.symm] at ht
        simpa [Event.thread, hne] using ih ht
      · have hne : t' ≠ t := by rintro rfl; simp at ht
        simp only [Function.update_of_ne hne.symm] at ht
        simpa [Event.thread, hne] using ih ht
      · simpa [Event.thread] using ih ht

/-- A thread runs one task. -/
theorem Run.task_unique {K : Machine I} {ok : Config K → Move K → Prop} {c c' : Config K}
    (hr : Run ok c c') (hc : c.log = []) {t : Nat} {T T' : K.Task} (h : .start t T ∈ c'.log)
    (h' : .start t T' ∈ c'.log) : T = T' := by
  induction hr with
  | refl => simp [hc] at h
  | snoc hr _ hs ih =>
      rcases Machine.step_cases hs with ⟨t', a, op, k, r, w, -, -, -, rfl⟩ |
          ⟨t', task, -, hk, rfl⟩ | ⟨x, w, -, -, rfl⟩
      · exact ih (by simpa using h) (by simpa using h')
      · have hnone := hr.unused (by simp [hc]) hk
        rcases List.mem_cons.mp h with e | hl <;> rcases List.mem_cons.mp h' with e' | hl'
        · cases e; cases e'; rfl
        · cases e; exact absurd rfl (hnone _ hl')
        · cases e'; exact absurd rfl (hnone _ hl)
        · exact ih hl hl'
      · exact ih (by simpa using h) (by simpa using h')

/-! ### Monitored threads -/

/-- What monitor `M` saw of thread `t`. -/
def viewOf {K : Machine I} (M : Monitor I) (t : Nat) : List (Event K) → M.View
  | [] => M.init
  | .call t' op r :: l => if t' = t then M.observe (viewOf M t l) op r else viewOf M t l
  | .start _ _ :: l | .env _ :: l => viewOf M t l

section Monitored
variable {K : Machine I} {M : Monitor I} {ok : Config K → Move K → Prop} {c c₁ : Config K}

@[simp] theorem viewOf_nil (t : Nat) : viewOf (K := K) M t [] = M.init := rfl

theorem viewOf_call (t t' : Nat) (op : I.Op) (r : I.Ret op) (l : List (Event K)) :
    viewOf M t (.call t' op r :: l) =
      if t' = t then M.observe (viewOf M t l) op r else viewOf M t l := rfl

@[simp] theorem viewOf_call_self (t : Nat) (op : I.Op) (r : I.Ret op) (l : List (Event K)) :
    viewOf M t (.call t op r :: l) = M.observe (viewOf M t l) op r := if_pos rfl

theorem viewOf_call_other {t t' : Nat} (h : t' ≠ t) (op : I.Op) (r : I.Ret op)
    (l : List (Event K)) : viewOf M t (.call t' op r :: l) = viewOf M t l := if_neg h

@[simp] theorem viewOf_start (t t' : Nat) (task : K.Task) (l : List (Event K)) :
    viewOf M t (.start t' task :: l) = viewOf M t l := rfl

@[simp] theorem viewOf_env (t : Nat) (x : K.Stimulus) (l : List (Event K)) :
    viewOf M t (.env x :: l) = viewOf M t l := rfl

/-- The thread that made the call, if the event is one. -/
def Event.caller : Event K → Option Nat
  | .call t _ _ => some t
  | .start _ _ | .env _ => none

theorem viewOf_unseen {t : Nat} {l : List (Event K)} (h : ∀ e ∈ l, e.caller ≠ some t) :
    viewOf M t l = M.init := by
  induction l with
  | nil => rfl
  | cons e l ih =>
      have hl := ih fun e he => h e (List.mem_cons_of_mem _ he)
      cases e with
      | call t' op r =>
          have ht : t' ≠ t := fun e => h _ List.mem_cons_self (congrArg some e)
          rw [viewOf_call_other ht, hl]
      | start t' task => exact hl
      | env x => exact hl

/-- What was seen of a thread does not depend on what it was allowed. -/
theorem viewOf_allows {V : Type} {init : V} {a a' : V → I.Op → Prop}
    {observe : V → (op : I.Op) → I.Ret op → V} (t : Nat) (l : List (Event K)) :
    viewOf ⟨V, init, a, observe⟩ t l = viewOf ⟨V, init, a', observe⟩ t l := by
  induction l with
  | nil => rfl
  | cons e l ih =>
      cases e with
      | call t' op r => rw [viewOf_call, viewOf_call, ih]
      | start t' task => exact ih
      | env x => exact ih

/-- Every task obeys `M` from its first call on. -/
def Disciplined (K : Machine I) (M : Monitor I) : Prop :=
  ∀ task, (K.body task).Obeys M (fun _ _ => True) M.init

/-- Thread by thread, what is left to run obeys the monitor; an unused thread was not seen. -/
def Supervised (M : Monitor I) (c : Config K) : Prop :=
  ∀ t, match c.threads t with
    | some p => p.Obeys M (fun _ _ => True) (viewOf M t c.log)
    | none => viewOf M t c.log = M.init

theorem Supervised.step (hK : Disciplined K M) {c c' : Config K} {m : Move K}
    (hg : K.Good c.world) (h : Supervised M c) (hs : Machine.step c m = some c') :
    Supervised M c' := by
  rcases Machine.step_cases hs with ⟨t, a, op, k, r, w, -, hk, he, rfl⟩ |
      ⟨t, task, -, hk, rfl⟩ | ⟨x, w, -, -, rfl⟩
  · intro t'
    have ht := h t
    rw [hk] at ht
    by_cases e : t' = t
    · subst e
      simpa using ht.2 r (K.good_exec hg he).1
    · simpa [Function.update_of_ne e, viewOf_call_other (Ne.symm e)] using h t'
  · intro t'
    by_cases e : t' = t
    · subst e
      have ht := h t'
      rw [hk] at ht
      simpa [ht] using hK task
    · simpa [Function.update_of_ne e] using h t'
  · exact h

theorem Run.supervised (hK : Disciplined K M) {c c' : Config K} (hr : Run ok c c')
    (hg : K.Good c.world) (h : Supervised M c) : Supervised M c' := by
  induction hr with
  | refl => exact h
  | snoc hr _ hs ih => exact ih.step hK (hr.good hg) hs

/-- What every task obeys to its end, its thread obeys to its end. -/
theorem Run.obeys {Q : Except I.Exc Unit → M.View → Prop}
    (hK : ∀ task, (K.body task).Obeys M Q M.init) {c c' : Config K} (hr : Run ok c c')
    (hg : K.Good c.world) (hs : Supervised M c) (hc : ∀ t, c.threads t = none) {t : Nat}
    {p : Prog I Unit} (hp : c'.threads t = some p) : p.Obeys M Q (viewOf M t c'.log) := by
  have hdis : Disciplined K M := fun task => (hK task).mono fun _ _ _ => trivial
  induction hr generalizing t p with
  | refl => rw [hc t] at hp; cases hp
  | snoc hr _ hstep ih =>
      have hsup := hr.supervised hdis hg hs
      rcases Machine.step_cases hstep with ⟨t', a, op, k, r, w, -, hk, he, rfl⟩ |
          ⟨t', task, -, hk, rfl⟩ | ⟨x, w, -, -, rfl⟩
      · by_cases e : t = t'
        · subst e
          simp only [Function.update_self] at hp
          cases hp
          simpa using (ih hk).2 r (K.good_exec (hr.good hg) he).1
        · simp only [Function.update_of_ne (fun h : t = t' => e h)] at hp
          simpa [viewOf_call_other (Ne.symm e)] using ih hp
      · by_cases e : t = t'
        · subst e
          simp only [Function.update_self] at hp
          cases hp
          have ht := hsup t
          rw [hk] at ht
          simpa [ht] using hK task
        · simp only [Function.update_of_ne (fun h : t = t' => e h)] at hp
          exact ih hp
      · exact ih hp

/-- What every task obeys, to its end, its thread obeys. -/
theorem Run.obeys_task {M : K.Task → Monitor I}
    {Q : (T : K.Task) → Except I.Exc Unit → (M T).View → Prop}
    (hK : ∀ T, (K.body T).Obeys (M T) (Q T) (M T).init) {c c' : Config K} (hr : Run ok c c')
    (hg : K.Good c.world) (hc : ∀ t, c.threads t = none) (hl : c.log = []) {t : Nat}
    {p : Prog I Unit} (hp : c'.threads t = some p) :
    ∃ T, .start t T ∈ c'.log ∧ p.Obeys (M T) (Q T) (viewOf (M T) t c'.log) := by
  induction hr generalizing t p with
  | refl => rw [hc t] at hp; cases hp
  | snoc hr _ hstep ih =>
      rcases Machine.step_cases hstep with ⟨t', a, op, k, r, w, -, hk, he, rfl⟩ |
          ⟨t', task, -, hk, rfl⟩ | ⟨x, w, -, -, rfl⟩
      · by_cases e : t = t'
        · subst e
          obtain ⟨T, hT, ho⟩ := ih hk
          simp only [Function.update_self] at hp
          cases hp
          refine ⟨T, List.mem_cons_of_mem _ hT, ?_⟩
          rw [viewOf_call_self]
          exact ho.2 r (K.good_exec (hr.good hg) he).1
        · simp only [Function.update_of_ne (fun h : t = t' => e h)] at hp
          obtain ⟨T, hT, ho⟩ := ih hp
          refine ⟨T, List.mem_cons_of_mem _ hT, ?_⟩
          rw [viewOf_call_other (Ne.symm e)]
          exact ho
      · by_cases e : t = t'
        · subst e
          simp only [Function.update_self] at hp
          cases hp
          refine ⟨task, List.mem_cons_self, ?_⟩
          -- A thread that starts has made no calls, so that its view is the first one.
          have hunused := hr.unused (by simp [hl]) hk
          rw [viewOf_start, viewOf_unseen]
          · exact hK task
          · intro e he hce
            refine hunused e he ?_
            cases e <;> simp_all [Event.caller, Event.thread]
        · simp only [Function.update_of_ne (fun h : t = t' => e h)] at hp
          obtain ⟨T, hT, ho⟩ := ih hp
          exact ⟨T, List.mem_cons_of_mem _ hT, ho⟩
      · obtain ⟨T, hT, ho⟩ := ih hp
        exact ⟨T, List.mem_cons_of_mem _ hT, ho⟩

/-- A supervised thread's next call is allowed. -/
theorem Supervised.allows {c : Config K} (h : Supervised M c) {t : Nat} {op : I.Op}
    {k : I.Ret op → Prog I Unit} (hk : c.threads t = some (.call op k)) :
    M.allows (viewOf M t c.log) op := by
  have ht := h t
  rw [hk] at ht
  exact ht.1

/-- Every call of the run meets `C`, a condition on the world and the log before it. -/
def Calling (C : K.World → List (Event K) → Nat → I.Op → Prop) (c : Config K) :
    Move K → Prop
  | .run t _ => ∀ op k, c.threads t = some (.call op k) → C c.world c.log t op
  | .start _ _ | .env _ => True

/-- **The invariant rule.**  What holds at the start, and is preserved by every call the
monitor and the condition allow, by every start and by every act of the environment, holds along
every run.  `Known` is what has been proved of the configurations of such a run before. -/
theorem Run.invariant {C : K.World → List (Event K) → Nat → I.Op → Prop}
    {Inv : K.World → List (Event K) → Prop} (Known : K.World → List (Event K) → Prop)
    (hK : Disciplined K M)
    (hcall : ∀ w l t op a r w', Inv w l → Known w l → C w l t op →
      M.allows (viewOf M t l) op → I.Sane op r → K.exec t op a w = some (r, w') →
      Inv w' (.call t op r :: l))
    (hstart : ∀ w l t task, Inv w l → Inv w (.start t task :: l))
    (henv : ∀ w l x w', Inv w l → Known w l → K.disturb x w = some w' → Inv w' (.env x :: l))
    {c c' : Config K} (hr : Run (Calling C) c c') (hg : K.Good c.world) (hs : Supervised M c)
    (hknown : ∀ c', Run (Calling C) c c' → Known c'.world c'.log)
    (h : Inv c.world c.log) : Inv c'.world c'.log := by
  induction hr with
  | refl => exact h
  | snoc hr hok hstep ih =>
      have hsup := hr.supervised hK hg hs
      have hgood := hr.good hg
      rcases Machine.step_cases hstep with ⟨t, a, op, k, r, w, rfl, hk, he, rfl⟩ |
          ⟨t, task, rfl, -, rfl⟩ | ⟨x, w, rfl, he, rfl⟩
      · exact hcall _ _ t op a r w ih (hknown _ hr) (hok op k hk) (hsup.allows hk)
          (K.good_exec hgood he).1 he
      · exact hstart _ _ t task ih
      · exact henv _ _ x w ih (hknown _ hr) he

/-- **The invariant rule, task by task.**  As `Run.invariant`, where each task has a monitor of
its own. -/
theorem Run.invariant_of_tasks {M : K.Task → Monitor I} {Q : K.World → List (Event K) → Prop}
    (hK : ∀ T, (K.body T).Obeys (M T) (fun _ _ => True) (M T).init)
    (hcall : ∀ c t T a op k r w', Q c.world c.log → ok c (.run t a) →
      c.threads t = some (.call op k) → .start t T ∈ c.log →
      (M T).allows (viewOf (M T) t c.log) op → I.Sane op r →
      K.exec t op a c.world = some (r, w') → Q w' (.call t op r :: c.log))
    (hstart : ∀ w l t T, Q w l → Q w (.start t T :: l))
    (henv : ∀ w l x w', Q w l → K.disturb x w = some w' → Q w' (.env x :: l))
    {c c' : Config K} (hr : Run ok c c') (hg : K.Good c.world) (hc : ∀ t, c.threads t = none)
    (hl : c.log = []) (h : Q c.world c.log) : Q c'.world c'.log := by
  induction hr with
  | refl => exact h
  | snoc hr hok hstep ih =>
      rcases Machine.step_cases hstep with ⟨t, a, op, k, r, w, rfl, hk, he, rfl⟩ |
          ⟨t, task, rfl, -, rfl⟩ | ⟨x, w, rfl, he, rfl⟩
      · obtain ⟨T, hT, ho⟩ := hr.obeys_task hK hg hc hl hk
        exact hcall _ t T a op k r w ih hok hk hT ho.1 (K.good_exec (hr.good hg) he).1 he
      · exact hstart _ _ t task ih
      · exact henv _ _ x w ih he

/-- A schedule whose moves meet `ok` and whose calls pass a check is a run whose moves meet `ok`
and whose calls meet what the check says. -/
theorem Run.of_checked {C : K.World → List (Event K) → Nat → I.Op → Prop}
    {d : K.World → List (Event K) → Nat → I.Op → Bool}
    (hcheck : ∀ w l t op, d w l t op = true → C w l t op) {ms : List (Move K)}
    (hok : ∀ c, ∀ m ∈ ms, ok c m)
    (hp : Machine.play c ms = some c₁) (hm : Machine.calls d c ms = true) :
    Run (fun c m => ok c m ∧ Calling C c m) c c₁ := by
  induction ms generalizing c with
  | nil => cases hp; exact .refl _
  | cons m ms ih =>
      simp only [Machine.play] at hp
      simp only [Machine.calls, Bool.and_eq_true] at hm
      obtain ⟨hc, hm⟩ := hm
      split at hp
      · next c' hs =>
          rw [hs] at hm
          have hrest := ih (fun c m hmem => hok c m (List.mem_cons_of_mem _ hmem)) hp hm
          refine (Run.snoc (.refl _) ⟨hok c m List.mem_cons_self, ?_⟩ hs).trans hrest
          cases m with
          | run t a =>
              intro op k hk
              simp only [hk] at hc
              exact hcheck _ _ _ _ hc
          | start | env => trivial
      · cases hp

/-- A schedule whose calls pass a check is a run whose calls meet what the check says. -/
theorem Run.of_calls {C : K.World → List (Event K) → Nat → I.Op → Prop}
    {check : K.World → List (Event K) → Nat → I.Op → Bool}
    (hcheck : ∀ w l t op, check w l t op = true → C w l t op) {ms : List (Move K)}
    (hp : Machine.play c ms = some c₁) (hm : Machine.calls check c ms = true) :
    Run (Calling C) c c₁ :=
  have hr : Run (fun c m => Anything c m ∧ Calling C c m) c c₁ :=
    Run.of_checked hcheck (fun _ _ _ => trivial) hp hm
  hr.mono fun _ _ h => h.2

theorem Run.calling (hr : Run Anything c c₁) :
    Run (Calling (fun _ _ _ _ => True)) c c₁ :=
  hr.mono fun _ m _ => by cases m <;> simp [Calling]

end Monitored

end Interleaving
