import Orchestrator.Interleaving.Succession
import Orchestrator.Runtime.Sample
import Orchestrator.Discipline.Deeds

/-!
# Lifecycle — the external calls of a dynamic check

The executions of one dynamic run, one after another, each of them cut off anywhere.  What has
been asked of the outside is read off the log; what an execution may still ask for it decodes
from the fields its predecessors saved.

* `DynamicRun`: the fields of a build that an execution decodes.
* `Budgeted`: the requests a run may have made, the newest first.
* `Recorded`: the invariant.  What is saved determines what has been asked for.
* `executions S b`: the executions of the run of `b`, while the rest of the system works.
* `call_budget`: every run of them is within the budget, and a finished one asks for nothing.
-/

namespace Orchestrator
open Interleaving

/-! ### The run -/

/-- What an execution decodes from the stored build. -/
structure DynamicRun where
  status : DynamicStatus
  initialStarted : Bool
  debugStarted : Bool
  retryStarted : Bool
  retryPayload : Option Json
  result : ProbeResult
  payload : Option Json
  route : Option String

def BuildJob.run (j : BuildJob) : DynamicRun where
  status := j.dynamicStatus
  initialStarted := j.dynamicInitialStarted
  debugStarted := j.dynamicDebugStarted
  retryStarted := j.dynamicRetryStarted
  retryPayload := j.dynamicRetryPayload
  result := j.probeResult.getD {}
  payload := j.routeProbePayload
  route := j.requireRouteSnapshot

namespace DynamicRun

/-- The check has a verdict. -/
def finished (x : DynamicRun) : Bool := x.status == .succeeded || x.status == .failed

/-- The run after a write. -/
def write (x : DynamicRun) (f : BuildFields) : DynamicRun where
  status := f.dynamicStatus.apply x.status
  initialStarted := f.dynamicInitialStarted.apply x.initialStarted
  debugStarted := f.dynamicDebugStarted.apply x.debugStarted
  retryStarted := f.dynamicRetryStarted.apply x.retryStarted
  retryPayload := f.dynamicRetryPayload.apply x.retryPayload
  result := match f.probeResult with
    | .keep => x.result
    | .set r => r.getD {}
  payload := x.payload
  route := x.route

end DynamicRun

theorem run_modelCopy (j : BuildJob) (f : BuildFields) : (j.modelCopy f).run = j.run.write f := by
  cases h : f.probeResult <;> simp [BuildJob.run, DynamicRun.write, BuildJob.modelCopy, h, Change.apply]

theorem run_moveTo (j : BuildJob) (st : BuildStatus) (f : BuildFields) :
    (j.moveTo st f).run = j.run.write f := run_modelCopy j f

/-- A run nothing has been asked for: submitted, or not even that. -/
structure DynamicRun.Fresh (x : DynamicRun) : Prop where
  initialStarted : x.initialStarted = false
  debugStarted : x.debugStarted = false
  retryStarted : x.retryStarted = false
  retryPayload : x.retryPayload = none
  initial : x.result.initial = none

/-! ### Requests to the outside -/

/-- A request, with its outcome. -/
inductive External where
  | probe (payload : Json) (r : Except Exc ProbeReport)
  | agent (r : Except Exc DebugOutput)

/-- The request an event is for build `b`. -/
def Event.external {K : Machine api} (b : BuildId) : Event K → Option External
  | .call _ (.runProbe b' payload _) r => if b' = b then some (.probe payload r) else none
  | .call _ (.runDebugAgent b' _) r => if b' = b then some (.agent r) else none
  | _ => none

/-- The requests made for build `b`, the newest first. -/
def externals {K : Machine api} (b : BuildId) (l : List (Event K)) : List External :=
  l.filterMap (Event.external b)

/-- The agent repaired the request, and the repair was accepted: the payload it led to, or that
payload as it is accepted when it is read back. -/
def Accepted (S : Settings) (route : Option String) (original : Json) (out : DebugOutput)
    (payload : Json) : Prop :=
  ∃ retry accepted, out.retryPayload = some (some retry) ∧
    S.retryPayload original retry route = .ok accepted ∧
    (payload = accepted ∨ S.retryPayload original accepted route = .ok payload)

/-- What a run may have asked for, the newest first: nothing; the initial probe; after it failed,
the debug agent; after the agent's repair was accepted, the retry. -/
inductive Budgeted (S : Settings) (route : Option String) : List External → Prop where
  | nothing : Budgeted S route []
  | initial (original : Json) (r : Except Exc ProbeReport) : Budgeted S route [.probe original r]
  | debug {original : Json} {report : ProbeReport} (h : report.passed = false)
      (r : Except Exc DebugOutput) :
      Budgeted S route [.agent r, .probe original (.ok report)]
  | retry {original : Json} {report : ProbeReport} (h : report.passed = false) {out : DebugOutput}
      {payload : Json} (ha : Accepted S route original out payload) (r : Except Exc ProbeReport) :
      Budgeted S route [.probe payload r, .agent (.ok out), .probe original (.ok report)]

/-! ### The invariant -/

/-- Only the initial probe has been asked for, and it failed. -/
def Probed (S : Settings) (x : DynamicRun) (calls : List External) : Prop :=
  ∃ original report, S.validateProbePayload x.payload x.route = .ok original ∧
    report.passed = false ∧ calls = [.probe original (.ok report)]

/-- The agent has been asked too, and `payload` is its accepted repair. -/
def Advised (S : Settings) (x : DynamicRun) (payload : Json) (calls : List External) : Prop :=
  ∃ original report out retry, S.validateProbePayload x.payload x.route = .ok original ∧
    report.passed = false ∧ out.retryPayload = some (some retry) ∧
    S.retryPayload original retry x.route = .ok payload ∧
    calls = [.agent (.ok out), .probe original (.ok report)]

/-- The initial probe is known to have failed, and the retry has not been started. -/
def DynamicRun.Repairable (x : DynamicRun) : Prop :=
  x.finished = false ∧ (∃ report, x.result.initial = some report ∧ report.passed = false) ∧
    x.retryStarted = false

/-- What the saved fields say about what has been asked for. -/
structure Recorded (S : Settings) (x : DynamicRun) (calls : List External) : Prop where
  budget : Budgeted S x.route calls
  bare : x.finished = false → x.result.initial = none → x.retryPayload = none
  unprobed : x.finished = false → x.result.initial = none → x.initialStarted = false → calls = []
  probed : x.Repairable → x.retryPayload = none → x.debugStarted = false → Probed S x calls
  advised : x.Repairable → ∀ payload, x.retryPayload = some payload → Advised S x payload calls

theorem DynamicRun.Fresh.recorded {S : Settings} {x : DynamicRun} (h : x.Fresh) :
    Recorded S x [] where
  budget := .nothing
  bare _ _ := h.retryPayload
  unprobed _ _ _ := rfl
  probed hr := by
    obtain ⟨-, ⟨report, hi, -⟩, -⟩ := hr
    rw [h.initial] at hi
    cases hi
  advised hr := by
    obtain ⟨-, ⟨report, hi, -⟩, -⟩ := hr
    rw [h.initial] at hi
    cases hi

/-- A verdict says nothing about what may still be asked for. -/
theorem Recorded.of_finished {S : Settings} {x : DynamicRun} {calls : List External}
    (hf : x.finished = true) (h : Budgeted S x.route calls) : Recorded S x calls where
  budget := h
  bare hn := by rw [hf] at hn; cases hn
  unprobed hn := by rw [hf] at hn; cases hn
  probed hr := by rw [hr.1] at hf; cases hf
  advised hr := by rw [hr.1] at hf; cases hf

/-! ### What a call does to a run -/

/-- A run and what has been asked for it. -/
structure Probing where
  run : DynamicRun
  calls : List External

/-- The call leaves the run of `b` alone, and asks for nothing. -/
def Op.Spares (b : BuildId) : Op → Prop
  | .createBuild j => j.buildId ≠ b
  | .updateBuild b' f | .transitionBuild b' _ _ f => b' = b → ∀ x : DynamicRun, x.write f = x
  | .runProbe b' _ _ | .runDebugAgent b' _ => b' ≠ b
  | _ => True

/-- What a call may do to the run of `b`, and what its response says of it. -/
def RunStep (b : BuildId) (s : Probing) : (op : Op) → op.Ret → Probing → Prop
  | .getBuild b', r, s' => s' = s ∧ (b' = b → ∀ j, r = some j → j.run = s.run)
  | .createBuild j, _, s' => j.buildId ≠ b → s' = s
  | .updateBuild b' f, r, s' | .transitionBuild b' _ _ f, r, s' =>
      (b' ≠ b ∨ r = none) ∧ s' = s ∨
      b' = b ∧ s' = { s with run := s.run.write f } ∧ ∃ j, r = some j ∧ j.run = s.run.write f
  | .runProbe b' payload _, r, s' =>
      s' = if b' = b then { s with calls := .probe payload r :: s.calls } else s
  | .runDebugAgent b' _, r, s' => s' = if b' = b then { s with calls := .agent r :: s.calls } else s
  | _, _, s' => s' = s

/-- After the verdict, nothing is asked for and no write takes it back. -/
def Final (b : BuildId) (s : Probing) (op : Op) : Prop :=
  s.run.finished = true → match op with
    | .createBuild j => j.buildId ≠ b
    | .updateBuild b' f | .transitionBuild b' _ _ f => b' = b → (s.run.write f).finished = true
    | .runProbe b' _ _ | .runDebugAgent b' _ => b' ≠ b
    | _ => True

/-- What the executions of a run keep to. -/
def budget (S : Settings) (b : BuildId) : Contract api Probing where
  does := RunStep b
  allows := Final b
  holds s := Recorded S s.run s.calls

theorem Op.Spares.final {b : BuildId} {op : Op} (h : op.Spares b) (s : Probing) :
    Final b s op := by
  intro hf
  cases op with
  | updateBuild b' f | transitionBuild b' l st f => exact fun e => by rw [h e]; exact hf
  | createBuild j => exact h
  | runProbe b' payload endpoints | runDebugAgent b' role => exact h
  | _ => trivial

theorem Op.Spares.unseen {b : BuildId} {op : Op} (h : op.Spares b) {s s' : Probing} {r : op.Ret}
    (hs : RunStep b s op r s') : s' = s := by
  cases op with
  | updateBuild b' f | transitionBuild b' l st f =>
      rcases hs with ⟨-, rfl⟩ | ⟨e, rfl, -⟩
      · rfl
      · rw [h e]
  | createBuild j => exact hs h
  | runProbe b' payload endpoints | runDebugAgent b' role => exact hs.trans (if_neg h)
  | getBuild b' => exact hs.1
  | _ => exact hs

/-- The run of a build, as it is stored. -/
def World.run (w : World) (b : BuildId) : DynamicRun :=
  ((w.repo.builds.lookup b).map BuildJob.run).getD ⟨.pending, false, false, false, none, {}, none, none⟩

theorem exec_run {K : Machine api} {b : BuildId} {t : Nat} {op : Op} {a : Answers} {w w' : World}
    {r : op.Ret} (l : List (Event K)) (h : exec t op a w = some (r, w')) :
    RunStep b ⟨w.run b, externals b l⟩ op r ⟨w'.run b, externals b (.call t op r :: l)⟩ := by
  have hb := exec_build h b
  simp only [World.run]
  generalize w.repo.builds.lookup b = old at hb ⊢
  generalize w'.repo.builds.lookup b = new at hb ⊢
  cases hb with
  | same hr =>
      cases op with
      | getBuild b' => exact ⟨rfl, fun e j hj => by rw [← hr e, hj]; rfl⟩
      | createBuild j => exact fun _ => rfl
      | updateBuild b' f | transitionBuild b' l st f =>
          refine .inl ⟨?_, rfl⟩
          by_cases e : b' = b
          · exact .inr (hr e).1
          · exact .inl e
      | runProbe b' payload endpoints | runDebugAgent b' role =>
          by_cases e : b' = b <;> simp [RunStep, externals, Event.external, e]
      | _ => rfl
  | created hj => exact fun e => absurd hj e
  | @updated j f =>
      refine .inr ⟨rfl, ?_, _, rfl, run_modelCopy j f⟩
      simp only [Option.map_some, Option.getD_some, run_modelCopy]
      rfl
  | @moved j l st f hl =>
      refine .inr ⟨rfl, ?_, _, rfl, run_moveTo j st f⟩
      simp only [Option.map_some, Option.getD_some, run_moveTo]
      rfl

/-! ### Executions -/

/-- The guard an execution is given: it writes no build, and asks for nothing. -/
structure Guard (b : BuildId) where
  prog : P Unit
  spares : prog.Uses (Op.Spares b)

/-- The guard of a lease. -/
def ResourceTracker.toGuard (tr : ResourceTracker) (b : BuildId) : Guard b where
  prog := tr.guard
  spares := .bind ⟨trivial, fun _ _ => trivial⟩ fun r => Prog.uses_ofExcept (I := api) r

/-- What the rest of the system does to the run of `b`: nothing; or a verdict from outside, as when
the delivery fails. -/
inductive Outside (b : BuildId) where
  | elsewhere (act : World → World) (keyed : ∀ w : World, w.Keyed → (act w).Keyed)
      (spares : ∀ w, (act w).run b = w.run b)
  | concluded (act : World → World) (keyed : ∀ w : World, w.Keyed → (act w).Keyed)
      (verdict : ∀ w, (act w).run b = { w.run b with status := .failed })

namespace Outside
variable {b : BuildId}

def act : Outside b → World → World
  | elsewhere act _ _ | concluded act _ _ => act

/-- No execution goes on after a verdict from outside. -/
def breaks : Outside b → Bool
  | elsewhere .. => false
  | concluded .. => true

theorem keyed (x : Outside b) {w : World} (hw : w.Keyed) : (x.act w).Keyed := by
  cases x with
  | elsewhere act keyed spares => exact keyed w hw
  | concluded act keyed verdict => exact keyed w hw

end Outside

/-- The executions of the run of `b`, each with its own guard. -/
@[reducible] def executions (S : Settings) (b : BuildId) : Machine api where
  World := World
  Answer := Answers
  Stimulus := Outside b
  Task := Guard b
  body g := do
    let _ ← DynamicCheckService.execute S b g.prog
    return ()
  exec := exec
  disturb x w := some (x.act w)
  Good := World.Keyed
  good_exec hw h := exec_sane hw h
  good_disturb {x} _ _ hw h := by cases h; exact x.keyed hw

/-- What an execution is about. -/
def budgetSight (S : Settings) (b : BuildId) : Sight (executions S b) (budget S b) where
  at_ w l := ⟨w.run b, externals b l⟩
  call l _ h := exec_run l h
  start _ _ := rfl

theorem budget_calm (S : Settings) (b : BuildId) : Calm (budgetSight S b) Outside.breaks where
  still {x w w' l} h hx := by
    cases h
    cases x with
    | elsewhere act keyed spares =>
        exact congrArg (Probing.mk · (externals b l)) (spares w)
    | concluded act keyed verdict => cases hx
  kept {x w w' l} h hh := by
    cases h
    cases x with
    | elsewhere act keyed spares =>
        change Recorded S ((act w).run b) (externals b l)
        rw [spares w]
        exact hh
    | concluded act keyed verdict =>
        have hb : Budgeted S (w.run b).route (externals b l) := Recorded.budget hh
        change Recorded S ((act w).run b) (externals b l)
        rw [verdict w]
        exact .of_finished rfl hb

/-! ### What leaves the run alone -/

section Spares
variable (S : Settings) {b : BuildId}

theorem getBuild_spares (b' : BuildId) : (BuildService.getBuild b').Uses (Op.Spares b) := by
  refine .call trivial fun r _ => ?_
  cases r <;> trivial

theorem recordEvent_spares (appid : String) (b' : Option BuildId) (kind message : String)
    (level : EventLevel) : (recordEvent appid b' kind message level).Uses (Op.Spares b) :=
  .call trivial fun _ _ => uses_one trivial

theorem transition_spares (b' : BuildId) (target : BuildStatus) {f : BuildFields}
    (hf : ∀ x : DynamicRun, x.write f = x) :
    (BuildService.transition b' target f).Uses (Op.Spares b) := by
  refine .bind (getBuild_spares b') fun build => ?_
  split
  · trivial
  split
  · trivial
  refine .call trivial fun _ _ => .call (fun _ x => hf x) fun r _ => ?_
  cases r with
  | none =>
      refine .bind (getBuild_spares b') fun current => ?_
      split <;> trivial
  | some updated => exact .bind (recordEvent_spares ..) fun _ => trivial

theorem fail_spares (b' : BuildId) (message : String) (site : Option String) :
    (BuildService.fail b' message site).Uses (Op.Spares b) := by
  refine .bind (getBuild_spares b') fun build => ?_
  split
  · trivial
  refine .bind (transition_spares b' .failed fun _ => rfl) fun failed => ?_
  refine .call trivial fun u _ => .call trivial fun _ _ => ?_
  exact .bind (recordEvent_spares ..) fun _ => trivial

namespace DynamicCheckService
variable (build : BuildJob) (g : Guard b)

theorem claimResult_spares (allowClaim : Bool) :
    (claimResult build g.prog allowClaim).Uses (Op.Spares b) := by
  have frozen : (frozenRow build).Uses (Op.Spares b) := by
    unfold frozenRow
    split
    · exact uses_one trivial
    · trivial
  refine .bind frozen fun row => ?_
  cases row with
  | none => trivial
  | some row =>
      dsimp only
      split
      · trivial
      refine .bind g.spares fun _ => ?_
      split
      · trivial
      refine .call trivial fun r _ => ?_
      cases r with
      | some _ => trivial
      | none =>
          refine .call trivial fun current _ => ?_
          split <;> trivial

theorem syncResult_spares : (syncResult build g.prog).Uses (Op.Spares b) := by
  unfold syncResult
  split
  · trivial
  refine .bind g.spares fun _ => ?_
  split
  · trivial
  · exact .call trivial fun _ _ => trivial

theorem secrets_spares (extra : Option Json) : (secrets build extra).Uses (Op.Spares b) :=
  .call trivial fun _ _ => trivial

theorem redactText_spares (text : String) (extra : Option Json) :
    (redactText S build text extra).Uses (Op.Spares b) :=
  .bind (secrets_spares build extra) fun _ => trivial

theorem redactJson_spares (value : Json) : (redactJson S build value).Uses (Op.Spares b) :=
  .bind (secrets_spares build none) fun _ => trivial

theorem redactReport_spares (r : ProbeReport) : (redactReport S build r).Uses (Op.Spares b) :=
  .bind (redactJson_spares S build _) fun _ => trivial

/-- Redaction leaves the verdict alone. -/
theorem redactReport_yields (r : ProbeReport) :
    (redactReport S build r).Yields (·.passed = r.passed) :=
  .after fun _ => rfl

theorem redactResult_spares (r : ProbeResult) : (redactResult S build r).Uses (Op.Spares b) :=
  .bind (secrets_spares build none) fun _ => trivial

theorem shownReport_spares (report : Option String) :
    (shownReport S build report).Uses (Op.Spares b) := by
  unfold shownReport
  split
  · trivial
  · exact .bind (redactText_spares S build _ none) fun _ => trivial

theorem endpoints_spares (payload : Json) :
    (endpoints S build payload).Uses (Op.Spares b) := by
  refine .call trivial fun m _ => ?_
  cases m with
  | none => trivial
  | some m =>
      dsimp only
      split
      · trivial
      · exact .call trivial fun _ _ => Prog.uses_ofExcept (I := api) _

theorem failInterrupted_spares : (failInterrupted b build g.prog).Uses (Op.Spares b) := by
  unfold failInterrupted
  split
  · exact .bind g.spares fun _ => fail_spares b _ _
  · trivial

end DynamicCheckService

end Spares

/-! ### Within an execution -/

section Within
variable {S : Settings} {b : BuildId} {α β : Type} {s : Probing}

/-- Wherever `p` is cut off, the invariant holds. -/
abbrev Keeping (S : Settings) (b : BuildId) (p : P α) (s : Probing) : Prop :=
  p.Safe (budget S b) (fun _ s' => Recorded S s'.run s'.calls) s

/-- What spares the run changes nothing. -/
theorem spared {p : P α} (hp : p.Uses (Op.Spares b)) (hs : Recorded S s.run s.calls) :
    p.Safe (budget S b) (fun _ s' => s' = s) s := by
  refine hp.safe (P := (· = s)) (fun s₁ op e h => ?_) (fun s₁ e => ?_) rfl
  · subst e
    exact ⟨h.final s₁, fun r s' _ hd => h.unseen hd⟩
  · subst e
    exact hs

/-- Something spares the run, and the rest goes on from the same state. -/
theorem spared_then {p : P α} {f : α → P β} {Q : Except Exc β → Probing → Prop}
    (hp : p.Uses (Op.Spares b)) (hs : Recorded S s.run s.calls)
    (hf : ∀ a, (f a).Safe (budget S b) Q s) (he : ∀ e, Q (.error e) s) :
    (p.bind f).Safe (budget S b) Q s := by
  rw [Prog.safe_bind]
  refine (spared hp hs).mono fun r s' e => ?_
  subst e
  cases r with
  | ok a => exact hf a
  | error e => exact he e

/-- The same, with what the first part yields. -/
theorem spared_yields {p : P α} {f : α → P β} {Q : Except Exc β → Probing → Prop} {R : α → Prop}
    (hp : p.Uses (Op.Spares b)) (hy : p.Yields R) (hs : Recorded S s.run s.calls)
    (hf : ∀ a, R a → (f a).Safe (budget S b) Q s) (he : ∀ e, Q (.error e) s) :
    (p.bind f).Safe (budget S b) Q s := by
  rw [Prog.safe_bind]
  refine ((spared hp hs).and_yields hy).mono fun r s' h => ?_
  obtain ⟨rfl, hR⟩ := h
  cases r with
  | ok a => exact hf a (hR a rfl)
  | error e => exact he e

theorem getBuild_safe (hs : Recorded S s.run s.calls) :
    (BuildService.getBuild b).Safe (budget S b)
      (fun r s' => s' = s ∧ ∀ j, r = .ok j → j.run = s.run) s := by
  refine ⟨fun _ => trivial, fun r s' _ hd => ?_⟩
  obtain ⟨rfl, hj⟩ := hd
  refine ⟨hs, ?_⟩
  cases r with
  | none => exact ⟨rfl, by rintro _ ⟨⟩⟩
  | some j =>
      refine ⟨rfl, ?_⟩
      rintro _ ⟨⟩
      exact hj rfl j rfl

/-- Before the verdict, every call is allowed. -/
theorem open_allows {op : Op} (h : s.run.finished = false) : (budget S b).allows s op := by
  intro hf
  rw [h] at hf
  cases hf

/-- Once the initial probe is issued, its saved result leads on. -/
theorem Recorded.of_probing {x : DynamicRun} {calls : List External}
    (hs : x.initialStarted = true) (hi : x.result.initial = none) (hp : x.retryPayload = none)
    (h : Budgeted S x.route calls) : Recorded S x calls where
  budget := h
  bare _ _ := hp
  unprobed _ _ hn := by rw [hn] at hs; cases hs
  probed hr := by
    obtain ⟨-, ⟨report, hreport, -⟩, -⟩ := hr
    rw [hi] at hreport
    cases hreport
  advised hr := by
    obtain ⟨-, ⟨report, hreport, -⟩, -⟩ := hr
    rw [hi] at hreport
    cases hreport

/-- Once the retry is started, nothing more may be asked for. -/
theorem Recorded.of_retrying {x : DynamicRun} {calls : List External}
    (hR : x.retryStarted = true) (hi : x.result.initial ≠ none) (h : Budgeted S x.route calls) :
    Recorded S x calls where
  budget := h
  bare _ hn := absurd hn hi
  unprobed _ hn := absurd hn hi
  probed hr := by rw [hr.2.2] at hR; cases hR
  advised hr := by rw [hr.2.2] at hR; cases hR

/-- Once the agent is asked, only its repair leads on. -/
theorem Recorded.of_debugging {x : DynamicRun} {calls : List External}
    (hD : x.debugStarted = true) (hp : x.retryPayload = none) (hi : x.result.initial ≠ none)
    (h : Budgeted S x.route calls) : Recorded S x calls where
  budget := h
  bare _ hn := absurd hn hi
  unprobed _ hn := absurd hn hi
  probed _ _ hd := by rw [hd] at hD; cases hD
  advised _ payload he := by rw [hp] at he; cases he

/-- A run without a verdict goes on where it was. -/
theorem Recorded.resume {x : DynamicRun} {calls : List External} (h : Recorded S x calls)
    (hf : x.finished = false) : Recorded S { x with status := .running } calls where
  budget := h.budget
  bare _ hi := h.bare hf hi
  unprobed _ hi hn := h.unprobed hf hi hn
  probed hr hp hd := h.probed ⟨hf, hr.2⟩ hp hd
  advised hr payload hp := h.advised ⟨hf, hr.2⟩ payload hp

namespace DynamicCheckService
variable {g : Guard b}

theorem save_safe {f : BuildFields} (hs : Recorded S s.run s.calls)
    (hw : Recorded S (s.run.write f) s.calls)
    (hf : s.run.finished = true → (s.run.write f).finished = true) :
    (save b f g.prog).Safe (budget S b) (fun r s' => ∀ j, r = .ok j →
      s' = { s with run := s.run.write f } ∧ j.run = s.run.write f) s := by
  refine spared_then g.spares hs (fun _ => ?_) (by rintro e _ ⟨⟩)
  refine ⟨fun h _ => hf h, fun r s' _ hd => ?_⟩
  rcases hd with ⟨hn, rfl⟩ | ⟨-, rfl, j, rfl, hj⟩
  · refine ⟨hs, ?_⟩
    rcases hn with hn | rfl
    · exact absurd rfl hn
    · rintro _ ⟨⟩
  · refine ⟨hw, ?_⟩
    rintro _ ⟨⟩
    exact ⟨rfl, hj⟩

/-- The verdict may come at any point. -/
theorem finish_safe (passed : Bool) (result : ProbeResult) (report : Option String)
    (hs : Recorded S s.run s.calls) : Keeping S b (finish S b passed result report g.prog) s := by
  refine spared_then (getBuild_spares b) hs (fun build => ?_) fun _ => hs
  refine spared_then (shownReport_spares S build report) hs (fun report => ?_) fun _ => hs
  refine spared_then (redactResult_spares S build result) hs (fun result => ?_) fun _ => hs
  have hf : (s.run.write (finishFields passed result report)).finished = true := by
    cases passed <;> rfl
  have hw : Recorded S (s.run.write (finishFields passed result report)) s.calls :=
    .of_finished hf hs.budget
  rw [Prog.bind_eq, Prog.safe_bind]
  refine ((save_safe hs hw fun _ => hf).held hs).mono fun r s' h => ?_
  cases r with
  | error e => exact h.2
  | ok saved =>
      obtain ⟨rfl, -⟩ := h.1 saved rfl
      refine spared_then (p := if passed then .ret saved else _) ?_ hw (fun build => ?_) fun _ => hw
      · split
        · trivial
        · exact .bind g.spares fun _ => fail_spares b _ _
      · exact spared_then (syncResult_spares build g) hw (fun _ => hw) fun _ => hw

/-- A step of the `try` hands on what it found; wherever it raises, the handler is safe. -/
theorem stage_safe {p : P α} {k : α → P Outcome} {st : Progress} (hs : Recorded S s.run s.calls)
    (h : p.Safe (budget S b) (fun r s' => ∀ a, r = .ok a → Recorded S s'.run s'.calls →
      Keeping S b (k a) s') s) : Keeping S b (stage st p k) s := by
  rw [Keeping, stage, Prog.safe_bind, Prog.safe_attempt]
  refine (h.held hs).mono fun r s' hr => ?_
  cases r with
  | ok a => exact hr.1 a rfl hr.2
  | error e => exact hr.2

theorem settle_safe {st : Progress} {passed : Bool} {result : ProbeResult}
    {report : Option String} (hs : Recorded S s.run s.calls) :
    Keeping S b (settle st (finish S b passed result report g.prog)) s :=
  stage_safe hs ((finish_safe passed result report hs).mono fun _ _ _ _ _ hs' => hs')

theorem runProbe_safe {payload : Json} {endpoints : List ProbeEndpoint}
    (ho : s.run.finished = false) (hd : ∀ r, Recorded S s.run (.probe payload r :: s.calls)) :
    (orRaise (call (.runProbe b payload endpoints))).Safe (budget S b) (fun r s' => ∀ report,
      r = .ok report → s' = { s with calls := .probe payload (.ok report) :: s.calls }) s := by
  refine ⟨open_allows ho, fun r s' _ hs => ?_⟩
  obtain rfl := hs.trans (if_pos rfl)
  refine ⟨hd r, ?_⟩
  dsimp only
  rw [Prog.ret_bind, Prog.safe_ofExcept]
  rintro report rfl
  rfl

theorem runDebugAgent_safe {role : AgentRole} (ho : s.run.finished = false)
    (hd : ∀ r, Recorded S s.run (.agent r :: s.calls)) :
    (orRaise (call (.runDebugAgent b role))).Safe (budget S b) (fun r s' => ∀ out, r = .ok out →
      s' = { s with calls := .agent (.ok out) :: s.calls }) s := by
  refine ⟨open_allows ho, fun r s' _ hs => ?_⟩
  obtain rfl := hs.trans (if_pos rfl)
  refine ⟨hd r, ?_⟩
  dsimp only
  rw [Prog.ret_bind, Prog.safe_ofExcept]
  rintro out rfl
  rfl

theorem retryProbe_safe {endpoints : List ProbeEndpoint} {retry : Json} {st : Progress}
    (hs : Recorded S s.run s.calls) (hr : s.run.Repairable) {original : Json}
    {report : ProbeReport} {out : DebugOutput} (hf : report.passed = false)
    (ha : Accepted S s.run.route original out retry)
    (hc : s.calls = [.agent (.ok out), .probe original (.ok report)]) :
    Keeping S b (retryProbe S b endpoints retry g.prog st) s := by
  obtain ⟨hfin, ⟨first, hi, -⟩, -⟩ := hr
  generalize hx : s.run.write { dynamicRetryStarted := .set true } = x
  have hxi : x.result.initial ≠ none := by rw [← hx]; simp [DynamicRun.write, hi]
  have hxR : x.retryStarted = true := by rw [← hx]; rfl
  have hxf : x.finished = false := by rw [← hx]; exact hfin
  have hxr : x.route = s.run.route := by rw [← hx]; rfl
  have hw : Recorded S x s.calls := .of_retrying hxR hxi (by rw [hxr]; exact hs.budget)
  have hd (r : Except Exc ProbeReport) : Recorded S x (.probe retry r :: s.calls) :=
    .of_retrying hxR hxi (by rw [hxr, hc]; exact .retry hf ha r)
  refine stage_safe hs ?_
  rw [Prog.bind_eq, Prog.safe_bind]
  refine (save_safe hs (hx ▸ hw) fun h => by rw [hfin] at h; cases h).mono fun r s' h => ?_
  cases r with
  | error e => rintro _ ⟨⟩
  | ok build =>
      obtain ⟨rfl, -⟩ := h build rfl
      dsimp only
      rw [hx, Prog.bind_eq, Prog.safe_bind]
      refine (runProbe_safe (s := ⟨x, s.calls⟩) hxf hd).mono fun r s' h => ?_
      cases r with
      | error e => rintro _ ⟨⟩
      | ok retried =>
          obtain rfl := h retried rfl
          refine spared_then (redactReport_spares S build retried) (hd _) (fun _ => ?_)
            (by rintro e _ ⟨⟩)
          refine spared_then (redactReport_spares S build retried) (hd _) (fun _ => ?_)
            (by rintro e _ ⟨⟩)
          rintro _ ⟨⟩ h
          exact settle_safe h

/-- The agent's repair, once it is accepted, is saved and tried. -/
theorem repair_safe {build : BuildJob} {original retry : Json} {endpoints : List ProbeEndpoint}
    {out : DebugOutput} {st : Progress} {report : ProbeReport} {text : Option String}
    (hs : Recorded S s.run s.calls) (hrun : build.run = s.run) (hr : s.run.Repairable)
    (ho : S.validateProbePayload s.run.payload s.run.route = .ok original)
    (hf : report.passed = false) (hout : out.retryPayload = some (some retry))
    (hc : s.calls = [.agent (.ok out), .probe original (.ok report)]) :
    Keeping S b (stage st (do
      let retry ← Prog.ofExcept (S.retryPayload original retry build.requireRouteSnapshot)
      let _ ← save b { dynamicRetryPayload := .set (some retry), dynamicReportText := .set text }
        g.prog
      return retry) fun retry => retryProbe S b endpoints retry g.prog st) s := by
  refine stage_safe hs ?_
  rw [Prog.bind_eq, Prog.safe_bind, Prog.safe_ofExcept]
  cases hacc : S.retryPayload original retry build.requireRouteSnapshot with
  | error e => rintro _ ⟨⟩
  | ok accepted =>
      have hroute : S.retryPayload original retry s.run.route = .ok accepted := by
        rw [← hrun]; exact hacc
      obtain ⟨hfin, ⟨first, hi, hfail⟩, hR⟩ := hr
      dsimp only
      -- The record with the accepted retry, as it is saved.
      generalize hx : s.run.write { dynamicRetryPayload := .set (some accepted),
                                    dynamicReportText := .set text } = x
      have hxr : x.Repairable := by
        rw [← hx]
        exact ⟨hfin, ⟨first, hi, hfail⟩, hR⟩
      have hxo : S.validateProbePayload x.payload x.route = .ok original := by rw [← hx]; exact ho
      have hxq : x.route = s.run.route := by rw [← hx]; rfl
      have hxp : x.retryPayload = some accepted := by rw [← hx]; rfl
      have hw : Recorded S x s.calls := by
        obtain ⟨-, ⟨found, hfound, -⟩, -⟩ := hxr
        refine ⟨by rw [hxq]; exact hs.budget, fun _ h => ?_, fun _ h => ?_, fun _ h => ?_,
          fun _ payload h => ?_⟩
        · rw [hfound] at h; cases h
        · rw [hfound] at h; cases h
        · rw [hxp] at h; cases h
        · rw [hxp] at h
          cases h
          exact ⟨original, report, out, retry, hxo, hf, hout, hxq ▸ hroute, hc⟩
      rw [Prog.bind_eq, Prog.safe_bind]
      refine (save_safe hs (hx ▸ hw) fun h => by rw [hfin] at h; cases h).mono fun r s' h => ?_
      cases r with
      | error e => rintro _ ⟨⟩
      | ok build =>
          obtain ⟨rfl, -⟩ := h build rfl
          rintro _ ⟨⟩ h'
          refine retryProbe_safe h' (hx.symm ▸ hxr) hf ?_ hc
          exact ⟨retry, accepted, hout, hroute, .inl rfl⟩

theorem debugRun_safe {build : BuildJob} {original : Json} {endpoints : List ProbeEndpoint}
    {st : Progress} (hs : Recorded S s.run s.calls) (hr : s.run.Repairable)
    (hp : s.run.retryPayload = none) (hD : s.run.debugStarted = false)
    (hi : st.result.initial = s.run.result.initial)
    (ho : S.validateProbePayload s.run.payload s.run.route = .ok original) :
    Keeping S b (debugRun S b build original endpoints g.prog st) s := by
  obtain ⟨original', report, ho', hf, hc⟩ := hs.probed hr hp hD
  obtain rfl : original' = original := Except.ok.inj (ho'.symm.trans ho)
  obtain ⟨hfin, ⟨first, hfirst, hfail⟩, hR⟩ := hr
  refine stage_safe hs ?_
  refine spared_then (.call trivial fun r _ => Prog.uses_ofExcept (I := api) r) hs (fun logs => ?_)
    (by rintro e _ ⟨⟩)
  refine (spared (redactJson_spares S build logs) hs).mono fun r s' e => ?_
  subst e
  rintro logs rfl -
  dsimp only
  -- From here on the agent counts as asked: the run `x` with its logs saved.
  generalize hlog : ({ st.result with containerLogs := some logs } : ProbeResult) = result
  have hinit : result.initial = some first := by rw [← hlog]; exact hi.trans hfirst
  generalize hx : s'.run.write { dynamicDebugStarted := .set true,
                                 probeResult := .set (some result) } = x
  have hxi : x.result.initial ≠ none := by rw [← hx]; simp [DynamicRun.write, hinit]
  have hxfirst : x.result.initial = some first := by rw [← hx]; exact hinit
  have hxR : x.retryStarted = false := by rw [← hx]; exact hR
  have hxD : x.debugStarted = true := by rw [← hx]; rfl
  have hxp : x.retryPayload = none := by rw [← hx]; exact hp
  have hxf : x.finished = false := by rw [← hx]; exact hfin
  have hxr : x.route = s'.run.route := by rw [← hx]; rfl
  have hxo : S.validateProbePayload x.payload x.route = .ok original' := by rw [← hx]; exact ho
  have hw : Recorded S x s'.calls := .of_debugging hxD hxp hxi (by rw [hxr]; exact hs.budget)
  have hd (r : Except Exc DebugOutput) : Recorded S x (.agent r :: s'.calls) :=
    .of_debugging hxD hxp hxi (hc ▸ .debug hf r)
  refine stage_safe hs ?_
  rw [Prog.bind_eq, Prog.safe_bind]
  refine (save_safe hs (hx ▸ hw) fun h => by rw [hfin] at h; cases h).mono fun r s₁ h => ?_
  cases r with
  | error e => rintro _ ⟨⟩
  | ok build =>
      obtain ⟨rfl, -⟩ := h build rfl
      dsimp only
      rw [hx]
      refine spared_then (syncResult_spares build g) hw (fun _ => ?_) (by rintro e _ ⟨⟩)
      split
      · rintro _ ⟨⟩
      split
      · rintro _ ⟨⟩
      refine spared_then (redactJson_spares S build original') hw (fun _ => ?_) (by rintro e _ ⟨⟩)
      rw [Prog.bind_eq, Prog.safe_bind]
      refine (runDebugAgent_safe (s := ⟨x, s'.calls⟩) hxf hd).mono fun r s₂ h => ?_
      cases r with
      | error e => rintro _ ⟨⟩
      | ok out =>
          obtain rfl := h out rfl
          refine spared_then g.spares (hd _) (fun _ => ?_) (by rintro e _ ⟨⟩)
          rintro _ ⟨⟩ h₂
          dsimp only
          split
          · exact h₂
          · next agentReport hreport =>
            refine stage_safe h₂ (spared_then (redactText_spares S build agentReport _) h₂
              (fun text => ?_) (by rintro e _ ⟨⟩))
            rintro _ ⟨⟩ -
            refine stage_safe h₂ ((save_safe
              (f := { dynamicReportText := .set (some (clip 4000 text)) }) h₂ h₂ fun h => h).mono
              fun r s₃ h => ?_)
            rintro build rfl h₃
            obtain ⟨rfl, hrun⟩ := h build rfl
            dsimp only
            split
            · exact h₃
            · exact settle_safe h₃
            · next retry hretry =>
              exact repair_safe h₃ hrun ⟨hxf, ⟨first, hxfirst, hfail⟩, hxR⟩ hxo hf hretry
                (by rw [hc])

theorem afterInitial_safe {build : BuildJob} {original : Json} {endpoints : List ProbeEndpoint}
    {st : Progress} {first : ProbeReport} (hs : Recorded S s.run s.calls)
    (hrun : build.run = s.run) (hfin : s.run.finished = false)
    (hi : s.run.result.initial = some first) (hst : st.result.initial = some first)
    (ho : S.validateProbePayload s.run.payload s.run.route = .ok original) :
    Keeping S b (afterInitial S b build original endpoints g.prog st) s := by
  have hR : build.dynamicRetryStarted = s.run.retryStarted := by rw [← hrun]; rfl
  have hD : build.dynamicDebugStarted = s.run.debugStarted := by rw [← hrun]; rfl
  have hp : build.dynamicRetryPayload = s.run.retryPayload := by rw [← hrun]; rfl
  unfold afterInitial
  dsimp only
  split
  · exact settle_safe hs
  · next hpass =>
    have hfail : first.passed = false := by simpa [hst] using hpass
    split
    · exact settle_safe hs
    split
    · exact settle_safe hs
    · next hretry =>
      have hr : s.run.Repairable := by
        refine ⟨hfin, ⟨first, hi, hfail⟩, ?_⟩
        rw [← hR]
        simpa using hretry
      split
      · next hpay =>
        split
        · exact settle_safe hs
        · next hdebug =>
          refine debugRun_safe hs hr (hp ▸ hpay) ?_ (hst.trans hi.symm) ho
          rw [← hD]
          simpa using hdebug
      · next retry hpay =>
        -- A retry that is stored was advised after a failed probe.
        obtain ⟨original', report, out, asked, ho', hf, hout, hacc, hc⟩ :=
          hs.advised hr retry (hp ▸ hpay)
        obtain rfl : original' = original := Except.ok.inj (ho'.symm.trans ho)
        refine stage_safe hs ?_
        rw [Prog.safe_ofExcept]
        intro again hagain h
        refine retryProbe_safe h hr hf ⟨asked, retry, hout, hacc, .inr ?_⟩ hc
        rw [← hrun]
        exact hagain

/-- What is known when the request and the endpoints are at hand. -/
theorem prepareRun_safe {build : BuildJob} (hs : Recorded S s.run s.calls)
    (hrun : build.run = s.run) (hfin : s.run.finished = false) :
    (prepareRun S b build g.prog).Safe (budget S b) (fun r s' => ∀ y, r = .ok y →
      s' = { s with run := { s.run with status := .running } } ∧ y.1.run = s'.run ∧
        S.validateProbePayload s.run.payload s.run.route = .ok y.2.1) s := by
  have hw := hs.resume hfin
  -- Naming the run changes nothing that is counted.
  have named : (if build.dynamicRunId = none then (do
        let run ← call .uuid4
        save b { dynamicRunId := .set (some run) } g.prog)
      else .ret build : P BuildJob).Safe (budget S b)
        (fun r s' => ∀ j, r = .ok j → s' = s) s := by
    split
    · refine ⟨fun _ => trivial, fun u s' _ hd => ?_⟩
      obtain rfl := hd
      refine ⟨hs, ?_⟩
      refine (save_safe (f := { dynamicRunId := .set (some u) }) hs hs fun h => h).mono
        fun r s₁ h j hj => (h j hj).1
    · rintro _ ⟨⟩
      rfl
  rw [prepareRun, Prog.bind_eq, Prog.safe_bind]
  refine named.mono fun r s₁ h => ?_
  cases r with
  | error e => rintro _ ⟨⟩
  | ok start =>
      obtain rfl := h start rfl
      refine spared_then (claimResult_spares start g _) hs (fun _ => ?_) (by rintro e _ ⟨⟩)
      rw [Prog.bind_eq, Prog.safe_bind]
      refine (save_safe (f := { dynamicStatus := .set .running, dynamicDispatchError := .set none })
        hs hw fun h => by rw [hfin] at h; cases h).mono fun r s₂ h => ?_
      cases r with
      | error e => rintro _ ⟨⟩
      | ok build =>
          obtain ⟨rfl, hbuild⟩ := h build rfl
          dsimp only
          rw [Prog.bind_eq, Prog.safe_bind, Prog.safe_ofExcept]
          cases hv : S.validateProbePayload build.routeProbePayload build.requireRouteSnapshot with
          | error e => rintro _ ⟨⟩
          | ok original =>
              refine spared_then (endpoints_spares S build original) hw (fun _ => ?_)
                (by rintro e _ ⟨⟩)
              rintro _ ⟨⟩
              refine ⟨rfl, hbuild, ?_⟩
              have hpay : build.routeProbePayload = s₁.run.payload :=
                congrArg DynamicRun.payload hbuild
              have hroute : build.requireRouteSnapshot = s₁.run.route :=
                congrArg DynamicRun.route hbuild
              rw [← hpay, ← hroute]
              exact hv

/-- The result of the initial probe is saved before anything follows from it. -/
theorem keepInitial_safe {original : Json} {endpoints : List ProbeEndpoint} {st : Progress}
    {report first : ProbeReport} (hs : Recorded S s.run s.calls) (hfin : s.run.finished = false)
    (hp : s.run.retryPayload = none) (hpass : first.passed = report.passed)
    (ho : S.validateProbePayload s.run.payload s.run.route = .ok original)
    (hc : s.calls = [.probe original (.ok report)]) (hst : st.result.initial = some first) :
    Keeping S b (stage st (do
      let build ← save b { probeResult := .set (some st.result) } g.prog
      syncResult build g.prog
      return build) fun build => afterInitial S b build original endpoints g.prog st) s := by
  generalize hx : s.run.write { probeResult := .set (some st.result) } = x
  have hxf : x.finished = false := by rw [← hx]; exact hfin
  have hxi : x.result.initial = some first := by rw [← hx]; exact hst
  have hxo : S.validateProbePayload x.payload x.route = .ok original := by rw [← hx]; exact ho
  have hxp : x.retryPayload = none := by rw [← hx]; exact hp
  have hw : Recorded S x s.calls := by
    refine ⟨hc ▸ .initial original _, fun _ h => ?_, fun _ h => ?_, fun hr _ _ => ?_,
      fun _ payload h => ?_⟩
    · rw [hxi] at h; cases h
    · rw [hxi] at h; cases h
    · obtain ⟨-, ⟨found, hfound, hfail⟩, -⟩ := hr
      obtain rfl : first = found := Option.some.inj (hxi.symm.trans hfound)
      exact ⟨original, report, hxo, hpass ▸ hfail, hc⟩
    · rw [hxp] at h; cases h
  refine stage_safe hs ?_
  rw [Prog.bind_eq, Prog.safe_bind]
  refine (save_safe hs (hx ▸ hw) fun h => by rw [hfin] at h; cases h).mono fun r s₁ h => ?_
  cases r with
  | error e => rintro _ ⟨⟩
  | ok build =>
      obtain ⟨rfl, hbuild⟩ := h build rfl
      dsimp only at hbuild ⊢
      rw [hx] at hbuild ⊢
      refine spared_then (syncResult_spares build g) hw (fun _ => ?_) (by rintro e _ ⟨⟩)
      rintro _ ⟨⟩ h₂
      exact afterInitial_safe h₂ hbuild hxf hxi hst hxo

theorem runCheck_safe {build : BuildJob} {st : Progress} (hs : Recorded S s.run s.calls)
    (hrun : build.run = s.run) (hfin : s.run.finished = false) (hst : st.result = s.run.result) :
    Keeping S b (runCheck S b build g.prog st) s := by
  refine stage_safe hs ((prepareRun_safe hs hrun hfin).mono fun r s₁ h => ?_)
  rintro ⟨build, original, endpoints⟩ rfl hs₁
  obtain ⟨hs₁', hbuild, ho⟩ := h _ rfl
  have hopen : s₁.run.finished = false := by rw [hs₁']; rfl
  have hres : st.result = s₁.run.result := by rw [hs₁']; exact hst
  have hval : S.validateProbePayload s₁.run.payload s₁.run.route = .ok original := by
    rw [hs₁']; exact ho
  have hsaved : build.dynamicInitialStarted = s₁.run.initialStarted :=
    congrArg DynamicRun.initialStarted hbuild
  dsimp only at hbuild ⊢
  split
  · next hinit =>
    obtain ⟨first, hfirst⟩ := Option.isSome_iff_exists.mp hinit
    exact afterInitial_safe hs₁ hbuild hopen (hres ▸ hfirst) hfirst hval
  split
  · exact settle_safe hs₁
  · next hinit hstarted =>
    have hinit : s₁.run.result.initial = none := by
      rw [← hres]
      simpa using hinit
    have hstart : s₁.run.initialStarted = false := by
      rw [← hsaved]
      simpa using hstarted
    have hnone : s₁.calls = [] := hs₁.unprobed hopen hinit hstart
    have hbare : s₁.run.retryPayload = none := hs₁.bare hopen hinit
    -- From here on the initial probe counts as issued.
    generalize hx : s₁.run.write { dynamicInitialStarted := .set true } = x
    have hxf : x.finished = false := by rw [← hx]; exact hopen
    have hxi : x.result.initial = none := by rw [← hx]; exact hinit
    have hxs : x.initialStarted = true := by rw [← hx]; rfl
    have hxp : x.retryPayload = none := by rw [← hx]; exact hbare
    have hxo : S.validateProbePayload x.payload x.route = .ok original := by
      rw [← hx]; exact hval
    have hw : Recorded S x s₁.calls := .of_probing hxs hxi hxp (hnone ▸ .nothing)
    have hd (r : Except Exc ProbeReport) : Recorded S x (.probe original r :: s₁.calls) :=
      .of_probing hxs hxi hxp (hnone ▸ .initial original r)
    refine stage_safe hs₁ ?_
    rw [Prog.bind_eq, Prog.safe_bind]
    refine (save_safe hs₁ (hx ▸ hw) fun h => by rw [hopen] at h; cases h).mono fun r s₂ h => ?_
    cases r with
    | error e => rintro _ ⟨⟩
    | ok started =>
        obtain ⟨rfl, -⟩ := h started rfl
        dsimp only
        rw [hx, Prog.bind_eq, Prog.safe_bind]
        refine (runProbe_safe (s := ⟨x, s₁.calls⟩) hxf hd).mono fun r s₂ h => ?_
        cases r with
        | error e => rintro _ ⟨⟩
        | ok report =>
            obtain rfl := h report rfl
            refine spared_yields (redactReport_spares S started report)
              (redactReport_yields S started report) (hd _) (fun first hpass => ?_)
              (by rintro e _ ⟨⟩)
            refine spared_then (redactReport_spares S started report) (hd _) (fun second => ?_)
              (by rintro e _ ⟨⟩)
            rintro _ ⟨⟩ h₂
            dsimp only
            generalize hres : ({ st.result with initial := some first, final := some second } :
              ProbeResult) = result
            have hfirst : result.initial = some first := by rw [← hres]
            exact keepInitial_safe h₂ hxf hxp hpass hxo
              (by rw [hnone]) hfirst

theorem execute_safe (hs : Recorded S s.run s.calls) : Keeping S b (execute S b g.prog) s := by
  rw [Keeping, execute, Prog.bind_eq, Prog.safe_bind]
  refine (getBuild_safe hs).mono fun r s' h => ?_
  obtain ⟨rfl, hrun⟩ := h
  cases r with
  | error e => exact hs
  | ok build =>
      have hbuild := hrun build rfl
      have hstatus : build.dynamicStatus = s'.run.status := congrArg DynamicRun.status hbuild
      dsimp only
      split
      · refine spared_then (failInterrupted_spares build g) hs (fun build => ?_) fun _ => hs
        exact spared_then (syncResult_spares build g) hs (fun _ => hs) fun _ => hs
      split
      · exact hs
      · next hopen _ =>
        have hfin : s'.run.finished = false := by
          rw [hstatus] at hopen
          simpa [DynamicRun.finished] using hopen
        rw [Prog.bind_eq, Prog.safe_bind]
        have hres : build.probeResult.getD {} = s'.run.result := congrArg DynamicRun.result hbuild
        refine (runCheck_safe hs hbuild hfin hres).mono fun r s₁ h => ?_
        cases r with
        | error e => exact h
        | ok outcome =>
            cases outcome with
            | ok build => exact h
            | error x =>
                dsimp only
                split
                · exact h
                · exact finish_safe false _ _ h

end DynamicCheckService

end Within

/-! ### The budget -/

/-- A run that has been submitted, and not been executed. -/
structure Submitted {S : Settings} {b : BuildId} (c : Config (executions S b)) : Prop where
  threads : ∀ t, c.threads t = none
  log : c.log = []
  keyed : c.world.Keyed
  fresh : (c.world.run b).Fresh

section Budget
variable {S : Settings} {b : BuildId} {c c' c'' : Config (executions S b)}

theorem execution_safe (g : Guard b) {s : Probing} (hs : Recorded S s.run s.calls) :
    ((executions S b).body g).Safe (budget S b) (fun _ _ => True) s := by
  change Prog.Safe (budget S b) (Prog.bind _ _) _ _
  rw [Prog.safe_bind]
  refine (DynamicCheckService.execute_safe (g := g) hs).mono fun r s' _ => ?_
  cases r <;> trivial

theorem Submitted.sound (hc : Submitted c) : Sound (budgetSight S b) Outside.breaks c := by
  refine .boot hc.log ?_
  change Recorded S (c.world.run b) (externals b c.log)
  rw [hc.log]
  exact hc.fresh.recorded

theorem run_sound (hr : Run (Successive Outside.breaks) c c') (hg : c.world.Keyed)
    (h : Sound (budgetSight S b) Outside.breaks c) : Sound (budgetSight S b) Outside.breaks c' :=
  Run.safe (budget_calm S b) (fun g _ hs => execution_safe g hs) hr hg h

/-- After the verdict, an allowed call asks for nothing and leaves the verdict. -/
theorem Final.closed {s s' : Probing} {op : Op} {r : op.Ret} (ha : Final b s op)
    (hs : RunStep b s op r s') (hf : s.run.finished = true) :
    s'.calls = s.calls ∧ s'.run.finished = true := by
  have h := ha hf
  cases op with
  | updateBuild b' f | transitionBuild b' l st f =>
      rcases hs with ⟨-, rfl⟩ | ⟨e, rfl, -⟩
      · exact ⟨rfl, hf⟩
      · exact ⟨rfl, h e⟩
  | createBuild j =>
      obtain rfl := hs h
      exact ⟨rfl, hf⟩
  | runProbe b' payload endpoints | runDebugAgent b' role =>
      obtain rfl := hs.trans (if_neg h)
      exact ⟨rfl, hf⟩
  | getBuild b' =>
      obtain ⟨rfl, -⟩ := hs
      exact ⟨rfl, hf⟩
  | _ =>
      obtain rfl := hs
      exact ⟨rfl, hf⟩

/-- A run that has a verdict asks for nothing more. -/
theorem run_closed (hr : Run (Successive Outside.breaks) c c') (hg : c.world.Keyed)
    (h : Sound (budgetSight S b) Outside.breaks c) (hf : (c.world.run b).finished = true) :
    externals b c'.log = externals b c.log ∧ (c'.world.run b).finished = true := by
  induction hr with
  | refl => exact ⟨rfl, hf⟩
  | snoc hr hok hs ih =>
      obtain ⟨hcalls, hfin⟩ := ih
      have hsound := run_sound hr hg h
      rcases Machine.step_cases hs with ⟨t, a, op, k, r, w, rfl, hk, he, rfl⟩ |
          ⟨t, task, rfl, hk, rfl⟩ | ⟨x, w, rfl, he, rfl⟩
      · have hclosed := Final.closed (hsound.allows hok hk) (exec_run _ he) hfin
        exact ⟨hclosed.1.trans hcalls, hclosed.2⟩
      · exact ⟨hcalls, hfin⟩
      · cases he
        refine ⟨hcalls, ?_⟩
        cases x with
        | elsewhere act keyed spares => exact (congrArg DynamicRun.finished (spares _)).trans hfin
        | concluded act keyed verdict => exact congrArg DynamicRun.finished (verdict _)

/-- **Call budget.**  However often the executions of a dynamic run are cut off and started
again, one after another, it asks for at most an initial probe, then, if that failed, the debug
agent, and then, if its repair was accepted, the retry; and for nothing once it has a verdict. -/
theorem call_budget (hc : Submitted c) (hr : Run (Successive Outside.breaks) c c') :
    Budgeted S (c'.world.run b).route (externals b c'.log) ∧
      ∀ c'', (c'.world.run b).finished = true → Run (Successive Outside.breaks) c' c'' →
        externals b c''.log = externals b c'.log := by
  have hsound := run_sound hr hc.keyed hc.sound
  refine ⟨Recorded.budget hsound.holds, fun c'' hf hr' => ?_⟩
  exact (run_closed hr' (hr.good hc.keyed) hsound hf).1

end Budget

namespace Sample

/-- The delivery, up to its dynamic check. -/
def deployed : Schedule := queued ++ doing 3 (.startBuild build none) 55 ++
  doing 4 (.pollBuild build 0 none) 47

/-- The dynamic check of the deployed build, before its first execution. -/
def awaiting : Config (executions settings build) :=
  Machine.boot (executions settings build) (reached deployed (by decide +kernel)).world

/-- The probe fails, and the agent repairs the request. -/
def repairing : Answers
  | .runProbe _ _ _ => .ok ⟨false, .null⟩
  | .runDebugAgent _ _ => .ok ⟨some "report", some (some (.obj [("body", .bool true)]))⟩
  | op => replies op

/-- The first execution is cut off when it has saved its probe, the second when it has saved the
agent's repair; the third tries it. -/
def executed : List (Move (executions settings build)) :=
  .start 0 ((⟨build, none⟩ : ResourceTracker).toGuard build) ::
    List.replicate 18 (.run 0 repairing) ++
  .start 1 ((⟨build, none⟩ : ResourceTracker).toGuard build) ::
    List.replicate 22 (.run 1 repairing) ++
  .start 2 ((⟨build, none⟩ : ResourceTracker).toGuard build) :: List.replicate 20 (.run 2 replies)

theorem submitted : Submitted awaiting where
  threads _ := rfl
  log := rfl
  keyed := (reached_run deployed (by decide +kernel)).good boot.good
  fresh := by
    have h : (awaiting.world.run build).initialStarted = false ∧
        (awaiting.world.run build).debugStarted = false ∧
        (awaiting.world.run build).retryStarted = false ∧
        (awaiting.world.run build).retryPayload.isNone = true ∧
        (awaiting.world.run build).result.initial.isNone = true := by decide +kernel
    obtain ⟨h₁, h₂, h₃, h₄, h₅⟩ := h
    exact ⟨h₁, h₂, h₃, Option.isNone_iff_eq_none.mp h₄, Option.isNone_iff_eq_none.mp h₅⟩

end Sample

theorem call_budget_retried : ∃ c, Run (Successive Outside.breaks) Sample.awaiting c ∧
    (externals Sample.build c.log).length = 3 ∧
    Budgeted Sample.settings (c.world.run Sample.build).route (externals Sample.build c.log) := by
  have hrun : Run (Successive Outside.breaks) Sample.awaiting
      ((Machine.play Sample.awaiting Sample.executed).get (by decide +kernel)) :=
    .of_latest (Option.some_get _).symm (by decide +kernel)
  exact ⟨_, hrun, by decide +kernel, (call_budget Sample.submitted hrun).1⟩

end Orchestrator
