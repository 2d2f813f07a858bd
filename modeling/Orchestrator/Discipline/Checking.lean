import Orchestrator.Discipline.Footprints

/-!
# Discipline — the dynamic check

What a run of a dynamic check is made of: quiet calls, guards, guarded saves, writes of the
aggregate row, and the failure of the build.  Any property of programs that sequencing and
handlers keep, and that holds of these, holds of a run.
-/

namespace Orchestrator
open Interleaving

variable (S : Settings)

/-- What only asks has the property `G`. -/
structure Asking (G : {α : Type} → P α → Prop) : Prop where
  compositional : Prog.Compositional (I := api) G
  quiet : ∀ op, op.quiet = true → G (call op)

/-- What keeping the aggregate row takes has the property `G`. -/
structure RowKeeping (G : {α : Type} → P α → Prop) (guard : P Unit) : Prop extends
    Asking G where
  guarded : G guard
  row : ∀ c f e, RouteCheckFields.Dynamic f → G (call (.updateRouteCheck c f e))

/-- What a run on `b` is made of has the property `G`. -/
structure Checking (G : {α : Type} → P α → Prop) (b : BuildId) (guard : P Unit) : Prop
    extends RowKeeping G guard where
  save : ∀ f : BuildFields, f.Plain ∨ f.Dynamic → f.Unstaged →
    G (DynamicCheckService.save b f guard)
  fail : ∀ message site, G (BuildService.fail b message site)

namespace DynamicCheckService

/-- A write of the check is guarded. -/
theorem save_uses {b : BuildId} {o : Option Uuid} {ks : List Kind} {guard : P Unit}
    {f : BuildFields} (hg : guard.Uses (Doing b o ks)) (hf : Doing b o ks (.updateBuild b f)) :
    (save b f guard).Uses (Doing b o ks) := by
  refine .bind hg fun _ => .call hf fun r _ => ?_
  cases r <;> trivial

end DynamicCheckService

section
variable {G : {α : Type} → P α → Prop} {b : BuildId} {guard : P Unit}

namespace Asking
variable (h : Asking G)
include h

theorem orRaise {α : Type} {p : P (Except Exc α)} (hp : G p) : G (orRaise p) :=
  h.compositional.bind hp fun r => h.compositional.ofExcept r

theorem request {α : Type} {op : Op} (hq : op.quiet = true) (k : op.Ret → P α)
    (hk : ∀ r, G (k r)) : G (Prog.bind (call op) k) :=
  h.compositional.bind (h.quiet op hq) hk

/-- Reading a build has the property. -/
theorem getBuild (b : BuildId) : G (BuildService.getBuild b) := by
  refine h.request rfl _ fun r => ?_
  cases r with
  | some build => exact h.compositional.ret build
  | none => exact h.compositional.raise _

/-- Reading the row that a build was gated by is quiet. -/
theorem frozenRow (build : BuildJob) : G (DynamicCheckService.frozenRow build) := by
  unfold DynamicCheckService.frozenRow
  split
  · exact h.quiet _ rfl
  · exact h.compositional.ret none

theorem superseded {α : Type} : G (DynamicCheckService.superseded (α := α)) :=
  h.compositional.raise _

/-- The texts to hide are read. -/
theorem secrets (build : BuildJob) (extra : Option Json) :
    G (DynamicCheckService.secrets build extra) :=
  h.request rfl _ fun _ => h.compositional.ret _

theorem redactText (build : BuildJob) (text : String) (extra : Option Json) :
    G (DynamicCheckService.redactText S build text extra) :=
  h.compositional.bind (h.secrets build extra) fun _ => h.compositional.ret _

theorem redactJson (build : BuildJob) (value : Json) :
    G (DynamicCheckService.redactJson S build value) :=
  h.compositional.bind (h.secrets build none) fun _ => h.compositional.ret _

theorem redactReport (build : BuildJob) (r : ProbeReport) :
    G (DynamicCheckService.redactReport S build r) :=
  h.compositional.bind (h.redactJson S build r.body) fun _ => h.compositional.ret _

theorem redactResult (build : BuildJob) (r : ProbeResult) :
    G (DynamicCheckService.redactResult S build r) :=
  h.compositional.bind (h.secrets build none) fun _ => h.compositional.ret _

/-- The endpoints are read from the manifest. -/
theorem endpoints (build : BuildJob) (payload : Json) :
    G (DynamicCheckService.endpoints S build payload) := by
  refine h.request rfl _ fun m => ?_
  cases m with
  | none => exact h.compositional.ret _
  | some m =>
      dsimp only
      split
      · exact h.compositional.ret _
      · exact h.request rfl _ fun services => h.compositional.ofExcept _

theorem shownReport (build : BuildJob) (report : Option String) :
    G (DynamicCheckService.shownReport S build report) := by
  unfold DynamicCheckService.shownReport
  split
  · exact h.compositional.ret none
  · exact h.compositional.bind (h.redactText S build _ none) fun _ => h.compositional.ret _

/-- A step of the `try` hands what it raises to the handlers, with the locals. -/
theorem stage {α : Type} (st : DynamicCheckService.Progress) {p : P α}
    {k : α → P DynamicCheckService.Outcome} (hp : G p) (hk : ∀ a, G (k a)) :
    G (DynamicCheckService.stage st p k) := by
  refine h.compositional.bind (h.compositional.attempt hp) fun r => ?_
  cases r with
  | ok a => exact hk a
  | error e => exact h.compositional.ret _

end Asking

namespace RowKeeping
variable (h : RowKeeping G guard)
include h

/-- The row is claimed for the run of the build, once. -/
theorem claimResult (build : BuildJob) (allowClaim : Bool) :
    G (DynamicCheckService.claimResult build guard allowClaim) := by
  refine h.compositional.bind (h.frozenRow build) fun row => ?_
  cases row with
  | none => exact h.superseded
  | some row =>
      dsimp only
      split
      · exact h.superseded
      · refine h.compositional.bind h.guarded fun _ => ?_
        split
        · exact h.compositional.ret ()
        · refine h.compositional.bind (h.row _ _ _ ?_) fun r => ?_
          · constructor <;> trivial
          cases r with
          | some _ => exact h.compositional.ret ()
          | none =>
              refine h.request rfl _ fun current => ?_
              split
              · exact h.compositional.ret ()
              · exact h.superseded

/-- The row tells the result of its run. -/
theorem syncResult (build : BuildJob) :
    G (DynamicCheckService.syncResult build guard) := by
  unfold DynamicCheckService.syncResult
  split
  · exact h.compositional.ret ()
  · refine h.compositional.bind h.guarded fun _ => ?_
    split
    · exact h.compositional.ret ()
    · refine h.compositional.bind (h.row _ _ _ ?_) fun _ => h.compositional.ret ()
      constructor <;> trivial

end RowKeeping

namespace Checking
variable (h : Checking G b guard)
include h

/-- The end of a check is saved to the build, and then to the row. -/
theorem finish (passed : Bool) (result : ProbeResult) (report : Option String) :
    G (DynamicCheckService.finish S b passed result report guard) := by
  have hf (result : ProbeResult) (report : Option String) :
      (DynamicCheckService.finishFields passed result report).Dynamic := by
    refine ⟨trivial, trivial, trivial, trivial, ?_⟩
    cases passed
    · exact .inr ⟨rfl, rfl⟩
    · exact .inl ⟨rfl, rfl⟩
  refine h.compositional.bind (h.getBuild b) fun build => ?_
  refine h.compositional.bind (h.shownReport S build report) fun report => ?_
  refine h.compositional.bind (h.redactResult S build result) fun result => ?_
  refine h.compositional.bind (h.save _ (.inr (hf result report))
    (by constructor <;> trivial)) fun saved => ?_
  refine h.compositional.bind ?_ fun build => ?_
  · split
    · exact h.compositional.ret saved
    · exact h.compositional.bind h.guarded fun _ => h.fail _ _
  · exact h.compositional.bind (h.syncResult build) fun _ => h.compositional.ret build

/-- The last stage. -/
theorem settle (st : DynamicCheckService.Progress) {p : P BuildJob} (hp : G p) :
    G (DynamicCheckService.settle st p) :=
  h.stage st hp fun _ => h.compositional.ret _

theorem end_ (st : DynamicCheckService.Progress) (passed : Bool) (report : Option String) :
    G (DynamicCheckService.settle st
      (DynamicCheckService.finish S b passed st.result report guard)) :=
  h.settle st (h.finish S passed st.result report)

/-- A write that leaves the outcome is plain. -/
theorem savePlain {f : BuildFields} (hf : f.Plain)
    (hs : f.Unstaged) : G (DynamicCheckService.save b f guard) :=
  h.save f (.inl hf) hs

/-- The probe is asked a second time, with the repaired payload. -/
theorem retryProbe (endpoints : List ProbeEndpoint) (retry : Json)
    (st : DynamicCheckService.Progress) :
    G (DynamicCheckService.retryProbe S b endpoints retry guard st) := by
  refine h.stage st ?_ fun x => ?_
  · refine h.compositional.bind
      (h.savePlain (by constructor <;> trivial) (by constructor <;> trivial)) fun build => ?_
    refine h.compositional.bind (h.orRaise (h.quiet _ rfl)) fun retried => ?_
    refine h.compositional.bind (h.redactReport S build retried) fun first => ?_
    exact h.compositional.bind (h.redactReport S build retried) fun _ => h.compositional.ret _
  · obtain ⟨retried, first, second⟩ := x
    exact h.end_ S _ _ _

/-- After a failed probe, the agent is asked what to change. -/
theorem debugRun (build : BuildJob) (original : Json) (endpoints : List ProbeEndpoint)
    (st : DynamicCheckService.Progress) :
    G (DynamicCheckService.debugRun S b build original endpoints guard st) := by
  refine h.stage st ?_ fun logs => ?_
  · exact h.compositional.bind (h.orRaise (h.quiet _ rfl)) fun logs => h.redactJson S build logs
  refine h.stage _ ?_ fun x => ?_
  · refine h.compositional.bind
      (h.savePlain (by constructor <;> trivial) (by constructor <;> trivial)) fun build => ?_
    refine h.compositional.bind (h.syncResult build) fun _ => ?_
    split
    · exact h.compositional.raise _
    split
    · exact h.compositional.raise _
    · refine h.compositional.bind (h.redactJson S build original) fun _ => ?_
      refine h.compositional.bind (h.orRaise (h.quiet _ rfl)) fun output => ?_
      exact h.compositional.bind h.guarded fun _ => h.compositional.ret _
  obtain ⟨build, output⟩ := x
  dsimp only
  split
  · exact h.compositional.ret _
  refine h.stage _ ?_ fun text => ?_
  · exact h.compositional.bind (h.redactText S build _ _) fun _ => h.compositional.ret _
  refine h.stage _ (h.savePlain (by constructor <;> trivial) (by constructor <;> trivial)) fun _ => ?_
  split
  · exact h.compositional.ret _
  · exact h.end_ S _ _ _
  refine h.stage _ ?_ fun retry => h.retryProbe S endpoints retry _
  refine h.compositional.bind (h.compositional.ofExcept _) fun retry => ?_
  exact h.compositional.bind
    (h.savePlain (by constructor <;> trivial) (by constructor <;> trivial)) fun _ =>
    h.compositional.ret _

/-- A probe that passes ends the check, one that does not goes on. -/
theorem afterInitial (build : BuildJob) (original : Json) (endpoints : List ProbeEndpoint)
    (st : DynamicCheckService.Progress) :
    G (DynamicCheckService.afterInitial S b build original endpoints guard st) := by
  unfold DynamicCheckService.afterInitial
  dsimp only
  split
  · exact h.end_ S _ _ _
  split
  · exact h.end_ S _ _ _
  split
  · exact h.end_ S _ _ _
  split
  · split
    · exact h.end_ S _ _ _
    · exact h.debugRun S build original endpoints _
  · exact h.stage _ (h.compositional.ofExcept _) fun retry => h.retryProbe S endpoints retry _

/-- A run has an identifier and its endpoints before it probes. -/
theorem prepareRun (build : BuildJob) : G (DynamicCheckService.prepareRun S b build guard) := by
  refine h.compositional.bind ?_ fun build => ?_
  · split
    · exact h.request rfl _ fun run =>
        h.savePlain (by constructor <;> trivial) (by constructor <;> trivial)
    · exact h.compositional.ret build
  refine h.compositional.bind (h.claimResult build _) fun _ => ?_
  refine h.compositional.bind (h.save _ (.inr ?_) (by constructor <;> trivial))
    fun build => ?_
  · exact ⟨trivial, trivial, trivial, trivial, .inl ⟨rfl, rfl⟩⟩
  refine h.compositional.bind (h.compositional.ofExcept _) fun original => ?_
  exact h.compositional.bind (h.endpoints S build original) fun _ => h.compositional.ret _

/-- The stages of a run. -/
theorem runCheck (build : BuildJob) (st : DynamicCheckService.Progress) :
    G (DynamicCheckService.runCheck S b build guard st) := by
  refine h.stage st (h.prepareRun S build) fun x => ?_
  obtain ⟨build, original, endpoints⟩ := x
  dsimp only
  split
  · exact h.afterInitial S build original endpoints st
  split
  · exact h.end_ S _ _ _
  refine h.stage st ?_ fun x => ?_
  · refine h.compositional.bind
      (h.savePlain (by constructor <;> trivial) (by constructor <;> trivial)) fun build => ?_
    refine h.compositional.bind (h.orRaise (h.quiet _ rfl)) fun initial => ?_
    refine h.compositional.bind (h.redactReport S build initial) fun first => ?_
    exact h.compositional.bind (h.redactReport S build initial) fun _ => h.compositional.ret _
  obtain ⟨_, first, second⟩ := x
  refine h.stage _ ?_ fun build => h.afterInitial S build original endpoints _
  refine h.compositional.bind
    (h.savePlain (by constructor <;> trivial) (by constructor <;> trivial)) fun build => ?_
  exact h.compositional.bind (h.syncResult build) fun _ => h.compositional.ret build

/-- A run that was interrupted counts as failed. -/
theorem failInterrupted (build : BuildJob) :
    G (DynamicCheckService.failInterrupted b build guard) := by
  unfold DynamicCheckService.failInterrupted
  split
  · exact h.compositional.bind h.guarded fun _ => h.fail _ _
  · exact h.compositional.ret build

/-- All that an execution of the check does has the property. -/
theorem execute : G (DynamicCheckService.execute S b guard) := by
  refine h.compositional.bind (h.getBuild b) fun build => ?_
  split
  · refine h.compositional.bind (h.failInterrupted build) fun build => ?_
    exact h.compositional.bind (h.syncResult build) fun _ => h.compositional.ret build
  split
  · exact h.compositional.raise _
  · refine h.compositional.bind (h.runCheck S build _) fun r => ?_
    cases r with
    | ok build => exact h.compositional.ret build
    | error x =>
        obtain ⟨e, st⟩ := x
        dsimp only
        split
        · exact h.compositional.raise _
        · exact h.finish S _ _ _

end Checking

end

/-! ### Footprints -/

/-- The kinds of deeds of a run. -/
abbrev checkKinds : List Kind := [.quiet, .guard, .plain, .dynamic, .row, .fail, .alert]

/-- A footprint that allows writes of the row. -/
theorem rowKeeping_uses (tr : ResourceTracker) {K : List Kind}
    (hk : [.quiet, .guard, .row] ⊆ K) :
    RowKeeping (fun {_} p => p.Uses (Doing tr.buildId tr.owner K)) tr.guard where
  compositional := Prog.uses_compositional (I := api) _
  quiet _ h := uses_one ⟨_, hk (by simp), .quiet h⟩
  guarded := uses_mono tr.guard_uses fun _ h => hk (by simp_all)
  row _ _ _ h := uses_one ⟨_, hk (by simp), .row h _⟩

theorem Failing.checking {G : {α : Type} → P α → Prop} {tr : ResourceTracker} {K : List Kind}
    (h : Failing G tr.buildId tr.owner K) (hk : checkKinds ⊆ K) :
    Checking G tr.buildId tr.guard where
  compositional := h.compositional
  quiet _ hq := h.quiet hq (hk (by simp))
  guarded := h.of_uses tr.guard_uses (by simpa using hk (by simp))
  row _ _ _ hf := h.free (hk (by simp)) (by simp) (by simp) (.row hf _)
  save f hf hs := by
    refine h.of_uses (K := [.guard, .plain, .dynamic]) (DynamicCheckService.save_uses
      (uses_mono tr.guard_uses (by simp)) ?_) fun k hm => ?_
    · exact hf.elim (fun hf => .of (.plain hf hs)) fun hf => .of (.dynamic hf hs)
    · exact ⟨hk (by simp at hm ⊢; tauto), by rintro rfl; simp at hm, by rintro rfl; simp at hm⟩
  fail := h.fail

namespace DynamicCheckService

section
variable (tr : ResourceTracker)

/-- A delivered build is taken back under its lease. -/
theorem reopen_uses : (reopen tr.buildId (some tr)).Uses
    (Doing tr.buildId tr.owner [.quiet, .guard, .recheck, .row]) := by
  refine .bind (uses_mono (BuildService.getBuild_uses _ _) (by simp)) fun build => ?_
  split
  · trivial
  split
  · trivial
  · next h =>
    have hs : build.status = .deploying ∨ build.status = .succeeded := by
      have ha := (not_or.mp h).1
      simp only [acceptsRecheck, Bool.not_eq_false, Bool.or_eq_true, beq_iff_eq] at ha
      exact ha
    refine .bind (uses_mono (AgentRoleService.get_uses _ _ _) (by simp)) fun role => ?_
    refine .call (.of (.quiet rfl)) fun run _ => ?_
    refine .bind (uses_mono tr.guard_uses (by simp)) fun _ => ?_
    refine .call (.of (.recheck run role hs)) fun r _ => ?_
    cases r with
    | none => trivial
    | some changed =>
        exact .bind ((rowKeeping_uses tr (by simp)).claimResult changed true) fun _ => trivial

/-- An interrupted run is recorded as failed. -/
theorem recordFailure_of {G : {α : Type} → P α → Prop} {K : List Kind}
    (h : Failing G tr.buildId tr.owner K) (hk : checkKinds ⊆ K) :
    G (recordFailure tr.buildId (some tr)) := by
  have hc := h.checking hk
  refine hc.compositional.bind (hc.getBuild _) fun current => ?_
  refine hc.compositional.bind (hc.failInterrupted current) fun current => ?_
  split
  · exact hc.compositional.bind (hc.syncResult current) fun _ => hc.compositional.ret _
  · exact hc.compositional.ret _

theorem recordFailure_uses : (recordFailure tr.buildId (some tr)).Uses
    (Doing tr.buildId tr.owner checkKinds) := recordFailure_of tr (.uses _ _ (by simp)) (by simp)

end

/-- A run is scheduled, and the build told of it. -/
theorem dispatchRun_uses (b : BuildId) (run : Option Uuid) (o : Option Uuid) :
    (dispatchRun b run).Uses (Doing b o [.quiet, .plain]) := by
  refine .bind (uses_orRaise (uses_one (.of (.quiet rfl)))).attempt fun r => ?_
  cases r with
  | ok _ => trivial
  | error e =>
      exact .call (.of (.plain (by constructor <;> trivial) (by constructor <;> trivial)))
        fun _ _ => trivial

/-- A request for a check takes back the build, and schedules a run. -/
theorem submit_of {G : {α : Type} → P α → Prop} (hG : Prog.Compositional (I := api) G)
    {b : BuildId} (free : ∀ op, Does [.quiet, .plain] op → G (call op))
    (lease : G (buildLease b [.notStarted] (reopen b))) (appId : String) :
    G (submit appId b) := by
  have getBuild : G (BuildService.getBuild b) :=
    of_doing hG free (BuildService.getBuild_uses b none) (by simp)
  refine hG.bind (free _ ⟨b, none, .of (.quiet rfl)⟩) fun app => ?_
  refine hG.bind getBuild fun build => ?_
  cases app with
  | none => exact hG.raise _
  | some app =>
      dsimp only
      split
      · exact hG.raise _
      split
      · exact hG.raise _
      refine hG.bind (free _ ⟨b, none, .of (.quiet rfl)⟩) fun m => ?_
      split
      · exact hG.raise _
      split
      · exact hG.raise _
      refine hG.bind (of_doing hG free (RouteCheckService.verifyBuildGate_uses b none build app)
        (by simp)) fun _ => hG.bind lease fun r => ?_
      cases r with
      | inl build => exact hG.ret build
      | inr build =>
          exact hG.bind (of_doing hG free (dispatchRun_uses b _ none) (by simp)) fun _ => getBuild

/-- What `submit` does. -/
theorem submit_does (appId : String) (b : BuildId) :
    (submit appId b).Uses
      (Does [.quiet, .plain, .claim [.notStarted], .release, .guard, .recheck, .row]) := by
  refine submit_of (Prog.uses_compositional (I := api) _)
    (fun op h => uses_one (h.mono (by simp))) ?_ appId
  refine buildLease_does (by simp) trivial fun u => ?_
  exact uses_does_mono (uses_does (reopen_uses ⟨b, some u⟩)) (by simp)

/-- The build is told how its cleanup has ended. -/
theorem syncTeardown_uses (b : BuildId) (o : Option Uuid) :
    (syncTeardown b).Uses (Doing b o [.quiet, .tear]) := by
  refine .bind (uses_mono (BuildService.getBuild_uses b o) (by simp)) fun build => ?_
  refine .call (.of (.quiet rfl)) fun m _ => ?_
  split
  · trivial
  · refine .call (.of (.tear ?_ (by constructor <;> trivial))) fun _ _ => trivial
    exact ⟨trivial, trivial, trivial, trivial, trivial, trivial, .inr ⟨_, rfl, rfl⟩⟩

/-- The kinds of deeds of a teardown. -/
abbrev teardownKinds : List Kind := [.quiet, .legacy, .claim [.notStarted, .partialFailed],
  .claim [.queued, .running], .release, .accept, .undispatch, .running, .put, .guard, .conclude,
  .cleaned, .tear]

/-- A teardown cleans up, whatever comes of it, and saves its status. -/
theorem teardown_of {G : {α : Type} → P α → Prop} (hG : Prog.Compositional (I := api) G)
    {b : BuildId} (free : ∀ op, Does [.quiet] op → G (call op))
    (tear : ∀ {f : BuildFields}, f.Tearing → f.Unstaged →
      f.teardownStatus ≠ .set (some .succeeded) → G (call (.updateBuild b f)))
    (sync : G (syncTeardown b)) (request : G (requestCleanup S b false)) {cleanup : P Unit}
    (hc : G cleanup) : G (teardown S b cleanup) := by
  refine hG.bind (of_doing hG free (BuildService.getBuild_uses b none) (by simp)) fun build => ?_
  split
  · exact sync
  refine hG.bind (hG.attempt ?_) fun r => ?_
  · refine hG.bind request fun _ => hG.bind (tear ?_ (by constructor <;> trivial) (by simp))
      fun _ => hc
    exact ⟨trivial, trivial, trivial, trivial, trivial, trivial, .inl ⟨rfl, rfl⟩⟩
  · cases r with
    | error e =>
        refine hG.bind (tear ?_ (by constructor <;> trivial) (by simp)) fun _ => hG.ret ()
        exact ⟨trivial, trivial, trivial, trivial, trivial, trivial, .inr ⟨_, rfl, rfl⟩⟩
    | ok _ => exact sync

/-- What a teardown does. -/
theorem teardown_does (b : BuildId) {cleanup : P Unit} (hc : cleanup.Uses (Does teardownKinds)) :
    (teardown S b cleanup).Uses (Does teardownKinds) :=
  teardown_of S (Prog.uses_compositional (I := api) _) (fun op h => uses_one (h.mono (by simp)))
    (fun h hs _ => uses_one ⟨b, none, .of (.tear h hs)⟩)
    (uses_does_mono (uses_does (syncTeardown_uses b none)) (by simp))
    (uses_does_mono (requestCleanup_does S b false) (by simp)) hc

/-- A check that was interrupted is recorded, and its teardown run. -/
theorem recoverBuild_of {G : {α : Type} → P α → Prop} (hG : Prog.Compositional (I := api) G)
    (free : ∀ op, Does [.quiet] op → G (call op))
    (record : ∀ b, G (buildLease b [.notStarted, .partialFailed] (recordFailure b)))
    (tear : ∀ b, G (teardown S b (runCleanup S b))) (build : BuildJob) :
    G (recoverBuild S build) := by
  have quiet {op : Op} (h : op.quiet = true) : G (call op) :=
    free op ⟨build.buildId, none, .of (.quiet h)⟩
  refine hG.bind (quiet rfl) fun m => hG.bind (quiet rfl) fun now => ?_
  split
  · exact hG.ret ()
  split
  · refine hG.bind ?_ fun proceed => ?_
    · split
      · exact record build.buildId
      · exact hG.ret true
    · split
      · exact tear build.buildId
      · exact hG.ret ()
  split
  · refine hG.bind (hG.attempt ?_) fun _ => hG.ret ()
    exact of_doing hG free (b := build.buildId) (o := none) (K := [.quiet])
      (uses_orRaise (uses_one (.of (.quiet rfl)))) (by simp)
  · exact hG.ret ()

theorem recover_of {G : {α : Type} → P α → Prop} (hG : Prog.Compositional (I := api) G)
    (free : ∀ op, Does [.quiet] op → G (call op))
    (record : ∀ b, G (buildLease b [.notStarted, .partialFailed] (recordFailure b)))
    (tear : ∀ b, G (teardown S b (runCleanup S b))) : G (recover S) :=
  hG.bind (free _ ⟨⟨0, 0⟩, none, .of (.quiet rfl)⟩) fun _ =>
    hG.forEach (recoverBuild_of S hG free record tear)

/-- What `recover` does. -/
theorem recover_does : (recover S).Uses (Does (teardownKinds ++ checkKinds)) := by
  refine recover_of S (Prog.uses_compositional (I := api) _)
    (fun op h => uses_one (h.mono (by simp))) (fun b => ?_) fun b => ?_
  · refine buildLease_does (by simp) trivial fun u => ?_
    exact uses_does_mono (uses_does (recordFailure_uses ⟨b, some u⟩)) (by simp)
  · refine uses_does_mono (teardown_does S b ?_) (by simp)
    exact uses_does_mono (runCleanup_does S b) (by simp)

end DynamicCheckService

end Orchestrator
