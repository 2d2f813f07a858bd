import Orchestrator.Interleaving.Knowledge
import Orchestrator.Lifecycle.Creation
import Orchestrator.Runtime.Sample

/-!
# Route checks — whose result a row shows

Several builds may be frozen on one row.  Whoever writes the dynamic result there writes all of it,
from one record of a build it was shown, under a compare-and-set on the generation that build froze.

* `RouteCheckResult.told`, `DynamicResult.untold`: the dynamic result in a row, and that of a new
  row.
* `Tells k j g f e d`: the write of `f`, expecting `e`, tells the result `d` of the run of `j`.
* `attributing`: the monitor; a write of the dynamic result is on behalf of a record the thread was
  shown.
* `Attributed k w l`: the invariant.  What row `k` shows was told last, and at once, on behalf of
  the run it names.
* `row_attribution`: so it is along every run.
-/

namespace Orchestrator
open Interleaving

variable {S : Settings}

/-! ### Results, and the writes that tell them -/

/-- The outcome of a dynamic check, as the row has it. -/
structure DynamicResult where
  dynamicStatus : DynamicStatus
  dynamicCheckPassed : Option Bool
  dynamicReportText : Option String
  probeResult : Option ProbeResult

/-- Nothing has been told. -/
def DynamicResult.untold : DynamicResult := ⟨.pending, none, none, none⟩

def RouteCheckResult.told (row : RouteCheckResult) : DynamicResult where
  dynamicStatus := row.dynamicStatus
  dynamicCheckPassed := row.dynamicCheckPassed
  dynamicReportText := row.dynamicReportText
  probeResult := row.probeResult

/-- The writes on behalf of the run of `j`, of row `k` at the generation `g`, and what they tell. -/
inductive Tells (k : CheckId) (j : BuildJob) (g : Nat) :
    RouteCheckFields → RouteCheckExpectation → DynamicResult → Prop where
  | claimed (b : Option BuildId) (run : Option Uuid) :
      Tells k j g (DynamicCheckService.claimFields j)
        { generation := .eq g, dynamicBuildId := .eq b, dynamicRunId := .eq run }
        ⟨if j.dynamicStatus = .queued then .queued else .running, none, none, none⟩
  | synced :
      Tells k j g (DynamicCheckService.syncFields j)
        { generation := .eq g, dynamicBuildId := .eq (some j.buildId)
          dynamicRunId := .eq j.dynamicRunId }
        ⟨j.dynamicStatus, j.dynamicCheckPassed, j.dynamicReportText, j.probeResult⟩
  | failed (report : String) (b : Option BuildId) (run : Option Uuid) :
      Tells k j g (WorkerRuntime.failedRowFields j report)
        { generation := .eq g, dynamicBuildId := .eq b, dynamicRunId := .eq run }
        ⟨.failed, some false, some report, j.probeResult⟩

/-- The builds a response shows. -/
def Op.shown : (op : Op) → op.Ret → List BuildJob
  | .getBuild _, r | .updateBuild _ _, r | .transitionBuild _ _ _ _, r => r.toList
  | _, _ => []

/-- The writes of a row: of other things, of nothing at all, or on behalf of a build the thread was
shown, at the generation that build froze. -/
def attributes (seen : List BuildJob) : Op → Prop
  | .ensureRouteCheck row => row.told = .untold
  | .updateRouteCheck c f e => f.Silent ∨
      (∃ row g, row.told = .untold ∧ f = RouteCheckService.resetFields row g) ∨
      ∃ j ∈ seen, ∃ g d, j.routeCheckId = some c ∧ j.routeCheckGeneration = some g ∧
        Tells c j g f e d
  | _ => True

/-- What a thread was shown of the builds, and what it may write. -/
abbrev attributing : Monitor api := showing attributes Op.shown

/-- `p`, knowing the records `K`, keeps to the monitor and learns `W`. -/
abbrev Reads {α : Type} (K : List BuildJob) (W : α → List BuildJob) (p : P α) : Prop :=
  p.Learns attributes Op.shown K W

/-! ### The writers -/

theorem RouteCheckResult.New.untold {row : RouteCheckResult} (h : row.New) :
    row.told = .untold := by
  simp only [told, h.dynamicStatus, h.dynamicCheckPassed, h.dynamicReportText, h.probeResult,
    DynamicResult.untold]

/-- A deed that is no write of the aggregate row is allowed. -/
theorem Deed.attributes {b : BuildId} {o : Option Uuid} {k : Kind} {op : Op} (hd : Deed b o k op)
    (hk : k ≠ .row) (seen : List BuildJob) : Orchestrator.attributes seen op := by
  cases hd with
  | quiet hq => cases op <;> trivial
  | row => contradiction
  | ensureRow h => exact h.untold
  | resetRow _ h g => exact .inr (.inl ⟨_, g, h.untold, rfl⟩)
  | takeRow => exact .inl (by constructor <;> trivial)
  | resultRow _ hf => exact .inl hf.toSilent
  | _ => trivial

section
variable {α : Type} {K : List BuildJob} {b : BuildId} {o : Option Uuid}

theorem reads_of_uses {p : P α} {ks : List Kind} (hp : p.Uses (Doing b o ks))
    (hk : .row ∉ ks) : Reads K (fun _ => []) p :=
  .of_uses hp fun v _ ⟨_, hm, hd⟩ => hd.attributes (fun e => hk (e ▸ hm)) v

theorem reads_quiet {op : Op} (h : op.quiet = true) : Reads K (fun _ => []) (call op) :=
  @reads_of_uses _ K ⟨0, 0⟩ none _ [.quiet] (uses_one (.of (.quiet h))) (by simp)

theorem reads_ofExcept (r : Except Exc α) : Reads K (fun _ => []) (Prog.ofExcept r : P α) :=
  Prog.Learns.ofExcept (I := api) r fun _ => List.nil_subset K

/-- The guard of a tracker shows nothing. -/
theorem ResourceTracker.guard_reads (tr : ResourceTracker) : Reads K (fun _ => []) tr.guard :=
  reads_of_uses tr.guard_uses (by simp)

/-- Bound without being learned from. -/
theorem reads_after {β : Type} {p : P α} {f : α → P β} {W : β → List BuildJob}
    (hp : Reads K (fun _ => []) p) (hf : ∀ a, Reads K W (f a)) : Reads K W (p.bind f) :=
  hp.bind fun a => hf a

end

/-! #### The records of a build -/

namespace BuildService
variable {K : List BuildJob} (b : BuildId)

theorem getBuild_reads : Reads K (fun j => [j]) (getBuild b) := by
  refine .call (fun _ _ => trivial) fun r _ => ?_
  cases r with
  | some build => exact .ret (by simp [Op.shown])
  | none => exact .raise _

theorem recordEvent_reads (appid : String) (b : Option BuildId) (kind message : String)
    (level : EventLevel) : Reads K (fun _ => []) (recordEvent appid b kind message level) :=
  reads_of_uses (recordEvent_uses appid b kind message level ⟨0, 0⟩ none) (by simp)

theorem transition_reads (target : BuildStatus) (f : BuildFields) :
    Reads K (fun j => [j]) (transition b target f) := by
  refine (getBuild_reads b).bind fun build => ?_
  split
  · exact .ret (by simp)
  split
  · exact .raise _
  refine reads_after (reads_quiet rfl) fun _ => .call (fun _ _ => trivial) fun r _ => ?_
  cases r with
  | none =>
      refine (getBuild_reads b).bind fun current => ?_
      split
      · exact .ret (by simp)
      · exact .raise _
  | some updated =>
      exact reads_after (recordEvent_reads _ _ _ _ _) fun _ => .ret (by simp [Op.shown])

theorem fail_reads (message : String) (site : Option String) :
    Reads K (fun j => [j]) (fail b message site) := by
  refine (getBuild_reads b).bind fun build => ?_
  split
  · exact .ret (by simp)
  refine (transition_reads b _ _).bind fun failed => reads_after (reads_quiet rfl) fun u => ?_
  refine .call (fun _ _ => trivial) fun _ _ => ?_
  exact reads_after (recordEvent_reads _ _ _ _ _) fun _ => .ret (by simp)

end BuildService

/-! #### The aggregate row -/

namespace DynamicCheckService
variable {K : List BuildJob} {build : BuildJob} {guard : P Unit}

theorem save_reads (b : BuildId) (f : BuildFields) (hg : Reads K (fun _ => []) guard) :
    Reads K (fun j => [j]) (save b f guard) := by
  refine reads_after hg fun _ => .call (fun _ _ => trivial) fun r _ => ?_
  cases r with
  | some saved => exact .ret (by simp [Op.shown])
  | none => exact .raise _

theorem frozenRow_reads (build : BuildJob) : Reads K (fun _ => []) (frozenRow build) := by
  unfold frozenRow
  split
  · exact reads_quiet rfl
  · exact .ret (List.nil_subset _)

/-- The row of a build is the one it froze. -/
theorem frozenRow_yields (build : BuildJob) :
    (frozenRow build).Yields fun r => ∀ row, r = some row →
      build.routeCheckId = some row.checkId := by
  unfold frozenRow
  split
  · next c hc =>
      intro r hr row e
      rw [hc, hr row e]
  · exact fun row e => (by cases e)

theorem claimResult_reads (hb : build ∈ K) (hg : ∀ K, Reads K (fun _ => []) guard)
    (allowClaim : Bool) : Reads K (fun _ => []) (claimResult build guard allowClaim) := by
  refine (frozenRow_reads build).bind_of (frozenRow_yields build) fun row hrow => ?_
  cases row with
  | none => exact .raise _
  | some row =>
      dsimp only
      split
      · exact .raise _
      next hfrozen =>
      have hgen : build.routeCheckGeneration = some row.generation := by
        simp only [isFrozenCheck, Bool.not_eq_false, Bool.and_eq_true, beq_iff_eq] at hfrozen
        exact hfrozen.1.1.1.1.1.symm
      refine reads_after (hg _) fun _ => ?_
      split
      · exact .ret (List.nil_subset _)
      refine .call (fun v hv => ?_) fun r _ => ?_
      · exact .inr (.inr ⟨build, hv (by simpa using hb), _, _, hrow row rfl, hgen, .claimed _ _⟩)
      cases r with
      | some _ => exact .ret (List.nil_subset _)
      | none =>
          refine reads_after (reads_quiet rfl) fun current => ?_
          split
          · exact .ret (List.nil_subset _)
          · exact .raise _

theorem syncResult_reads (hb : build ∈ K) (hg : Reads K (fun _ => []) guard) :
    Reads K (fun _ => []) (syncResult build guard) := by
  unfold syncResult
  split
  · exact .ret (List.nil_subset _)
  next c hc =>
  refine reads_after hg fun _ => ?_
  split
  · exact .ret (List.nil_subset _)
  next g hgen =>
  refine .call (fun v hv => ?_) fun _ _ => .ret (List.nil_subset _)
  exact .inr (.inr ⟨build, hv hb, g, _, hc, hgen, .synced⟩)

/-! #### A run -/

theorem asking_reads (K : List BuildJob) :
    Asking (fun {_} p => Reads K (fun _ => []) p) where
  compositional := Prog.Learns.compositional K
  quiet _ h := reads_quiet h

/-- A step of the `try` hands what it has learned to the next one. -/
theorem stage_reads {α : Type} (st : Progress) {p : P α} {k : α → P Outcome}
    {W : α → List BuildJob} (hp : Reads K W p)
    (hk : ∀ a, Reads (W a ++ K) (fun _ => []) (k a)) :
    Reads K (fun _ => []) (stage st p k) := by
  refine hp.attempt.bind fun r => ?_
  cases r with
  | ok a => exact hk a
  | error e => exact .ret (List.nil_subset _)

section
variable (S) (b : BuildId) (hg : ∀ K, Reads K (fun _ => []) guard)
include hg

theorem finish_reads (passed : Bool) (result : ProbeResult) (report : Option String) :
    Reads K (fun _ => []) (finish S b passed result report guard) := by
  refine (BuildService.getBuild_reads b).bind fun build => ?_
  refine reads_after ((asking_reads _).shownReport S build report) fun report => ?_
  refine reads_after ((asking_reads _).redactResult S build result) fun result => ?_
  refine (save_reads b _ (hg _)).bind fun saved => .bind (W := fun j => [j]) ?_ fun build => ?_
  · split
    · exact .ret (by simp)
    · exact reads_after (hg _) fun _ => BuildService.fail_reads b _ _
  · exact reads_after (syncResult_reads (by simp) (hg _)) fun _ => .ret (List.nil_subset _)

theorem settle_reads (st : Progress) (passed : Bool) (result : ProbeResult)
    (report : Option String) :
    Reads K (fun _ => []) (settle st (finish S b passed result report guard)) :=
  stage_reads st (finish_reads S b hg passed result report) fun _ => .ret (List.nil_subset _)

theorem retryProbe_reads (endpoints : List ProbeEndpoint) (retry : Json) (st : Progress) :
    Reads K (fun _ => []) (retryProbe S b endpoints retry guard st) := by
  refine stage_reads (W := fun _ => []) st ?_ fun (retried, first, second) => ?_
  · refine (save_reads b _ (hg _)).bind fun build => ?_
    refine reads_after ((asking_reads _).orRaise (reads_quiet rfl)) fun retried => ?_
    refine reads_after ((asking_reads _).redactReport S build retried) fun first => ?_
    exact reads_after ((asking_reads _).redactReport S build retried) fun _ =>
      .ret (List.nil_subset _)
  · exact settle_reads S b hg _ _ _ _

theorem debugRun_reads (build : BuildJob) (original : Json) (endpoints : List ProbeEndpoint)
    (st : Progress) :
    Reads K (fun _ => []) (debugRun S b build original endpoints guard st) := by
  refine stage_reads (W := fun _ => []) st ?_ fun logs => ?_
  · exact reads_after ((asking_reads _).orRaise (reads_quiet rfl)) fun logs =>
      (asking_reads _).redactJson S build logs
  refine stage_reads (W := fun _ => []) _ ?_ fun (build, output) => ?_
  · refine (save_reads b _ (hg _)).bind fun build => ?_
    refine reads_after (syncResult_reads (by simp) (hg _)) fun _ => ?_
    split
    · exact .raise _
    split
    · exact .raise _
    · refine reads_after ((asking_reads _).redactJson S build original) fun _ => ?_
      refine reads_after ((asking_reads _).orRaise (reads_quiet rfl)) fun output => ?_
      exact reads_after (hg _) fun _ => .ret (List.nil_subset _)
  dsimp only
  split
  · exact .ret (List.nil_subset _)
  refine stage_reads (W := fun _ => []) _ ?_ fun text => ?_
  · exact reads_after ((asking_reads _).redactText S build _ _) fun _ => .ret (List.nil_subset _)
  refine stage_reads _ (save_reads b _ (hg _)) fun build => ?_
  split
  · exact .ret (List.nil_subset _)
  · exact settle_reads S b hg _ _ _ _
  refine stage_reads (W := fun _ => []) _ ?_ fun retry => retryProbe_reads S b hg endpoints retry _
  refine reads_after (reads_ofExcept _) fun retry => ?_
  exact (save_reads b _ (hg _)).bind fun _ => .ret (List.nil_subset _)

theorem afterInitial_reads (build : BuildJob) (original : Json) (endpoints : List ProbeEndpoint)
    (st : Progress) :
    Reads K (fun _ => []) (afterInitial S b build original endpoints guard st) := by
  unfold afterInitial
  dsimp only
  split
  · exact settle_reads S b hg _ _ _ _
  split
  · exact settle_reads S b hg _ _ _ _
  split
  · exact settle_reads S b hg _ _ _ _
  split
  · split
    · exact settle_reads S b hg _ _ _ _
    · exact debugRun_reads S b hg build original endpoints _
  · exact stage_reads (W := fun _ => []) _ (reads_ofExcept _) fun retry =>
      retryProbe_reads S b hg endpoints retry _

theorem prepareRun_reads (hb : build ∈ K) :
    Reads K (fun _ => []) (prepareRun S b build guard) := by
  refine .bind (W := fun j => [j]) ?_ fun build => ?_
  · split
    · exact reads_after (reads_quiet rfl) fun run => save_reads b _ (hg _)
    · exact .ret (by simpa using hb)
  refine reads_after (claimResult_reads (by simp) hg _) fun _ => ?_
  refine (save_reads b _ (hg _)).bind fun build => reads_after (reads_ofExcept _) fun original => ?_
  exact reads_after ((asking_reads _).endpoints S build original) fun _ => .ret (List.nil_subset _)

theorem runCheck_reads (hb : build ∈ K) (st : Progress) :
    Reads K (fun _ => []) (runCheck S b build guard st) := by
  refine stage_reads st (prepareRun_reads S b hg hb) fun (build, original, endpoints) => ?_
  dsimp only
  split
  · exact afterInitial_reads S b hg build original endpoints st
  split
  · exact settle_reads S b hg _ _ _ _
  refine stage_reads (W := fun _ => []) st ?_ fun (_, first, second) => ?_
  · refine (save_reads b _ (hg _)).bind fun build => ?_
    refine reads_after ((asking_reads _).orRaise (reads_quiet rfl)) fun initial => ?_
    refine reads_after ((asking_reads _).redactReport S build initial) fun first => ?_
    exact reads_after ((asking_reads _).redactReport S build initial) fun _ =>
      .ret (List.nil_subset _)
  refine stage_reads (W := fun _ => []) _ ?_ fun build =>
    afterInitial_reads S b hg build original endpoints _
  refine (save_reads b _ (hg _)).bind fun build => ?_
  exact reads_after (syncResult_reads (by simp) (hg _)) fun _ => .ret (List.nil_subset _)

theorem failInterrupted_reads (hb : build ∈ K) :
    Reads K (fun j => [j]) (failInterrupted b build guard) := by
  unfold failInterrupted
  split
  · exact reads_after (hg _) fun _ => BuildService.fail_reads b _ _
  · exact .ret (by simpa using hb)

theorem execute_reads : Reads K (fun _ => []) (execute S b guard) := by
  refine (BuildService.getBuild_reads b).bind fun build => ?_
  split
  · refine (failInterrupted_reads b hg (by simp)).bind fun build => ?_
    exact reads_after (syncResult_reads (by simp) (hg _)) fun _ => .ret (List.nil_subset _)
  split
  · exact .raise _
  · refine reads_after (runCheck_reads S b hg (by simp) _) fun r => ?_
    cases r with
    | ok build => exact .ret (List.nil_subset _)
    | error x =>
        obtain ⟨e, st⟩ := x
        dsimp only
        split
        · exact .raise _
        · exact finish_reads S b hg _ _ _

end

theorem recordFailure_reads (tr : ResourceTracker) :
    Reads K (fun _ => []) (recordFailure tr.buildId (some tr)) := by
  refine (BuildService.getBuild_reads _).bind fun current => ?_
  refine (failInterrupted_reads _ (fun _ => tr.guard_reads) (by simp)).bind fun current => ?_
  split
  · exact reads_after (syncResult_reads (by simp) tr.guard_reads) fun _ => .ret (List.nil_subset _)
  · exact .ret (List.nil_subset _)

theorem reopen_reads (tr : ResourceTracker) :
    Reads K (fun _ => []) (reopen tr.buildId (some tr)) := by
  refine (BuildService.getBuild_reads _).bind fun build => ?_
  split
  · exact .ret (List.nil_subset _)
  split
  · exact .raise _
  refine reads_after (reads_of_uses (AgentRoleService.get_uses ⟨0, 0⟩ none _) (by simp))
    fun role => reads_after (reads_quiet rfl) fun run => reads_after tr.guard_reads fun _ => ?_
  refine .call (fun _ _ => trivial) fun r _ => ?_
  cases r with
  | none => exact .raise _
  | some changed =>
      exact reads_after (claimResult_reads (by simp [Op.shown]) (fun _ => tr.guard_reads) true)
        fun _ => .ret (List.nil_subset _)

end DynamicCheckService

namespace WorkerRuntime
variable {K : List BuildJob} (tr : ResourceTracker)

theorem failRow_reads {current : BuildJob} (hc : current ∈ K) (report : String) :
    Reads K (fun _ => []) (failRow current report tr) := by
  refine (DynamicCheckService.frozenRow_reads current).bind_of
    (DynamicCheckService.frozenRow_yields current) fun row hrow => ?_
  cases row with
  | none => exact .ret (List.nil_subset _)
  | some row =>
      dsimp only
      split
      · exact .ret (List.nil_subset _)
      next hgen =>
      refine reads_after tr.guard_reads fun _ => .call (fun v hv => ?_) fun _ _ =>
        .ret (List.nil_subset _)
      exact .inr (.inr ⟨current, hv (by simpa using hc), _, _, hrow row rfl,
        (not_not.mp hgen).symm, .failed report _ _⟩)

theorem failDelivery_reads (S : Settings) (e : Exc) (fallback : String) :
    Reads K (fun _ => []) (failDelivery S tr.buildId e fallback tr) := by
  refine reads_after tr.guard_reads fun _ => (BuildService.getBuild_reads _).bind fun current => ?_
  dsimp only
  split
  · refine .call (fun _ _ => trivial) fun _ _ => ?_
    refine (BuildService.fail_reads _ _ _).bind fun _ => ?_
    exact failRow_reads tr (by simp) _
  · exact (BuildService.fail_reads _ _ _).bind fun _ => .ret (List.nil_subset _)

end WorkerRuntime

/-! #### Submissions -/

namespace RouteCheckService
variable {K : List BuildJob}

theorem dispatchStatic_reads (result : RouteCheckResult) :
    Reads K (fun _ => []) (dispatchStatic result) := by
  refine .bind (W := fun _ => []) (.mono (.attempt ((DynamicCheckService.asking_reads K).orRaise
    (reads_quiet rfl))) (List.Subset.refl K) fun _ => List.nil_subset _) fun r => ?_
  cases r with
  | error e =>
      refine .call (fun _ _ => .inl (by constructor <;> trivial)) fun _ _ => .raise _
  | ok taskId =>
      refine .call (fun _ _ => .inl (by constructor <;> trivial)) fun r _ => ?_
      cases r with
      | some updated => exact .ret (List.nil_subset _)
      | none => exact reads_of_uses (check_uses ⟨0, 0⟩ none _) (by simp)

theorem createOrReuse_reads (app : UserAppRecord) (commit : String) (force : Bool) :
    Reads K (fun _ => []) (createOrReuse app commit force) := by
  have role (key : RoleKey) : Reads K (fun _ => []) (AgentRoleService.get key) :=
    reads_of_uses (AgentRoleService.get_uses ⟨0, 0⟩ none key) (by simp)
  unfold createOrReuse
  split
  · exact .raise _
  refine reads_after (role _) fun static => reads_after (role _) fun dynamic => ?_
  refine reads_after (reads_quiet rfl) fun checkId => ?_
  have hnew := candidate_new checkId app commit (app.requireRoute.getD "") static dynamic
  refine .call (fun _ _ => hnew.untold) fun (result, created) _ => ?_
  dsimp only
  split
  · exact dispatchStatic_reads result
  split
  · exact reads_after (reads_of_uses (resetLoop_uses ⟨0, 0⟩ none hnew 10 result) (by simp))
      fun result => dispatchStatic_reads result
  · exact .ret (List.nil_subset _)

end RouteCheckService

/-- **Attribution.**  Every task keeps to the monitor. -/
theorem attributing_pieces : Pieces S (fun {_} p => Reads [] (fun _ => []) p) where
  compositional := Prog.Learns.compositional []
  bare hk hd := reads_of_uses (uses_one ⟨_, List.mem_singleton_self _, hd⟩) (by
    rintro hm
    cases List.mem_singleton.mp hm
    cases hk)
  create _ hk := reads_after (reads_quiet rfl) fun b => reads_after (reads_quiet rfl) fun now =>
    .call (fun _ _ => trivial) fun _ _ => hk b
  fail b message site := (BuildService.fail_reads b message site).forget (List.Subset.refl [])
  createOrReuse := RouteCheckService.createOrReuse_reads
  reopen := DynamicCheckService.reopen_reads
  recordFailure := DynamicCheckService.recordFailure_reads
  execute tr := DynamicCheckService.execute_reads S tr.buildId fun _ => tr.guard_reads
  failDelivery tr := WorkerRuntime.failDelivery_reads tr S

/-! ### The invariant -/

/-- A write of what row `k` shows, of the run it is of, or of its generation. -/
def Event.rewrites (k : CheckId) : Event (orchestrator S) → Prop
  | .call _ (.updateRouteCheck c f _) (some _) => c = k ∧ ¬ f.Silent
  | .call _ (.ensureRouteCheck _) (row, true) => row.checkId = k
  | _ => False

/-- What row `x` shows was told last by one write, on behalf of the run of `j`: of all of it, from
a record of the build that the writer was shown, and at the generation that build froze. -/
structure ToldBy (k : CheckId) (x : RouteCheckResult) (j : BuildJob)
    (l : List (Event (orchestrator S))) : Prop where
  build : x.dynamicBuildId = some j.buildId
  run : x.dynamicRunId = j.dynamicRunId
  check : j.routeCheckId = some k
  generation : j.routeCheckGeneration = some x.generation
  last : ∃ later t f e y earlier,
    l = later ++ .call t (.updateRouteCheck k f e) (some y) :: earlier ∧
    Tells k j x.generation f e x.told ∧ y.told = x.told ∧ y.generation = x.generation ∧
    j ∈ viewOf attributing t earlier ∧ ∀ ev ∈ later, ¬ Event.rewrites k ev

section
variable {k : CheckId} {j : BuildJob} {g : Nat} {f : RouteCheckFields} {e : RouteCheckExpectation}
  {d : DynamicResult} {row x y : RouteCheckResult} {l : List (Event (orchestrator S))}

theorem RouteCheckFields.Silent.told (h : f.Silent) (row : RouteCheckResult) :
    (row.modelCopy f).told = row.told ∧ (row.modelCopy f).dynamicBuildId = row.dynamicBuildId ∧
    (row.modelCopy f).dynamicRunId = row.dynamicRunId ∧
    (row.modelCopy f).generation = row.generation := by
  simp only [RouteCheckResult.told, RouteCheckResult.modelCopy_dynamicStatus,
    RouteCheckResult.modelCopy_dynamicCheckPassed, RouteCheckResult.modelCopy_dynamicReportText,
    RouteCheckResult.modelCopy_probeResult, RouteCheckResult.modelCopy_dynamicBuildId,
    RouteCheckResult.modelCopy_dynamicRunId, RouteCheckResult.modelCopy_generation,
    h.dynamicStatus.apply, h.dynamicCheckPassed.apply, h.dynamicReportText.apply,
    h.probeResult.apply, h.dynamicBuildId.apply, h.dynamicRunId.apply, h.generation.apply,
    and_self]

/-- A write on behalf of a run leaves its result, under its name and at the generation it
expects. -/
theorem Tells.write (h : Tells k j g f e d) (hh : e.holds row = true) :
    (row.modelCopy f).told = d ∧ (row.modelCopy f).dynamicBuildId = some j.buildId ∧
    (row.modelCopy f).dynamicRunId = j.dynamicRunId ∧ (row.modelCopy f).generation = g := by
  simp only [RouteCheckExpectation.holds, Bool.and_eq_true] at hh
  obtain ⟨⟨⟨⟨⟨hg, -⟩, -⟩, -⟩, hb⟩, hr⟩ := hh
  cases h with
  | claimed b run => exact ⟨rfl, rfl, rfl, (Expect.holds_eq _ _).mp hg⟩
  | failed report b run => exact ⟨rfl, rfl, rfl, (Expect.holds_eq _ _).mp hg⟩
  | synced =>
      exact ⟨rfl, (Expect.holds_eq _ _).mp hb, (Expect.holds_eq _ _).mp hr,
        (Expect.holds_eq _ _).mp hg⟩

namespace ToldBy

/-- An event that rewrites nothing leaves it so. -/
theorem event (h : ToldBy k x j l) {ev : Event (orchestrator S)} (he : ¬ Event.rewrites k ev)
    (ht : y.told = x.told) (hb : y.dynamicBuildId = x.dynamicBuildId)
    (hr : y.dynamicRunId = x.dynamicRunId) (hg : y.generation = x.generation) :
    ToldBy k y j (ev :: l) where
  build := hb.trans h.build
  run := hr.trans h.run
  check := h.check
  generation := by rw [hg]; exact h.generation
  last := by
    obtain ⟨later, t, f, e, z, earlier, rfl, htell, hz, hzg, hj, hlater⟩ := h.last
    rw [ht, hg]
    refine ⟨ev :: later, t, f, e, z, earlier, rfl, htell, hz, hzg, hj, fun e he' => ?_⟩
    rcases List.mem_cons.mp he' with rfl | hm
    · exact he
    · exact hlater e hm

/-- A write on behalf of a run. -/
theorem write (h : Tells k j g f e d) (hh : e.holds row = true) {t : Nat}
    (hj : j ∈ viewOf attributing t l) (hk : j.routeCheckId = some k)
    (hg : j.routeCheckGeneration = some g) :
    ToldBy k (row.modelCopy f) j
      (.call t (.updateRouteCheck k f e) (some (row.modelCopy f)) :: l) := by
  obtain ⟨ht, hb, hr, hgen⟩ := h.write hh
  refine ⟨hb, hr, hk, hg.trans (congrArg some hgen.symm), [], t, f, e, _, l, rfl, ?_, rfl, rfl,
    hj, by simp⟩
  rw [ht, hgen]
  exact h

end ToldBy

end

/-- What row `k` shows was told by the run it names, and a build that a thread was shown is stored
with what it has frozen. -/
structure Attributed (k : CheckId) (w : World) (l : List (Event (orchestrator S))) : Prop where
  row : ∀ x, w.repo.routeChecks.lookup k = some x → x.told = .untold ∨ ∃ j, ToldBy k x j l
  shown : ∀ t j, j ∈ viewOf attributing t l → ∃ z, w.repo.builds.lookup j.buildId = some z ∧
    z.routeCheckId = j.routeCheckId ∧ z.routeCheckGeneration = j.routeCheckGeneration

namespace Attributed
variable {k : CheckId} {w w' : World} {l : List (Event (orchestrator S))} {t : Nat} {op : Op}
  {a : Answers} {r : op.Ret}

theorem boot (h : w.repo.Pristine) : Attributed (S := S) k w [] where
  row x hx := by rw [h.routeChecks] at hx; simp at hx
  shown t j hj := by cases hj

/-- What a call leaves of a row. -/
theorem row_call (h : Attributed k w l) (hw : w.Keyed)
    (ha : attributes (viewOf attributing t l) op) (he : exec t op a w = some (r, w'))
    {x : RouteCheckResult} (hx : w'.repo.routeChecks.lookup k = some x) :
    x.told = .untold ∨ ∃ j, ToldBy k x j (.call t op r :: l) := by
  have hstep := exec_row hw he k
  have hsane := (exec_sane hw he).1
  rw [hx] at hstep
  generalize hold : w.repo.routeChecks.lookup k = old at hstep
  generalize hnew : some x = new at hstep
  -- A row tells what its last result told; every other write keeps it.
  cases hstep with
  | same hr =>
      subst hnew
      refine (h.row x hold).imp_right fun ⟨j, hj⟩ => ⟨j, hj.event ?_ rfl rfl rfl rfl⟩
      cases op with
      | updateRouteCheck c f e =>
          cases r with
          | none => exact id
          | some y =>
              rintro ⟨hc, -⟩
              cases (hr hc).1
      | ensureRouteCheck row =>
          obtain ⟨y, created⟩ := r
          cases created with
          | false => exact id
          | true =>
              intro hk
              cases (hr hk).2
      | _ => exact id
  | inserted hk =>
      cases hnew
      exact .inl ha
  | @updated row f e hh =>
      cases hnew
      rcases ha with hf | ⟨candidate, g, hc, rfl⟩ | ⟨j, hj, g, d, hk, hg, htell⟩
      · obtain ⟨ht, hb, hr, hgen⟩ := hf.told row
        rcases h.row row hold with hu | ⟨j, hj⟩
        · exact .inl (ht.trans hu)
        · exact .inr ⟨j, hj.event (fun hn => hn.2 hf) ht hb hr hgen⟩
      · exact .inl hc
      · exact .inr ⟨j, ToldBy.write htell hh hj hk hg⟩
  | deleted => cases hnew

/-- A build keeps what it has frozen. -/
theorem frozen_call {b : BuildId} {old new : Option BuildJob} (h : BuildDeed b old new op r)
    {z : BuildJob} (hz : old = some z) : ∃ z', new = some z' ∧ z'.routeCheckId = z.routeCheckId ∧
      z'.routeCheckGeneration = z.routeCheckGeneration := by
  cases h with
  | same _ => exact ⟨z, hz, rfl, rfl⟩
  | created => cases hz
  | updated | moved | rechecked => cases hz; exact ⟨_, rfl, rfl, rfl⟩

/-- What a response shows of a build is stored. -/
theorem shown_call {j : BuildJob} (hj : j ∈ op.shown r) (he : exec t op a w = some (r, w'))
    (hw : w.Keyed) : w'.repo.builds.lookup j.buildId = some j := by
  have hsane := (exec_sane hw he).1
  have hstep := exec_build he j.buildId
  revert hstep
  generalize w.repo.builds.lookup j.buildId = old
  generalize w'.repo.builds.lookup j.buildId = new
  intro hstep
  cases op with
  | getBuild b =>
      obtain rfl := Option.mem_toList.mp hj
      obtain rfl : j.buildId = b := hsane j rfl
      cases hstep with
      | same hr => exact (hr rfl).symm
  | updateBuild b f =>
      obtain rfl := Option.mem_toList.mp hj
      obtain rfl : j.buildId = b := hsane j rfl
      cases hstep with
      | same hr => cases (hr rfl).1
      | updated => rfl
  | transitionBuild b l s f =>
      obtain rfl := Option.mem_toList.mp hj
      obtain rfl : j.buildId = b := (hsane j rfl).1
      cases hstep with
      | same hr => cases (hr rfl).1
      | moved => rfl
  | _ => cases hj

/-- **One call.** -/
theorem call (h : Attributed k w l) (hw : w.Keyed)
    (ha : attributes (viewOf attributing t l) op) (he : exec t op a w = some (r, w'))
    (hd : ∀ b, BuildDeed b (w.repo.builds.lookup b) (w'.repo.builds.lookup b) op r) :
    Attributed k w' (.call t op r :: l) where
  row _ hx := h.row_call hw ha he hx
  shown t' j hj := by
    have older (hj : j ∈ viewOf attributing t' l) :
        ∃ z, w'.repo.builds.lookup j.buildId = some z ∧ z.routeCheckId = j.routeCheckId ∧
          z.routeCheckGeneration = j.routeCheckGeneration := by
      obtain ⟨z, hz, hc, hg⟩ := h.shown t' j hj
      obtain ⟨z', hz', hc', hg'⟩ := frozen_call (hd j.buildId) hz
      exact ⟨z', hz', hc'.trans hc, hg'.trans hg⟩
    by_cases ht : t = t'
    · subst ht
      rw [viewOf_call_self] at hj
      rcases List.mem_append.mp hj with hj | hj
      · exact ⟨j, shown_call hj he hw, rfl, rfl⟩
      · exact older hj
    · rw [viewOf_call_other ht] at hj
      exact older hj

theorem start (h : Attributed k w l) (T : Task) : Attributed k w (.start t T :: l) where
  row x hx := (h.row x hx).imp_right fun ⟨j, hj⟩ => ⟨j, hj.event id rfl rfl rfl rfl⟩
  shown := h.shown

/-- A heartbeat renews the lease of the static check, and tells nothing. -/
theorem env (h : Attributed k w l) {x : Stimulus} (hx : disturb x w = some w') :
    Attributed k w' (.env x :: l) where
  row y hy := by
    have hrow := disturb_row hx k
    rw [hy] at hrow
    generalize hold : w.repo.routeChecks.lookup k = old at hrow
    cases hrow with
    | same => exact (h.row y hold).imp_right fun ⟨j, hj⟩ => ⟨j, hj.event id rfl rfl rfl rfl⟩
    | renewed =>
        exact (h.row _ hold).imp_right fun ⟨j, hj⟩ => ⟨j, hj.event id rfl rfl rfl rfl⟩
  shown t j hj := by
    rw [disturb_builds hx]
    exact h.shown t j hj

/-- **Runs.** -/
theorem run {c c' : Config (orchestrator S)} (hb : Boot c) (hr : Run Anything c c') :
    Attributed k c'.world c'.log := by
  have hdis : Disciplined (orchestrator S) attributing := fun T =>
    ((attributing_pieces (S := S)).tasking.body T [] (List.Subset.refl _)).mono
      fun _ _ _ => trivial
  induction hr with
  | refl => rw [hb.log]; exact .boot hb.repo
  | snoc hr _ hs ih =>
      have hsup := hr.supervised hdis hb.good (boot_supervised hb)
      rcases Machine.step_cases hs with ⟨t, a, op, kont, r, w, -, hk, he, rfl⟩ |
          ⟨t, T, -, -, rfl⟩ | ⟨x, w, -, hx, rfl⟩
      · exact ih.call (hr.good hb.good) (hsup.allows hk) he fun b => next_deed hb hr hk he b
      · exact ih.start T
      · exact ih.env hx

end Attributed

/-! ### The claim -/

/-- **Attribution.**  In every configuration of every run: if a row shows a result at all, it
names a build that is frozen on this row at its generation; all that it shows was told last by one
write, on behalf of the run it names, by a thread that had a record of that run of that build from
the repository, while the row was at that generation; and no write since then has told anything
else, renamed the run, or moved the generation. -/
theorem row_attribution (S : Settings) {c c₁ : Config (orchestrator S)} (hb : Boot c)
    (hr : Run Anything c c₁) (k : CheckId) (x : RouteCheckResult)
    (hx : InMemoryRepository.getRouteCheck c₁.world.repo k = some x) (hne : x.told ≠ .untold) :
    ∃ b : BuildId, x.dynamicBuildId = some b ∧
      (∃ z, c₁.world.repo.builds.lookup b = some z ∧ z.routeCheckId = some k ∧
        z.routeCheckGeneration = some x.generation) ∧
      ∃ (j : BuildJob) (later earlier : List (Event (orchestrator S))) (t : Nat)
        (f : RouteCheckFields) (e : RouteCheckExpectation) (y : RouteCheckResult),
        j.buildId = b ∧ j.dynamicRunId = x.dynamicRunId ∧ j.routeCheckId = some k ∧
        j.routeCheckGeneration = some x.generation ∧
        c₁.log = later ++ .call t (.updateRouteCheck k f e) (some y) :: earlier ∧
        Tells k j x.generation f e x.told ∧ y.told = x.told ∧ y.generation = x.generation ∧
        (∃ (op : Op) (r : op.Ret), .call t op r ∈ earlier ∧ j ∈ op.shown r) ∧
        ∀ ev ∈ later, ¬ Event.rewrites k ev := by
  have hinv := Attributed.run (k := k) hb hr
  obtain ⟨j, hj⟩ := (hinv.row x hx).resolve_left hne
  obtain ⟨later, t, f, e, y, earlier, hl, htell, hy, hg, hseen, hlater⟩ := hj.last
  obtain ⟨op, r, hm, hs⟩ := mem_viewOf_showing hseen
  refine ⟨j.buildId, hj.build, ?_, j, later, earlier, t, f, e, y, rfl, hj.run.symm, hj.check,
    hj.generation, hl, htell, hy, hg, ⟨op, r, hm, hs⟩, hlater⟩
  have hview : j ∈ viewOf attributing t c₁.log := by
    rw [hl, List.append_cons]
    exact viewOf_showing_append _ hseen
  obtain ⟨z, hz, hc, hgen⟩ := hinv.shown t j hview
  exact ⟨z, hz, hc.trans hj.check, hgen.trans hj.generation⟩

/-- A delivered build is shown by the row it is frozen on. -/
theorem row_attribution_delivered :
    let c := Sample.reached Sample.delivered Sample.delivered_plays
    ∃ x, InMemoryRepository.getRouteCheck c.world.repo ⟨0, 0⟩ = some x ∧
      x.dynamicStatus = .succeeded ∧ ∃ b, x.dynamicBuildId = some b ∧
        ∃ z, c.world.repo.builds.lookup b = some z ∧ z.routeCheckId = some ⟨0, 0⟩ ∧
          z.routeCheckGeneration = some x.generation := by
  intro c
  have hx : ((InMemoryRepository.getRouteCheck c.world.repo ⟨0, 0⟩).map (·.dynamicStatus)) =
      some .succeeded := by decide +kernel
  obtain ⟨x, hx, hs⟩ := Option.map_eq_some_iff.mp hx
  have hne : x.told ≠ .untold := fun h => by
    have := congrArg DynamicResult.dynamicStatus h
    cases hs.symm.trans this
  obtain ⟨b, hb, hz, -⟩ := row_attribution _ Sample.boot
    (Sample.reached_run Sample.delivered Sample.delivered_plays) ⟨0, 0⟩ x hx hne
  exact ⟨x, hx, hs, b, hb, hz⟩

end Orchestrator
