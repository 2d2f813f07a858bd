import Orchestrator.Discipline.Deliveries

/-!
# Discipline — tasks

What every task is made of.

* `Task.kinds`, `Task.body_does`: the kinds of deeds of each task.
* `Tasking S G`: the pieces of the tasks have the property `G`.
* `Tasking.body`: then so has every task.
* `Blocks G`: every single call has it, and the creation and the failure of a build, which take
  several; `Blocks.tasking`: then so have the pieces.
-/

namespace Orchestrator
open Interleaving

variable (S : Settings)

/-! ### Applications -/

section
variable {G : {α : Type} → P α → Prop} (hG : Prog.Compositional (I := api) G)
    (free : ∀ op, Does [.quiet] op → G (call op))
include hG free

/-- Resolving a commit has the property. -/
theorem resolveCommit_of (app : UserAppRecord) (ref : Option String) :
    G (RouteCheckService.resolveCommit S app ref) :=
  of_doing hG free (RouteCheckService.resolveCommit_uses S ⟨0, 0⟩ none app ref) (by simp)

/-- A request for a static check has it if making its row has. -/
theorem submitStatic_of
    (check : ∀ app commit force, G (RouteCheckService.createOrReuse app commit force))
    (appid : String) (commit : Option String) (force : Bool) :
    G (submitStatic S appid commit force) := by
  refine hG.bind (free _ ⟨⟨0, 0⟩, none, .of (.quiet rfl)⟩) fun app => ?_
  cases app with
  | none => exact hG.raise _
  | some app =>
      refine hG.bind ?_ fun _ => hG.ret ()
      unfold RouteCheckService.submit
      split
      · exact hG.raise _
      · exact hG.bind (resolveCommit_of S hG free app commit) fun c => check app c force

/-- An edit of an application writes, and asks for a check. -/
theorem updateApp_of
    (check : ∀ app commit force, G (RouteCheckService.createOrReuse app commit force))
    (appid : String) (request : AppFields)
    (write : G (call (.updateApp appid (updateFields request)))) :
    G (updateApp S appid request) := by
  have quiet {op : Op} (h : op.quiet = true) : G (call op) := free op ⟨⟨0, 0⟩, none, .of (.quiet h)⟩
  refine hG.bind (quiet rfl) fun current => ?_
  cases current with
  | none => exact hG.raise _
  | some current =>
      refine hG.bind ?_ fun commit => hG.bind write fun updated => ?_
      · split
        · exact hG.ret none
        · exact hG.bind (resolveCommit_of S hG free _ _) fun _ => hG.ret _
      cases updated with
      | none => exact hG.raise _
      | some updated =>
          dsimp only
          split
          · exact hG.ret ()
          refine hG.bind ?_ fun commit => hG.bind (check updated commit false) fun _ => hG.ret ()
          split
          · exact hG.ret _
          · exact resolveCommit_of S hG free _ _

/-- So does a synchronisation, with what it has read. -/
theorem syncApp_of
    (check : ∀ app commit force, G (RouteCheckService.createOrReuse app commit force))
    (appid : String) (write : ∀ d, G (call (.updateApp appid (syncFields d)))) :
    G (syncApp S appid) := by
  have quiet {op : Op} (h : op.quiet = true) : G (call op) := free op ⟨⟨0, 0⟩, none, .of (.quiet h)⟩
  refine hG.bind (quiet rfl) fun app => ?_
  cases app with
  | none => exact hG.raise _
  | some app =>
      dsimp only
      split
      · exact hG.raise _
      refine hG.bind (hG.bind (quiet rfl) hG.ofExcept) fun resolved => ?_
      refine hG.bind (hG.bind (hG.bind (quiet rfl) hG.ofExcept) fun _ => hG.ret _)
        fun discovered => ?_
      refine hG.bind (write ..) fun updated => ?_
      cases updated with
      | none => exact hG.raise _
      | some updated =>
          dsimp only
          split
          · exact hG.ret _
          · exact hG.bind (check updated resolved false) fun _ => hG.ret _

end

/-! ### Tasks -/

/-- The kinds of deeds of a task. -/
def Task.kinds : Task → List Kind
  | queueBuild .. => BuildService.queueKinds
  | manifest _ => [.quiet, .legacy]
  | requestCleanup _ => [.quiet, .legacy, .claim [.notStarted, .partialFailed], .release, .accept,
      .undispatch]
  | submitDynamic .. => [.quiet, .plain, .claim [.notStarted], .release, .guard, .recheck, .row]
  | submitStatic .. => [.quiet, .row, .ensureRow, .resetRow]
  | updateApp .. | syncApp .. => [.quiet, .app, .row, .ensureRow, .resetRow]
  | deleteRouteCheck .. => [.quiet, .deleteRow]
  | startRoles | updateRole .. => [.quiet, .role]
  | recoverCleanups => [.quiet]
  | startBuild .. => .legacy :: .claim [.notStarted] :: .release :: WorkerRuntime.startKinds ++
      DynamicCheckService.teardownKinds
  | pollBuild .. => .legacy :: .claim [.notStarted] :: .release :: WorkerRuntime.pollKinds ++
      DynamicCheckService.teardownKinds
  | dynamicRouteCheck .. => .legacy :: .claim [.notStarted] :: .release :: (.deliver ::
      checkKinds) ++ DynamicCheckService.teardownKinds
  | staticRouteCheck .. => [.quiet, .takeRow, .resultRow]
  | cleanupBuild _ => DynamicCheckService.teardownKinds
  | recoverBuilds => [.quiet, .legacy, .claim [.notStarted], .release, .guard, .fail, .alert]
  | recoverRouteChecks => DynamicCheckService.teardownKinds ++ checkKinds

/-- **Footprints.**  Every task keeps to its kinds of deeds. -/
theorem Task.body_does (T : Task) : (T.body S).Uses (Does T.kinds) := by
  have b : BuildId := ⟨0, 0⟩
  cases T with
  | queueBuild appid gitRef => exact BuildService.queueBuild_does S appid gitRef
  | manifest b => exact .bind (uses_does (manifest_uses S b none)) fun _ => trivial
  | requestCleanup b => exact .bind (requestCleanup_does S b true) fun _ => trivial
  | submitDynamic appid b =>
      exact .bind (DynamicCheckService.submit_does appid b) fun _ => trivial
  | submitStatic appid commit force =>
      exact submitStatic_of S (Prog.uses_compositional (I := api) _)
        (fun op h => uses_one (h.mono (by simp)))
        (fun app commit force => uses_does (RouteCheckService.createOrReuse_uses b none app commit
          force)) appid commit force
  | deleteRouteCheck appid commit =>
      exact .bind (uses_does (RouteCheckService.deleteLatest_uses b none appid commit))
        fun _ => trivial
  | startRoles => exact uses_does (uses_mono (AgentRoleService.init_uses b none) (by simp [kinds]))
  | updateRole key update =>
      exact .bind (uses_does (AgentRoleService.update_uses S b none key update)) fun _ => trivial
  | updateApp appid request =>
      exact updateApp_of S (Prog.uses_compositional (I := api) _)
        (fun op h => uses_one (h.mono (by simp [kinds])))
        (fun app commit force => uses_does (uses_mono (RouteCheckService.createOrReuse_uses b none
          app commit force) (by simp [kinds])))
        appid request (uses_one ⟨b, none, .app, by simp [kinds], .app ..⟩)
  | syncApp appid =>
      refine .bind ?_ fun _ => trivial
      exact syncApp_of S (Prog.uses_compositional (I := api) _)
        (fun op h => uses_one (h.mono (by simp [kinds])))
        (fun app commit force => uses_does (uses_mono (RouteCheckService.createOrReuse_uses b none
          app commit force) (by simp [kinds])))
        appid fun _ => uses_one ⟨b, none, .app, by simp [kinds], .app ..⟩
  | startBuild b taskId =>
      exact WorkerRuntime.runBuildOperation_does S b
        (fun u => WorkerRuntime.startBody_uses S ⟨b, some u⟩ taskId) (by simp) (by simp)
  | pollBuild b attempt taskId =>
      exact WorkerRuntime.runBuildOperation_does S b
        (fun u => WorkerRuntime.pollBody_uses S ⟨b, some u⟩ attempt taskId) (by simp) (by simp)
  | dynamicRouteCheck b run =>
      exact WorkerRuntime.runBuildOperation_does S b
        (fun u => WorkerRuntime.dynamicBody_uses S ⟨b, some u⟩ run) (by simp) (by simp)
  | staticRouteCheck c generation =>
      exact uses_does (RouteCheckService.executeStatic_uses S b none c generation)
  | cleanupBuild b => exact WorkerRuntime.cleanupBuild_does S b
  | recoverBuilds => exact WorkerRuntime.recoverBuilds_does S
  | recoverCleanups => exact uses_does (recoverCleanups_uses b none)
  | recoverRouteChecks =>
      exact .bind (uses_does_mono (uses_does (RouteCheckService.recover_uses b none)) (by
        simp [Task.kinds])) fun _ => DynamicCheckService.recover_does S

/-- The kinds of deeds that are done without a lease anywhere. -/
abbrev freeKinds : List Kind := [.quiet, .legacy, .plain, .takeRow, .resultRow, .resetRow,
  .deleteRow, .app, .role]

/-- The kinds of deeds that need no lease. -/
abbrev unleasedKinds : List Kind :=
  .create :: .insert :: .fail :: .alert :: .undispatch :: .tear :: .row :: .ensureRow :: freeKinds

/-- The pieces every task is made of have the property `G`: what needs no lease, the functions
that write more than that without one, and the operations that run under one. -/
structure Tasking (G : {α : Type} → P α → Prop) : Prop where
  compositional : Prog.Compositional (I := api) G
  free : ∀ op, Does freeKinds op → G (call op)
  createOrReuse : ∀ app commit force, G (RouteCheckService.createOrReuse app commit force)
  queue : ∀ appid gitRef, G (BuildService.queueBuild S appid gitRef)
  request : ∀ b dispatch, G (requestCleanup S b dispatch)
  sync : ∀ b, G (DynamicCheckService.syncTeardown b)
  teardown : ∀ b {cleanup : P Unit}, G cleanup → G (DynamicCheckService.teardown S b cleanup)
  teardownIfRequired : ∀ b, G (WorkerRuntime.cleanupBuild S b) →
    G (WorkerRuntime.teardownIfRequired S b)
  reopen : ∀ b, G (buildLease b [.notStarted] (DynamicCheckService.reopen b))
  run : ∀ b m, m.buildId = b →
    G (buildLease b [.queued, .running] (cleanupUnderLease S b m))
  recordFailure : ∀ b,
    G (buildLease b [.notStarted, .partialFailed] (DynamicCheckService.recordFailure b))
  failUnprepared : ∀ b, G (buildLease b [.notStarted] (WorkerRuntime.failUnprepared b))
  start : ∀ b taskId, G (buildLease b [.notStarted] (WorkerRuntime.underLease b
    (WorkerRuntime.startBody S b taskId)))
  poll : ∀ b attempt taskId, G (buildLease b [.notStarted] (WorkerRuntime.underLease b
    (WorkerRuntime.pollBody S b attempt taskId)))
  dynamic : ∀ b run, G (buildLease b [.notStarted] (WorkerRuntime.underLease b
    (WorkerRuntime.dynamicBody S b run)))

namespace Tasking
variable {S} {G : {α : Type} → P α → Prop} (h : Tasking S G)
include h

/-- A footprint of free deeds has the property. -/
theorem of_free {α : Type} {p : P α} {b : BuildId} {o : Option Uuid} {ks : List Kind}
    (hp : p.Uses (Doing b o ks)) (hk : ks ⊆ freeKinds) : G p :=
  of_doing h.compositional h.free hp hk

/-- Each of these deeds is free. -/
theorem lesser {ks : List Kind} (hk : ks ⊆ freeKinds) (op : Op) (hop : Does ks op) :
    G (call op) := h.free op (hop.mono hk)

/-- A write of an application is free. -/
theorem app (appid : String) (f : AppFields) : G (call (.updateApp appid f)) :=
  h.free _ ⟨⟨0, 0⟩, none, .of (.app ..)⟩

theorem runCleanup (b : BuildId) : G (runCleanup S b) :=
  runCleanup_of S h.compositional (h.lesser (by simp)) (h.run b)

theorem cleanupBuild (b : BuildId) : G (WorkerRuntime.cleanupBuild S b) :=
  h.compositional.ensuring (h.runCleanup b) (h.sync b)

/-- An operation has it if it has under its lease. -/
theorem runBuildOperation (b : BuildId) {operation : ResourceTracker → P Unit}
    (lease : G (buildLease b [.notStarted] (WorkerRuntime.underLease b operation))) :
    G (WorkerRuntime.runBuildOperation S b operation) :=
  h.compositional.ensuring
    (WorkerRuntime.operate_of h.compositional (h.lesser (by simp)) lease)
    (h.teardownIfRequired b (h.cleanupBuild b))

/-- **Tasks.**  What sequencing keeps, and holds of the pieces, holds of every task. -/
theorem body (T : Task) : G (T.body S) := by
  have whole {T : Task} (hk : T.kinds ⊆ freeKinds) : G (T.body S) :=
    h.compositional.of_uses (h.lesser hk) (T.body_does S)
  have hG := h.compositional
  cases T with
  | queueBuild appid gitRef => exact h.queue appid gitRef
  | requestCleanup b => exact hG.bind (h.request b true) fun _ => hG.ret ()
  | submitDynamic appid b =>
      exact hG.bind (DynamicCheckService.submit_of hG (h.lesser (by simp)) (h.reopen b) appid)
        fun _ => hG.ret ()
  | submitStatic appid commit force =>
      exact submitStatic_of S hG (h.lesser (by simp)) h.createOrReuse appid commit force
  | updateApp appid request =>
      exact updateApp_of S hG (h.lesser (by simp)) h.createOrReuse appid request (h.app ..)
  | syncApp appid =>
      exact hG.bind (syncApp_of S hG (h.lesser (by simp)) h.createOrReuse appid fun _ =>
        h.app ..) fun _ => hG.ret ()
  | startBuild b taskId => exact h.runBuildOperation b (h.start b taskId)
  | pollBuild b attempt taskId => exact h.runBuildOperation b (h.poll b attempt taskId)
  | dynamicRouteCheck b run => exact h.runBuildOperation b (h.dynamic b run)
  | cleanupBuild b => exact h.cleanupBuild b
  | recoverBuilds =>
      exact WorkerRuntime.recoverBuilds_of S hG (h.lesser (by simp)) h.failUnprepared
  | recoverRouteChecks =>
      refine hG.bind (h.of_free (RouteCheckService.recover_uses ⟨0, 0⟩ none) (by simp)) fun _ => ?_
      exact DynamicCheckService.recover_of S hG (h.lesser (by simp)) h.recordFailure fun b =>
        h.teardown b (h.runCleanup b)
  | manifest b => exact whole (by simp [Task.kinds])
  | deleteRouteCheck appid commit => exact whole (by simp [Task.kinds])
  | startRoles => exact whole (by simp [Task.kinds])
  | updateRole key update => exact whole (by simp [Task.kinds])
  | staticRouteCheck c generation => exact whole (by simp [Task.kinds])
  | recoverCleanups => exact whole (by simp [Task.kinds])

end Tasking

/-! ### Creation and failure as blocks -/

/-- The kinds of deeds that are not part of the creation or of the failure of a build. -/
def Kind.single : Kind → Bool
  | create | fail | alert => false
  | _ => true

/-- The kinds of single deeds, without the writes of the aggregate row. -/
def Kind.bare (k : Kind) : Bool := k.single && k != .row

/-- The single calls but the writes of the aggregate row, the functions with such writes, the
creation of a build and its failure have the property `G`. -/
structure Pieces (G : {α : Type} → P α → Prop) : Prop where
  compositional : Prog.Compositional (I := api) G
  bare : ∀ {b o k op}, Kind.bare k = true → Deed b o k op → G (call op)
  create : ∀ {job : BuildId → DateTime → BuildJob} {k : BuildId → P Unit},
    (∀ b now, (job b now).buildId = b ∧ (job b now).New) → (∀ b, G (k b)) →
    G (Prog.bind (call .uuid4) fun b => Prog.bind (call .utcNow) fun now =>
      Prog.bind (call (.createBuild (job b now))) fun _ => k b)
  fail : ∀ b message site, G (BuildService.fail b message site)
  createOrReuse : ∀ app commit force, G (RouteCheckService.createOrReuse app commit force)
  reopen : ∀ tr : ResourceTracker, G (DynamicCheckService.reopen tr.buildId (some tr))
  recordFailure : ∀ tr : ResourceTracker,
    G (DynamicCheckService.recordFailure tr.buildId (some tr))
  execute : ∀ tr : ResourceTracker, G (DynamicCheckService.execute S tr.buildId tr.guard)
  failDelivery : ∀ tr e fallback, G (WorkerRuntime.failDelivery S tr.buildId e fallback tr)

namespace Pieces
variable {S} {G : {α : Type} → P α → Prop} (h : Pieces S G)
include h

/-- A deed of a bare kind has the property. -/
theorem does {K : List Kind} (hk : ∀ k ∈ K, k.bare = true) (op : Op) (hop : Does K op) :
    G (call op) := by
  obtain ⟨b, o, k, hm, hd⟩ := hop
  exact h.bare (hk k hm) hd

/-- So has a footprint of bare kinds. -/
theorem of_does {α : Type} {p : P α} {K : List Kind} (hp : p.Uses (Does K))
    (hk : ∀ k ∈ K, k.bare = true) : G p := h.compositional.of_uses (h.does hk) hp

/-- Failing a build has it. -/
theorem failing (b : BuildId) (o : Option Uuid) {K : List Kind}
    (hk : ∀ k ∈ K, k ≠ .create ∧ k ≠ .row) : Failing G b o K where
  compositional := h.compositional
  free {k op} hm hf ha hd := by
    refine h.bare ?_ hd
    obtain ⟨hc, hr⟩ := hk k hm
    cases k <;> first | rfl | contradiction
  fail := h.fail b

/-- So has what is done under a tracker. -/
theorem delivering (tr : ResourceTracker) {K : List Kind} (hk : ∀ k ∈ K, k ≠ .create)
    (hq : [.quiet, .guard] ⊆ K) (hp : .put ∈ K → .commit ∈ K) (hb : .deployBuild ∈ K → .put ∈ K) :
    WorkerRuntime.Delivering S G tr K := by
  refine .of_free h.compositional (fun {k op} hm hf ha hr hd => h.bare ?_ hd) (h.fail tr.buildId)
    (h.execute tr) (h.failDelivery tr) hq hp hb
  have hc := hk k hm
  cases k <;> first | rfl | contradiction

/-- A body has it under a lease, if it has with the tracker and without. -/
theorem lease {α : Type} {b : BuildId} {l : List CleanupStatus}
    {body : Option ResourceTracker → P α} (hnone : G (body none))
    (hsome : ∀ u, G (body (some ⟨b, some u⟩))) : G (buildLease b l body) :=
  buildLease_of h.compositional (h.does (by simp [Kind.bare, Kind.single])) hnone hsome

theorem operation {b : BuildId} {operation : ResourceTracker → P Unit}
    (hop : ∀ u, G (operation ⟨b, some u⟩)) :
    G (buildLease b [.notStarted] (WorkerRuntime.underLease b operation)) := by
  refine h.lease ?_ fun u => ?_
  · exact h.compositional.bind (h.of_does (uses_does (BuildService.getBuild_uses b none))
      (by simp [Kind.bare, Kind.single])) fun _ => h.compositional.ret _
  · refine WorkerRuntime.underLease_of ⟨b, some u⟩ h.compositional (fun hk hd => ?_) (hop u)
    rcases List.mem_pair.mp hk with rfl | rfl <;> exact h.bare rfl hd

theorem request (b : BuildId) (dispatch : Bool) : G (requestCleanup S b dispatch) :=
  h.of_does (requestCleanup_does S b dispatch) (by simp [Kind.bare, Kind.single])

theorem sync (b : BuildId) : G (DynamicCheckService.syncTeardown b) :=
  h.of_does (uses_does (DynamicCheckService.syncTeardown_uses b none))
    (by simp [Kind.bare, Kind.single])

/-- A write of the teardown has it. -/
theorem tear (b : BuildId) {f : BuildFields} (ht : f.Tearing) (hs : f.Unstaged) :
    G (call (.updateBuild b f)) := h.bare (o := none) rfl (.tear ht hs)

/-- So has the teardown itself. -/
theorem teardown (b : BuildId) {cleanup : P Unit} (hc : G cleanup) :
    G (DynamicCheckService.teardown S b cleanup) :=
  DynamicCheckService.teardown_of S h.compositional (h.does (by simp [Kind.bare, Kind.single]))
    (fun ht hs _ => h.tear b ht hs) (h.sync b) (h.request b false) hc

/-- **Pieces.**  What sequencing keeps, and holds of the pieces, holds of every task. -/
theorem tasking : Tasking S G where
  compositional := h.compositional
  free := h.does (by simp [Kind.bare, Kind.single])
  createOrReuse := h.createOrReuse
  queue appid gitRef := by
    refine BuildService.queueBuild_of S h.compositional
      (h.does (by simp [Kind.bare, Kind.single])) h.create h.fail (fun appid b => ?_) appid gitRef
    exact h.lease (h.compositional.raise _) fun u =>
      BuildService.prepareInputs_of S ⟨b, some u⟩ (h.failing b _ (by simp))
        (fun r _ => h.of_does (uses_does (ResourceTracker.record_uses ⟨b, some u⟩ r))
          (by simp [Kind.bare, Kind.single])) appid
  request := h.request
  sync := h.sync
  teardown b _ hc := h.teardown b hc
  teardownIfRequired b hc := WorkerRuntime.teardownIfRequired_of S h.compositional
    (h.does (by simp [Kind.bare, Kind.single])) (fun ht hs _ => h.tear b ht hs) (h.teardown b hc)
  reopen b := h.lease (h.compositional.raise _) fun u => h.reopen ⟨b, some u⟩
  run b m hm := by
    refine h.lease ?_ fun u => h.of_does (uses_does (cleanupUnderLease_uses S ⟨b, some u⟩ hm))
      (by simp [Kind.bare, Kind.single])
    exact h.compositional.bind (h.of_does (uses_does (manifest_uses S b none))
      (by simp [Kind.bare, Kind.single])) fun _ => h.compositional.ret _
  recordFailure b := h.lease (h.compositional.ret _) fun u => h.recordFailure ⟨b, some u⟩
  failUnprepared b := by
    refine h.lease ?_ fun u =>
      WorkerRuntime.failUnprepared_of ⟨b, some u⟩ (h.failing b _ (by simp))
    exact h.compositional.bind (h.of_does (uses_does (BuildService.getBuild_uses b none))
      (by simp [Kind.bare, Kind.single])) fun _ => h.compositional.ret _
  start b taskId := h.operation fun u =>
    WorkerRuntime.startBody_of S ⟨b, some u⟩
      (h.delivering _ (by simp) (by simp) (by simp) (by simp)) taskId
  poll b attempt taskId := h.operation fun u =>
    WorkerRuntime.pollBody_of S ⟨b, some u⟩
      (h.delivering _ (by simp) (by simp) (by simp) (by simp)) attempt taskId
  dynamic b run := h.operation fun u =>
    WorkerRuntime.dynamicBody_of S ⟨b, some u⟩
      (h.delivering _ (by simp) (by simp) (by simp) (by simp)) run

end Pieces

/-- The single calls, the creation of a build and its failure have the property `G`. -/
structure Blocks (G : {α : Type} → P α → Prop) : Prop where
  compositional : Prog.Compositional (I := api) G
  single : ∀ {b o k op}, Kind.single k = true → Deed b o k op → G (call op)
  create : ∀ {job : BuildId → DateTime → BuildJob} {k : BuildId → P Unit},
    (∀ b now, (job b now).buildId = b ∧ (job b now).New) → (∀ b, G (k b)) →
    G (Prog.bind (call .uuid4) fun b => Prog.bind (call .utcNow) fun now =>
      Prog.bind (call (.createBuild (job b now))) fun _ => k b)
  fail : ∀ b message site, G (BuildService.fail b message site)

namespace Blocks
variable {S} {G : {α : Type} → P α → Prop} (h : Blocks G)
include h

theorem failing (b : BuildId) (o : Option Uuid) {K : List Kind}
    (hk : ∀ k ∈ K, k ≠ .create) : Failing G b o K where
  compositional := h.compositional
  free {k op} hm hf ha hd := by
    refine h.single ?_ hd
    have hc := hk k hm
    cases k <;> first | rfl | contradiction
  fail := h.fail b

theorem of_does {α : Type} {p : P α} {K : List Kind} (hp : p.Uses (Does K))
    (hk : ∀ k ∈ K, k.single = true) : G p :=
  h.compositional.of_uses (fun _ ⟨_, _, k, hm, hd⟩ => h.single (hk k hm) hd) hp

/-- The pieces that tasks are made of. -/
theorem pieces : Pieces S G where
  compositional := h.compositional
  bare hk := h.single ((Bool.and_eq_true _ _).mp hk).1
  create := h.create
  fail := h.fail
  createOrReuse app commit force := h.of_does
    (uses_does (RouteCheckService.createOrReuse_uses ⟨0, 0⟩ none app commit force))
    (by simp [Kind.single])
  reopen tr := h.of_does (uses_does (DynamicCheckService.reopen_uses tr)) (by simp [Kind.single])
  recordFailure tr := DynamicCheckService.recordFailure_of tr (h.failing _ _ (by simp))
    (List.Subset.refl checkKinds)
  execute tr := ((h.failing _ _ (by simp)).checking (List.Subset.refl checkKinds)).execute S
  failDelivery tr := WorkerRuntime.failDelivery_of S (h.failing _ _ (by simp))

/-- **Blocks.**  What sequencing keeps, and holds of the blocks, holds of every task. -/
theorem tasking : Tasking S G := h.pieces.tasking

end Blocks

end Orchestrator
