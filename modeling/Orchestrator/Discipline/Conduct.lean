import Orchestrator.Discipline.Tasking

/-!
# Discipline — sessions, and conduct within them

For one build, a thread is in a session from the grant of a lease until it releases it.  Within
the session it acts in the name of the owner it drew for it, and of no other.

* `Session`, `sessions b`: the monitor.
* `Conduct`: what else a thread has to keep to about a build.  Its stage is whatever the conduct
  has to remember; `Conduct.monitor` watches the session and the stage together.
* `Conduct.Serves`: a body keeps to a conduct within its lease.
* `Conduct.Kept`: the pieces of the tasks do; `Conduct.Kept.disciplined`: then so does every
  task.
* `disciplined_sessions`: every task keeps to its sessions.
-/

namespace Orchestrator
open Interleaving

/-- What a thread has done about the lease of one build: the identifier it drew last, if it has
not used it for a claim, and the lease it holds, as far as it knows. -/
structure Session where
  drawn : Option Uuid := none
  lease : Option (Uuid × List CleanupStatus) := none

namespace Session

def observe (b : BuildId) (s : Session) : (op : Op) → op.Ret → Session
  | .uuid4, u => { s with drawn := some u }
  | .claimBuildLease b' o _ l, r =>
      if b' = b ∧ r.isSome then ⟨none, some (o, l)⟩ else { s with drawn := none }
  | .releaseBuildLease b' _, _ => if b' = b then { s with lease := none } else s
  | _, _ => s

/-- `o` is the owner of the session. -/
def Owner (s : Session) (o : Option Uuid) : Prop := ∃ u l, s.lease = some (u, l) ∧ o = some u

def allows (b : BuildId) (s : Session) : Op → Prop
  | .claimBuildLease b' o _ _ => b' = b → s.drawn = some o ∧ s.lease = none
  | .releaseBuildLease b' o => b' = b → s.Owner (some o)
  | .guard b' o => b' = b → s.Owner o
  | .putBuildResource b' _ o => b' = b → s.Owner o
  | .updateBuildResources b' f e => b' = b → f.leaseExpiresAt.Untouched ∧
      ((∃ o, e.leaseOwner = .eq o ∧ s.Owner o) ∨
        f = undispatchedFields ∧ e.cleanupStatus = .eq .queued)
  | .ensureBuildResources m => m.buildId = b → m.Blank
  | _ => True

end Session

abbrev sessions (b : BuildId) : Monitor api := ⟨Session, {}, Session.allows b, Session.observe b⟩

/-! ### Every task keeps to it -/

/-- The kinds of deeds that leave the lease alone. -/
def Kind.leased : Kind → Bool
  | claim _ | release => false
  | _ => true

/-- A deed within a session on another build, or on this one in the name of its owner. -/
theorem Deed.session {b b' : BuildId} {o : Option Uuid} {k : Kind} {op : Op} {s : Session}
    (h : Deed b' o k op) (hk : k.leased = true) (ho : b' = b → k ∉ unleasedKinds → s.Owner o) :
    s.allows b op ∧ ∀ r, (s.observe b op r).lease = s.lease := by
  cases h with
  | quiet hq => cases op <;> first | exact ⟨trivial, fun _ => rfl⟩ | cases hq
  | claim | release => cases hk
  | guard | put => exact ⟨fun e => ho e (by simp), fun _ => rfl⟩
  | pending | accept | running | abandon =>
      exact ⟨fun e => ⟨trivial, .inl ⟨o, rfl, ho e (by simp)⟩⟩, fun _ => rfl⟩
  | conclude hf => exact ⟨fun e => ⟨hf.leaseExpiresAt, .inl ⟨o, rfl, ho e (by simp)⟩⟩, fun _ => rfl⟩
  | undispatch g => exact ⟨fun _ => ⟨trivial, .inr ⟨rfl, rfl⟩⟩, fun _ => rfl⟩
  | legacy hb hv hm | insert hb hv hm => exact ⟨fun _ => hm, fun _ => rfl⟩
  | _ => exact ⟨trivial, fun _ => rfl⟩

/-- The statuses leases are claimed on. -/
abbrev leaseLists : List (List CleanupStatus) :=
  [[.notStarted], [.notStarted, .partialFailed], [.queued, .running]]

/-- The kinds of deeds that are done under a lease. -/
def Kind.inBody : Kind → Bool
  | claim _ | release | undispatch | tear | create | insert | ensureRow | takeRow | resultRow
  | resetRow | deleteRow => false
  | _ => true

theorem Kind.leased_of_inBody {k : Kind} (h : k.inBody = true) : k.leased = true := by
  cases k <;> first | rfl | cases h

/-! ### Conduct -/

/-- What a thread has to keep to about one build: the calls a stage allows, and the stage they
lead to. -/
structure Conduct where
  Stage : Type
  fresh : Stage
  allows : Session → Stage → Op → Prop
  observe : Session → Stage → (op : Op) → op.Ret → Stage

namespace Conduct
variable (C : Conduct) (b : BuildId)

/-- Sessions and stages, watched together. -/
abbrev monitor : Monitor api where
  View := Session × C.Stage
  init := ({}, C.fresh)
  allows v op := v.1.allows b op ∧ C.allows v.1 v.2 op
  observe v op r := (v.1.observe b op r, C.observe v.1 v.2 op r)

/-- Between its sessions, a thread keeps to the conduct and comes back from them. -/
abbrev Idles {α : Type} (p : P α) : Prop := p.Keeps (C.monitor b) (·.1.lease = none)

/-- In the session of `u` on the statuses `l`, from a stage at which `J` holds. -/
abbrev Within (u : Uuid) (l : List CleanupStatus) (J : C.Stage → Prop) (v : Session × C.Stage) :
    Prop := v.1.lease = some (u, l) ∧ J v.2

/-- The stages a grant of the lease leads to. -/
def Granted (u : Uuid) (l : List CleanupStatus) (x : C.Stage) : Prop :=
  ∃ s x₀ e m, m.buildId = b ∧ x = C.observe s x₀ (.claimBuildLease b u e l) (some m)

/-- The body of a lease keeps to the conduct, and does not end the session. -/
def Serves {α : Type} (l : List CleanupStatus) (body : Option ResourceTracker → P α) : Prop :=
  ∀ u v, C.Within u l (C.Granted b u l) v → (body (some ⟨b, some u⟩)).Obeys (C.monitor b)
    (fun _ v' => v'.1.lease = some (u, l)) v

/-- What is asked of a thread is about its deeds on `b`, and not about leases as such. -/
structure Lax : Prop where
  quiet : ∀ {s x op}, op.quiet = true → C.allows s x op
  foreign : ∀ {s x b' o k op}, b' ≠ b → k.inBody = true → Deed b' o k op → C.allows s x op
  claim : ∀ {s x b' u e l}, l ∈ leaseLists → s.lease = none ∨ b' ≠ b →
    C.allows s x (.claimBuildLease b' u e l)
  release : ∀ {s x b' u}, C.allows s x (.releaseBuildLease b' u)

variable {C b}

theorem idles_compositional : Prog.Compositional (I := api) (fun {_} p => C.Idles b p) :=
  Prog.keeps_compositional _

/-- What the sessions allow, and the conduct allows between them. -/
theorem idles_of_allows {op : Op} {o : Option Uuid} {b' : BuildId} {k : Kind}
    (hd : Deed b' o k op) (hk : k ∈ unleasedKinds)
    (h : ∀ s x, s.lease = none → C.allows s x op) : C.Idles b (call op) := by
  intro v hv
  have hl : k.leased = true := by
    revert hk
    cases k <;> simp [Kind.leased]
  obtain ⟨ha, ho⟩ := hd.session (b := b) (s := v.1) hl fun _ hn => absurd hk hn
  exact ⟨⟨ha, h _ _ hv⟩, fun r _ => (ho r).trans hv⟩

/-- A program whose deeds on `b` are all allowed at, and keep, `J`, keeps it within a session. -/
theorem keeps_of_uses {α : Type} {u : Uuid} {l : List CleanupStatus} {p : P α} {ks : List Kind}
    {J : C.Stage → Prop} (hks : ∀ k ∈ ks, k.inBody = true) (huses : p.Uses (Doing b (some u) ks))
    (hstep : ∀ s x k op, k ∈ ks → Deed b (some u) k op → s.lease = some (u, l) → J x →
      C.allows s x op ∧ ∀ r, Op.Sane op r → J (C.observe s x op r)) :
    p.Keeps (C.monitor b) (C.Within u l J) := by
  refine huses.keeps fun v op hv hop => ?_
  obtain ⟨k, hk, hd⟩ := hop
  obtain ⟨ha, ho⟩ := hd.session (b := b) (s := v.1) (Kind.leased_of_inBody (hks k hk))
    fun _ _ => ⟨u, l, hv.1, rfl⟩
  obtain ⟨hc, hJ⟩ := hstep v.1 v.2 k op hk hd hv.1 hv.2
  exact ⟨⟨ha, hc⟩, fun r hr => ⟨(ho r).trans hv.1, hJ r hr⟩⟩

/-- A body whose deeds are all allowed at, and keep, `J` serves. -/
theorem serves_of_uses {α : Type} {l : List CleanupStatus}
    {body : Option ResourceTracker → P α} {ks : List Kind} (J : C.Stage → Prop)
    (hks : ∀ k ∈ ks, k.inBody = true)
    (huses : ∀ u, (body (some ⟨b, some u⟩)).Uses (Doing b (some u) ks))
    (hJ : ∀ u x, C.Granted b u l x → J x)
    (hstep : ∀ s x u k op, k ∈ ks → Deed b (some u) k op → s.lease = some (u, l) → J x →
      C.allows s x op ∧ ∀ r, Op.Sane op r → J (C.observe s x op r)) : C.Serves b l body := by
  intro u v hv
  have hkeeps := keeps_of_uses (C := C) (l := l) hks (huses u) fun s x k => hstep s x u k
  exact (hkeeps v ⟨hv.1, hJ u v.2 hv.2⟩).mono fun _ _ h => h.1

/-- **Leases are sessions.**  A lease whose body serves comes back idle. -/
theorem buildLease_idles {α : Type} {b' : BuildId} {l : List CleanupStatus}
    {body : Option ResourceTracker → P α} {ks : List Kind} (hC : C.Lax b) (hl : l ∈ leaseLists)
    (hks : ∀ k ∈ ks, k.inBody = true) (hnone : C.Idles b (body none))
    (huses : ∀ u, (body (some ⟨b', some u⟩)).Uses (Doing b' (some u) ks))
    (hserves : b' = b → C.Serves b l body) : C.Idles b (buildLease b' l body) := by
  intro v hv
  rw [obeys_buildLease]
  refine ⟨⟨trivial, hC.quiet rfl⟩, fun u => ⟨⟨trivial, hC.quiet rfl⟩, fun now => ?_⟩⟩
  refine ⟨⟨fun _ => ⟨rfl, hv⟩, hC.claim hl (.inl hv)⟩, ?_, fun m hm => ?_⟩
  · exact hnone _ (by simpa [Session.observe] using hv)
  by_cases e : b' = b
  · subst e
    refine (hserves rfl u _ ⟨?_, _, _, _, m, hm, rfl⟩).mono fun r v' hv' => ?_
    · simp [Session.observe]
    · exact ⟨⟨fun _ => ⟨u, l, hv', rfl⟩, hC.release⟩, by simp [Session.observe]⟩
  -- Work on another build is none of the session's business.
  · have hkeeps : (body (some ⟨b', some u⟩)).Keeps (C.monitor b) (·.1.lease = none) := by
      refine (huses u).keeps fun v op hv hop => ?_
      obtain ⟨k, hk, hd⟩ := hop
      obtain ⟨ha, ho⟩ := hd.session (b := b) (s := v.1) (Kind.leased_of_inBody (hks k hk))
        fun h => absurd h e
      exact ⟨⟨ha, hC.foreign e (hks k hk) hd⟩, fun r _ => (ho r).trans hv⟩
    refine (hkeeps _ ?_).mono fun r v' hv' => ?_
    · simpa [Session.observe, e] using hv
    · exact ⟨⟨fun h => absurd h e, hC.release⟩, by simpa [Session.observe, e] using hv'⟩

variable (C b) in
/-- The pieces of the tasks keep to the conduct. -/
structure Kept (S : Settings) : Prop where
  lax : C.Lax b
  free : ∀ {s x op}, Does freeKinds op → s.lease = none → C.allows s x op
  createOrReuse : ∀ app commit force,
    C.Idles b (RouteCheckService.createOrReuse app commit force)
  queue : ∀ appid gitRef, C.Idles b (BuildService.queueBuild S appid gitRef)
  request : ∀ b' dispatch, C.Idles b (requestCleanup S b' dispatch)
  sync : ∀ b', C.Idles b (DynamicCheckService.syncTeardown b')
  teardown : ∀ b' {cleanup : P Unit}, C.Idles b cleanup →
    C.Idles b (DynamicCheckService.teardown S b' cleanup)
  teardownIfRequired : ∀ b', C.Idles b (WorkerRuntime.cleanupBuild S b') →
    C.Idles b (WorkerRuntime.teardownIfRequired S b')
  reopen : C.Serves b [.notStarted] (DynamicCheckService.reopen b)
  run : ∀ m, m.buildId = b → C.Serves b [.queued, .running] (cleanupUnderLease S b m)
  recordFailure : C.Serves b [.notStarted, .partialFailed] (DynamicCheckService.recordFailure b)
  failUnprepared : C.Serves b [.notStarted] (WorkerRuntime.failUnprepared b)
  start : ∀ taskId, C.Serves b [.notStarted] (WorkerRuntime.underLease b
    (WorkerRuntime.startBody S b taskId))
  poll : ∀ attempt taskId, C.Serves b [.notStarted] (WorkerRuntime.underLease b
    (WorkerRuntime.pollBody S b attempt taskId))
  dynamic : ∀ run, C.Serves b [.notStarted] (WorkerRuntime.underLease b
    (WorkerRuntime.dynamicBody S b run))

namespace Kept
variable {S : Settings} (h : C.Kept b S)
include h

theorem of_free {α : Type} {p : P α} {b' : BuildId} {o : Option Uuid} {ks : List Kind}
    (hp : p.Uses (Doing b' o ks)) (hk : ks ⊆ freeKinds) : C.Idles b p := by
  refine of_doing idles_compositional (fun op hop => ?_) hp hk
  obtain ⟨b', o, k, hk, hd⟩ := hop
  exact idles_of_allows hd (by simp [hk]) fun s x hs => h.free ⟨b', o, k, hk, hd⟩ hs

theorem getBuild (b' : BuildId) : C.Idles b (BuildService.getBuild b') :=
  h.of_free (BuildService.getBuild_uses b' none) (by simp)

theorem manifest (b' : BuildId) : C.Idles b (Orchestrator.manifest S b') :=
  h.of_free (manifest_uses S b' none) (by simp)

theorem operation {b' : BuildId} {f : ResourceTracker → P Unit} {ks : List Kind}
    (hks : ∀ k ∈ ks, k.inBody = true) (hq : .quiet ∈ ks) (hg : .guard ∈ ks)
    (hf : ∀ u, (f ⟨b', some u⟩).Uses (Doing b' (some u) ks))
    (hs : b' = b → C.Serves b [.notStarted] (WorkerRuntime.underLease b f)) :
    C.Idles b (buildLease b' [.notStarted] (WorkerRuntime.underLease b' f)) := by
  refine buildLease_idles h.lax (by simp) hks ?_
    (fun u => WorkerRuntime.underLease_uses ⟨b', some u⟩ (hf u) hq hg) fun e => e ▸ hs e
  exact idles_compositional.bind (h.getBuild b') fun _ => idles_compositional.ret ()

theorem tasking : Tasking S (fun {_} p => C.Idles b p) where
  compositional := idles_compositional
  free op hop := by
    obtain ⟨b', o, hd⟩ := hop
    exact h.of_free (uses_one hd) fun _ hk => hk
  createOrReuse := h.createOrReuse
  queue := h.queue
  request := h.request
  sync := h.sync
  teardown := h.teardown
  teardownIfRequired := h.teardownIfRequired
  reopen b' := buildLease_idles h.lax (by simp) (by simp [Kind.inBody])
    (idles_compositional.raise _) (fun u => DynamicCheckService.reopen_uses ⟨b', some u⟩)
    fun e => e ▸ h.reopen
  run b' m hm := by
    refine buildLease_idles h.lax (by simp) (by simp [Kind.inBody]) ?_
      (fun u => cleanupUnderLease_uses S ⟨b', some u⟩ hm) fun e => ?_
    · exact idles_compositional.bind (h.manifest b') fun _ => idles_compositional.ret ()
    · subst e; exact h.run m hm
  recordFailure b' := buildLease_idles h.lax (by simp) (by simp [Kind.inBody])
    (idles_compositional.ret _) (fun u => DynamicCheckService.recordFailure_uses ⟨b', some u⟩)
    fun e => e ▸ h.recordFailure
  failUnprepared b' := by
    refine buildLease_idles h.lax (by simp) (by simp [Kind.inBody]) ?_
      (fun u => WorkerRuntime.failUnprepared_uses ⟨b', some u⟩) fun e => e ▸ h.failUnprepared
    exact idles_compositional.bind (h.getBuild b') fun _ => idles_compositional.ret ()
  start b' taskId := by
    refine h.operation (by simp [Kind.inBody]) (by simp) (by simp)
      (fun u => WorkerRuntime.startBody_uses S ⟨b', some u⟩ taskId) fun e => ?_
    subst e; exact h.start taskId
  poll b' n taskId := by
    refine h.operation (by simp [Kind.inBody]) (by simp) (by simp)
      (fun u => WorkerRuntime.pollBody_uses S ⟨b', some u⟩ n taskId) fun e => ?_
    subst e; exact h.poll n taskId
  dynamic b' run := by
    refine h.operation (by simp [Kind.inBody]) (by simp) (by simp)
      (fun u => WorkerRuntime.dynamicBody_uses S ⟨b', some u⟩ run) fun e => ?_
    subst e; exact h.dynamic run

/-- **Conduct.**  Every task keeps to it. -/
theorem disciplined : Disciplined (orchestrator S) (C.monitor b) :=
  fun T => (h.tasking.body T (C.monitor b).init rfl).mono fun _ _ _ => trivial

end Kept

/-! ### The functions that write without a lease -/

/-- Calls of kinds that need no lease and that the conduct allows between sessions. -/
theorem idles_does {ks : List Kind} (hk : ks ⊆ unleasedKinds)
    (allow : ∀ {s x op}, Does ks op → s.lease = none → C.allows s x op) (op : Op)
    (hop : Does ks op) : C.Idles b (call op) := by
  obtain ⟨b', o, k, hks, hd⟩ := hop
  exact idles_of_allows hd (hk hks) fun s x hs => allow ⟨b', o, k, hks, hd⟩ hs

section
variable {S : Settings} {K : List Kind} (hK : K ⊆ unleasedKinds)
    (allow : ∀ {s x op}, Does K op → s.lease = none → C.allows s x op)
include hK allow

theorem idles_lesser {ks : List Kind} (hk : ks ⊆ K) (op : Op) (hop : Does ks op) :
    C.Idles b (call op) :=
  idles_does (List.Subset.trans hk hK) (fun hop => allow (hop.mono hk)) op hop

theorem createOrReuse_idles (hk : [.quiet, .row, .ensureRow, .resetRow] ⊆ K)
    (app : UserAppRecord) (commit : String) (force : Bool) :
    C.Idles b (RouteCheckService.createOrReuse app commit force) :=
  of_doing idles_compositional (idles_lesser hK allow hk)
    (RouteCheckService.createOrReuse_uses ⟨0, 0⟩ none app commit force) (by simp)

theorem sync_idles (hk : [.quiet, .tear] ⊆ K) (b' : BuildId) :
    C.Idles b (DynamicCheckService.syncTeardown b') :=
  of_doing idles_compositional (idles_lesser hK allow hk)
    (DynamicCheckService.syncTeardown_uses b' none) (by simp)

theorem teardown_idles (hk : [.quiet, .tear] ⊆ K)
    (request : ∀ b' dispatch, C.Idles b (requestCleanup S b' dispatch)) (b' : BuildId)
    {cleanup : P Unit} (hc : C.Idles b cleanup) :
    C.Idles b (DynamicCheckService.teardown S b' cleanup) :=
  have free := idles_lesser (C := C) (b := b) hK allow hk
  DynamicCheckService.teardown_of S idles_compositional (fun op hop => free op (hop.mono (by simp)))
    (fun h hs _ => free _ ⟨b', none, .of (.tear h hs)⟩) (sync_idles hK allow hk b')
    (request b' false) hc

theorem teardownIfRequired_idles (hk : [.quiet, .tear] ⊆ K)
    (request : ∀ b' dispatch, C.Idles b (requestCleanup S b' dispatch)) (b' : BuildId)
    (hc : C.Idles b (WorkerRuntime.cleanupBuild S b')) :
    C.Idles b (WorkerRuntime.teardownIfRequired S b') :=
  have free := idles_lesser (C := C) (b := b) hK allow hk
  WorkerRuntime.teardownIfRequired_of S idles_compositional
    (fun op hop => free op (hop.mono (by simp)))
    (fun h hs _ => free _ ⟨b', none, .of (.tear h hs)⟩) (teardown_idles hK allow hk request b' hc)

theorem queue_idles (hk : [.quiet, .create, .insert, .plain, .fail, .alert] ⊆ K) (hC : C.Lax b)
    (prepare : ∀ appid, C.Serves b [.notStarted] (BuildService.prepareInputs S appid b))
    (appid : String) (gitRef : Option String) :
    C.Idles b (BuildService.queueBuild S appid gitRef) := by
  have free := idles_lesser (C := C) (b := b) hK allow hk
  refine BuildService.queueBuild_of S idles_compositional
    (fun op hop => free op (hop.mono (by simp))) (fun hj hk => ?_) (fun b' message site => ?_)
    (fun appid b' => ?_) appid gitRef
  · have hG := idles_compositional (C := C) (b := b)
    refine hG.bind (free _ ⟨⟨0, 0⟩, none, .of (.quiet rfl)⟩) fun b' => ?_
    refine hG.bind (free _ ⟨b', none, .of (.quiet rfl)⟩) fun now => ?_
    exact hG.bind (free _ ⟨b', none, .of (.create (hj b' now).1 (hj b' now).2)⟩) fun _ => hk b'
  · exact of_doing idles_compositional free (BuildService.fail_uses b' none message site) (by simp)
  exact buildLease_idles hC (by simp) (by simp [Kind.inBody]) (idles_compositional.raise _)
    (fun u => BuildService.prepareInputs_uses S ⟨b', some u⟩ appid) fun e => e ▸ prepare appid

theorem request_idles (hk : [.quiet, .legacy, .undispatch] ⊆ K) (hC : C.Lax b)
    (b' : BuildId)
    (accept : b' = b → C.Serves b [.notStarted, .partialFailed] (acceptCleanup S b))
    (dispatch : Bool) : C.Idles b (requestCleanup S b' dispatch) := by
  have free := idles_lesser (C := C) (b := b) hK allow hk
  have hG := idles_compositional (C := C) (b := b)
  refine requestCleanup_of S hG free (hG.bind ?_ fun _ => ?_) dispatch
  · exact of_doing hG free (assertQuiescent_uses b' none) (by simp)
  refine buildLease_idles hC (by simp) (by simp [Kind.inBody]) ?_
    (fun u => acceptCleanup_uses S ⟨b', some u⟩) fun e => ?_
  · refine idles_compositional.bind ?_ fun m => ?_
    · exact of_doing idles_compositional free (manifest_uses S b' none) (by simp)
    · cases m.cleanupStatus <;> first
        | exact idles_compositional.ret _ | exact idles_compositional.raise _
  · subst e; exact accept rfl

end

/-! ### Sessions alone -/

/-- Nothing is asked for but sessions. -/
def plain : Conduct := ⟨Unit, (), fun _ _ _ => True, fun _ _ _ _ => ()⟩

theorem plain_serves {α : Type} {l : List CleanupStatus}
    {body : Option ResourceTracker → P α} {ks : List Kind} (hks : ∀ k ∈ ks, k.inBody = true)
    (huses : ∀ u, (body (some ⟨b, some u⟩)).Uses (Doing b (some u) ks)) :
    plain.Serves b l body :=
  serves_of_uses (fun _ => True) hks huses (fun _ _ _ => trivial)
    fun _ _ _ _ _ _ _ _ _ => ⟨trivial, fun _ _ => trivial⟩

theorem plain_kept (S : Settings) (b : BuildId) : plain.Kept b S := by
  have lax : plain.Lax b := ⟨fun _ => trivial, fun _ _ _ => trivial, fun _ _ => trivial, trivial⟩
  have allow {s x op} (_ : Does unleasedKinds op) (_ : s.lease = none) :
      plain.allows s x op := trivial
  have request (b' : BuildId) := request_idles (S := S) (fun _ h => h) allow (by simp) lax b'
    fun _ => plain_serves (by simp [Kind.inBody]) fun u => acceptCleanup_uses S ⟨b, some u⟩
  exact
    { lax
      free := fun _ _ => trivial
      createOrReuse := createOrReuse_idles (fun _ h => h) allow (by simp)
      queue := queue_idles (fun _ h => h) allow (by simp) lax fun appid =>
        plain_serves (by simp [Kind.inBody]) fun u =>
          BuildService.prepareInputs_uses S ⟨b, some u⟩ appid
      request
      sync := sync_idles (fun _ h => h) allow (by simp)
      teardown := teardown_idles (fun _ h => h) allow (by simp) request
      teardownIfRequired := teardownIfRequired_idles (fun _ h => h) allow (by simp) request
      reopen := plain_serves (by simp [Kind.inBody]) fun u =>
        DynamicCheckService.reopen_uses ⟨b, some u⟩
      run := fun m hm => plain_serves (by simp [Kind.inBody]) fun u =>
        cleanupUnderLease_uses S ⟨b, some u⟩ hm
      recordFailure := plain_serves (by simp [Kind.inBody]) fun u =>
        DynamicCheckService.recordFailure_uses ⟨b, some u⟩
      failUnprepared := plain_serves (by simp [Kind.inBody]) fun u =>
        WorkerRuntime.failUnprepared_uses ⟨b, some u⟩
      start := fun taskId => plain_serves (by simp [Kind.inBody]) fun u =>
        WorkerRuntime.underLease_uses ⟨b, some u⟩
          (WorkerRuntime.startBody_uses S ⟨b, some u⟩ taskId) (by simp) (by simp)
      poll := fun n taskId => plain_serves (by simp [Kind.inBody]) fun u =>
        WorkerRuntime.underLease_uses ⟨b, some u⟩
          (WorkerRuntime.pollBody_uses S ⟨b, some u⟩ n taskId) (by simp) (by simp)
      dynamic := fun run => plain_serves (by simp [Kind.inBody]) fun u =>
        WorkerRuntime.underLease_uses ⟨b, some u⟩
          (WorkerRuntime.dynamicBody_uses S ⟨b, some u⟩ run) (by simp) (by simp) }

/-- Who keeps to a conduct keeps to the sessions. -/
theorem obeys_sessions {α : Type} {p : P α} {Q : Except Exc α → Session × C.Stage → Prop}
    {v : Session × C.Stage} (h : p.Obeys (C.monitor b) Q v) :
    p.Obeys (sessions b) (fun r s => ∃ x, Q r (s, x)) v.1 := by
  induction p generalizing v with
  | ret a => exact ⟨v.2, h⟩
  | raise e => exact ⟨v.2, h⟩
  | call op k ih => exact ⟨h.1.1, fun r hr => ih r (h.2 r hr)⟩

end Conduct

theorem disciplined_sessions (S : Settings) (b : BuildId) :
    Disciplined (orchestrator S) (sessions b) := fun T =>
  (Conduct.obeys_sessions ((Conduct.plain_kept S b).disciplined T)).mono fun _ _ _ => trivial

section
variable {S : Settings} (C : Conduct) (b : BuildId)

/-- The session of thread `t` about `b`, by the log. -/
abbrev session (b : BuildId) (t : Nat) (l : List (Event (orchestrator S))) : Session :=
  viewOf (sessions b) t l

/-- The stage of thread `t` in its conduct about `b`, by the log. -/
abbrev Conduct.stage (t : Nat) (l : List (Event (orchestrator S))) : C.Stage :=
  (viewOf (C.monitor b) t l).2

@[simp] theorem Conduct.viewOf_fst (t : Nat) (l : List (Event (orchestrator S))) :
    (viewOf (C.monitor b) t l).1 = session b t l := by
  induction l with
  | nil => rfl
  | cons e l ih =>
      cases e with
      | call t' op r =>
          by_cases h : t' = t
          · subst h; simp [ih]
          · simpa [viewOf_call_other h] using ih
      | start t' T => exact ih
      | env x => exact ih

variable {C b}

theorem Conduct.stage_call_self (t : Nat) (op : Op) (r : op.Ret)
    (l : List (Event (orchestrator S))) : C.stage b t (.call t op r :: l) =
      C.observe (session b t l) (C.stage b t l) op r := by
  simp [stage]

theorem Conduct.stage_call_other {t t' : Nat} (h : t' ≠ t) (op : Op) (r : op.Ret)
    (l : List (Event (orchestrator S))) :
    C.stage b t (.call t' op r :: l) = C.stage b t l := by
  simp [stage, viewOf_call_other h]

end

end Orchestrator
