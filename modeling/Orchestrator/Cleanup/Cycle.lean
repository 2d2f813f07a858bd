import Orchestrator.Discipline.Sessions

/-!
# Cleanup — the cycle of a session

How far a session has come with a cleanup, and which writes of the manifest that leaves it.

* `Cycle`, `cleaning b`: accepting a request needs a manifest read under the lease and a build
  that was seen finished; a runner switches to `RUNNING` once, concludes once, and registers no
  resource afterwards.
* `cleaning_kept`: every task keeps to it.
-/

namespace Orchestrator
open Interleaving

inductive Phase where
  | fresh | accepted | running | concluded
  deriving DecidableEq, Repr

/-- What a thread has done about the cleanup of one build: the phase of its session, the manifest
it read last in that session, and whether it ever saw the build finished. -/
structure Cycle where
  phase : Phase := .fresh
  read : Option BuildResources := none
  finished : Bool := false

/-- The phase after a write of the manifest. -/
def Phase.after (p : Phase) (f : ResourceFields) : Phase :=
  match f.cleanupStatus with
  | .set .queued => .accepted
  | .set .running => .running
  | .set .succeeded | .set .partialFailed => .concluded
  | .set .notStarted | .keep => p

namespace Cycle

def observe (b : BuildId) (x : Cycle) : (op : Op) → op.Ret → Cycle
  | .claimBuildLease b' _ _ _, r =>
      if b' = b ∧ r.isSome then { x with phase := .fresh, read := none } else x
  | .getBuildResources b', r => if b' = b then { x with read := r.or x.read } else x
  | .ensureBuildResources m, r =>
      if m.buildId = b then { x with read := r.toOption.or x.read } else x
  | .updateBuildResources b' f _, _ => if b' = b then { x with phase := x.phase.after f } else x
  | .getBuild b', r =>
      if b' = b ∧ r.any (·.status.terminal) then { x with finished := true } else x
  | _, _ => x

/-- The writes of the manifest that are left to a session. -/
inductive Write (s : Session) (x : Cycle) : ResourceFields → ResourceExpectation → Prop where
  | pending (p : Bool) (o : Option Uuid) :
      Write s x { jenkinsTriggerPending := .set p } { leaseOwner := .eq o }
  | accept {o : Uuid} {current : BuildResources}
      (hs : s.lease = some (o, [.notStarted, .partialFailed])) (hp : x.phase = .fresh)
      (hr : x.read = some current) (hf : x.finished = true) :
      Write s x (queuedFields current)
        { leaseOwner := .eq (some o), cleanupStatus := .eq current.cleanupStatus }
  | undispatch (generation : Nat) : Write s x undispatchedFields
      { cleanupStatus := .eq .queued, cleanupGeneration := .eq generation }
  | running {o : Uuid} (hs : s.lease = some (o, [.queued, .running])) (hp : x.phase = .fresh) :
      Write s x { cleanupStatus := .set .running, lastError := .set none }
        { leaseOwner := .eq (some o) }
  | abandon {o : Uuid} (hs : s.lease = some (o, [.queued, .running])) (hp : x.phase = .running)
      (err : Exc) : Write s x (abandonedFields err) { leaseOwner := .eq (some o) }
  | conclude {o : Uuid} {f : ResourceFields} (hs : s.lease = some (o, [.queued, .running]))
      (hp : x.phase = .running) (hf : f.Concluding) :
      Write s x f { leaseOwner := .eq (some o), cleanupStatus := .eq .running }

def allows (b : BuildId) (s : Session) (x : Cycle) : Op → Prop
  | .updateBuildResources b' f e => b' = b → Write s x f e
  | .putBuildResource b' _ _ => b' = b → x.phase ≠ .concluded
  | .claimBuildLease b' _ _ l => b' = b → l ∈ leaseLists
  | _ => True

end Cycle

/-- The conduct of a cleanup. -/
abbrev cleaning (b : BuildId) : Conduct :=
  ⟨Cycle, {}, Cycle.allows b, fun _ x => Cycle.observe b x⟩

/-! ### Every task keeps to it -/

section
variable {b : BuildId} {s : Session} {x : Cycle}

theorem Cycle.allows_quiet {op : Op} (h : op.quiet = true) : x.allows b s op := by
  cases op <;> first | exact trivial | cases h

/-- A write of the manifest aside, a phase lasts for the session. -/
theorem Cycle.observe_phase {op : Op} {r : op.Ret} (hc : ∀ o e l, op ≠ .claimBuildLease b o e l)
    (hu : ∀ f e, op ≠ .updateBuildResources b f e) : (x.observe b op r).phase = x.phase := by
  cases op with
  | claimBuildLease b' o e l =>
      have hb : b' ≠ b := fun h => hc o e l (h ▸ rfl)
      simp [observe, hb]
  | updateBuildResources b' f e =>
      have hb : b' ≠ b := fun h => hu f e (h ▸ rfl)
      simp [observe, hb]
  | getBuildResources _ | ensureBuildResources _ | getBuild _ =>
      simp only [observe]
      split_ifs <;> rfl
  | _ => rfl

/-- What was seen once has been seen. -/
theorem Cycle.observe_finished {op : Op} {r : op.Ret} (h : x.finished = true) :
    (x.observe b op r).finished = true := by
  cases op with
  | claimBuildLease _ _ _ _ | updateBuildResources _ _ _ | getBuildResources _ | ensureBuildResources _
  | getBuild _ =>
      simp only [observe]
      split_ifs <;> first | exact h | rfl
  | _ => exact h

theorem cleaning_lax : (cleaning b).Lax b where
  quiet := Cycle.allows_quiet
  foreign hne _ hd := by
    cases hd with
    | quiet hq => exact Cycle.allows_quiet hq
    | _ => first | exact trivial | exact fun e => absurd e hne
  claim hl _ := fun _ => hl
  release := trivial

theorem cleaning_unleased {op : Op} (h : Does unleasedKinds op) : x.allows b s op := by
  obtain ⟨b', o, k, hk, hd⟩ := h
  cases hd with
  | quiet hq => exact Cycle.allows_quiet hq
  | undispatch g => exact fun _ => .undispatch g
  | _ => first | exact trivial | simp at hk

/-- The kinds of deeds that leave the cleanup where it is. -/
def Kind.calm : Kind → Bool
  | accept | running | conclude | undispatch => false
  | k => k.inBody

/-- A session starts afresh. -/
theorem Cycle.fresh_of_granted {u : Uuid} {l : List CleanupStatus} {x : Cycle}
    (h : (cleaning b).Granted b u l x) : x.phase = .fresh ∧ x.read = none := by
  obtain ⟨s, x₀, e, m, -, rfl⟩ := h
  simp [Cycle.observe]

/-- Calm deeds are allowed until the cleanup is concluded, and leave the phase. -/
theorem Deed.calm {u : Uuid} {k : Kind} {op : Op} (hd : Deed b (some u) k op)
    (hk : k.calm = true) (hp : x.phase ≠ .concluded) :
    x.allows b s op ∧ ∀ r, (x.observe b op r).phase = x.phase := by
  cases hd with
  | quiet hq =>
      refine ⟨Cycle.allows_quiet hq, fun r => Cycle.observe_phase ?_ ?_⟩
      · rintro o e l rfl; cases hq
      · rintro f e rfl; cases hq
  | pending p => exact ⟨fun _ => .pending p _, fun r => by simp [Cycle.observe, Phase.after]⟩
  | put y => exact ⟨fun _ => hp, fun _ => rfl⟩
  | accept | running | abandon | conclude | undispatch | claim | release => cases hk
  | _ => exact ⟨trivial, fun r => Cycle.observe_phase (by simp) (by simp)⟩

theorem cleaning_calm {α : Type} {u : Uuid} {l : List CleanupStatus} {p : P α} {ks : List Kind}
    {J : Phase → Prop} (hJ : ∀ q, J q → q ≠ .concluded) (hks : ∀ k ∈ ks, k.calm = true)
    (huses : p.Uses (Doing b (some u) ks)) :
    p.Keeps ((cleaning b).monitor b) ((cleaning b).Within u l fun x => J x.phase) := by
  have inBody {k : Kind} (h : k.calm = true) : k.inBody = true := by
    cases k <;> first | rfl | cases h
  refine Conduct.keeps_of_uses (C := cleaning b) (fun k hk => inBody (hks k hk)) huses ?_
  intro s x k op hk hd hs hx
  obtain ⟨ha, ho⟩ := hd.calm (s := s) (hks k hk) (hJ _ hx)
  exact ⟨ha, fun r _ => by rw [ho r]; exact hx⟩

theorem cleaning_serves {α : Type} {l : List CleanupStatus}
    {body : Option ResourceTracker → P α} {ks : List Kind} (hks : ∀ k ∈ ks, k.calm = true)
    (huses : ∀ u, (body (some ⟨b, some u⟩)).Uses (Doing b (some u) ks)) :
    (cleaning b).Serves b l body := by
  intro u v hv
  refine (cleaning_calm (l := l) (J := (· = .fresh)) (by simp) hks (huses u) v
    ⟨hv.1, (Cycle.fresh_of_granted hv.2).1⟩).mono fun _ _ h => h.1

/-- A manifest that was asked for was read. -/
theorem manifest_reads (S : Settings) {v : Session × Cycle} :
    (manifest S b).Obeys ((cleaning b).monitor b) (fun r v' => v'.1.lease = v.1.lease ∧
      v'.2.phase = v.2.phase ∧ (v.2.finished = true → v'.2.finished = true) ∧
      ∀ m, r = .ok m → v'.2.read = some m) v := by
  have kept {x : Cycle} (op : Op) (r : op.Ret) (hc : ∀ o e l, op ≠ .claimBuildLease b o e l)
      (hu : ∀ f e, op ≠ .updateBuildResources b f e)
      (hx : x.phase = v.2.phase ∧ (v.2.finished = true → x.finished = true)) :
      (x.observe b op r).phase = v.2.phase ∧
        (v.2.finished = true → (x.observe b op r).finished = true) :=
    ⟨(Cycle.observe_phase hc hu).trans hx.1, fun h => Cycle.observe_finished (hx.2 h)⟩
  have build (r : Option BuildJob) := kept (.getBuild b) r (by simp) (by simp) ⟨rfl, id⟩
  simp only [manifest, Prog.bind_eq, Prog.obeys_bind]
  refine ⟨⟨trivial, trivial⟩, fun r hr => ?_⟩
  cases r with
  | none => exact ⟨rfl, (build none).1, (build none).2, by rintro _ ⟨⟩⟩
  | some j =>
      refine ⟨⟨trivial, trivial⟩, fun m hm => ?_⟩
      cases m with
      | some m =>
          have hx := kept (.getBuildResources b) (some m) (by simp) (by simp) (build (some j))
          exact ⟨rfl, hx.1, hx.2, by rintro _ ⟨⟩; simp [Cycle.observe]⟩
      | none =>
          simp only [Prog.obeys_bind, orRaise]
          refine ⟨⟨trivial, trivial⟩, fun services _ => ⟨⟨trivial, trivial⟩, fun images _ =>
            ⟨⟨fun _ => legacyManifest_blank S j services images, trivial⟩, fun r _ => ?_⟩⟩⟩
          have hb : (legacyManifest S j services images).buildId = b := hr j rfl
          simp only [Prog.ret_bind, Prog.obeys_ofExcept]
          have hx := kept (.ensureBuildResources (legacyManifest S j services images)) r
            (by simp) (by simp) (kept (.getBuildResources b) none (by simp) (by simp)
              (build (some j)))
          exact ⟨rfl, hx.1, hx.2, by rintro m rfl; simp [Cycle.observe, hb, Except.toOption]⟩

/-- Under its lease, a request that saw the build finished may be accepted. -/
theorem acceptCleanup_obeys (S : Settings) {u : Uuid} {v : Session × Cycle}
    (hv : v.1.lease = some (u, [.notStarted, .partialFailed])) (hp : v.2.phase = .fresh)
    (hf : v.2.finished = true) :
    (acceptCleanup S b (some ⟨b, some u⟩)).Obeys ((cleaning b).monitor b)
      (fun _ v' => v'.1.lease = some (u, [.notStarted, .partialFailed])) v := by
  simp only [acceptCleanup, Prog.bind_eq, Prog.obeys_bind]
  refine (manifest_reads S).mono fun r v' h => ?_
  obtain ⟨hl, hp', hf', hr⟩ := h
  rw [hv] at hl
  cases r with
  | error e => exact hl
  | ok current =>
      refine ⟨⟨fun _ => ⟨trivial, .inl ⟨_, rfl, u, _, hl, rfl⟩⟩, fun _ => ?_⟩, fun r _ => ?_⟩
      · exact .accept hl (hp'.trans hp) (hr current rfl) (hf' hf)
      · cases r <;> exact hl

/-- A build that passes is one that was seen finished. -/
theorem assertQuiescent_finishes {v : Session × Cycle} (hv : v.1.lease = none) :
    (assertQuiescent b).Obeys ((cleaning b).monitor b)
      (fun r v' => v'.1.lease = none ∧ (r.isOk = true → v'.2.finished = true)) v := by
  simp only [assertQuiescent, Prog.bind_eq, Prog.obeys_bind]
  refine ⟨⟨trivial, trivial⟩, fun r _ => ?_⟩
  cases r with
  | none => exact ⟨hv, fun h => absurd h Bool.false_ne_true⟩
  | some j =>
      rw [Prog.obeys_ret]
      dsimp only
      split
      · exact ⟨hv, fun h => absurd h Bool.false_ne_true⟩
      · next ht =>
        rw [Prog.obeys_bind]
        refine ⟨⟨trivial, trivial⟩, fun m _ => ?_⟩
        rw [Prog.obeys_ret]
        dsimp only
        split
        · exact ⟨hv, fun h => absurd h Bool.false_ne_true⟩
        · have hfin : ∀ y : Cycle, y.finished = true →
              (assertJenkinsFinished j).Obeys ((cleaning b).monitor b)
                (fun _ v' => v'.1.lease = none ∧ v'.2.finished = true) (v.1, y) := by
            intro y hy
            refine (assertJenkinsFinished_uses j b none).obeys (M := (cleaning b).monitor b)
              (P := fun v' => v'.1.lease = none ∧ v'.2.finished = true)
              (fun v' op hv' hop => ?_) ⟨hv, hy⟩
            obtain ⟨k, hk, hd⟩ := hop
            obtain rfl : k = .quiet := by simpa using hk
            obtain ⟨ha, ho⟩ := hd.session (b := b) (s := v'.1) rfl fun _ h =>
              absurd (by simp) h
            cases hd with
            | quiet hq => exact ⟨⟨ha, Cycle.allows_quiet hq⟩, fun r _ =>
                ⟨(ho r).trans hv'.1, Cycle.observe_finished hv'.2⟩⟩
          refine (hfin _ (Cycle.observe_finished ?_)).mono fun r v' h => ⟨h.1, fun _ => h.2⟩
          simp [Cycle.observe, ht]

/-- Accepting a request, once the build is known to be finished. -/
theorem cleaning_request (S : Settings) (b' : BuildId) (dispatch : Bool) :
    (cleaning b).Idles b (requestCleanup S b' dispatch) := by
  have hG := Conduct.idles_compositional (C := cleaning b) (b := b)
  by_cases e : b' = b
  swap
  · exact Conduct.request_idles (fun _ h => h) (fun h _ => cleaning_unleased h) (by simp)
      cleaning_lax b' (fun h => absurd h e) dispatch
  subst e
  have free {K : List Kind} (hk : K ⊆ unleasedKinds) (op : Op) (hop : Does K op) :
      (cleaning b').Idles b' (call op) :=
    Conduct.idles_does hk (fun h _ => cleaning_unleased (h.mono hk)) op hop
  refine requestCleanup_of S hG (free (by simp)) (fun v hv => ?_) dispatch
  rw [Prog.obeys_bind]
  refine (assertQuiescent_finishes hv).mono fun r v h => ?_
  obtain ⟨hv, hf⟩ := h
  cases r with
  | error e => exact hv
  | ok _ =>
      refine obeys_buildLease.mpr ⟨⟨trivial, trivial⟩, fun u => ⟨⟨trivial, trivial⟩, fun now => ?_⟩⟩
      refine ⟨⟨fun _ => ⟨rfl, hv⟩, fun _ => by simp⟩, ?_, fun m _ => ?_⟩
      · have hnone : (cleaning b').Idles b' (acceptCleanup S b' none) := by
          refine hG.bind (of_doing hG (free (K := [.quiet, .legacy]) (by simp))
            (manifest_uses S b' none) (by simp)) fun m => ?_
          cases m.cleanupStatus <;> first | exact hG.ret _ | exact hG.raise _
        exact hnone _ (by simpa [Session.observe] using hv)
      · refine (acceptCleanup_obeys S ?_ ?_ ?_).mono fun r v hv => ?_
        · simp [Session.observe]
        · simp [Cycle.observe]
        · simpa [Cycle.observe] using hf rfl
        · exact ⟨⟨fun _ => ⟨u, _, hv, rfl⟩, trivial⟩, by simp [Session.observe]⟩

/-- The last phase of a runner. -/
theorem concludePhase_obeys {u : Uuid} {m : BuildResources} (hm : m.buildId = b) (st : Cleanup)
    {v : Session × Cycle}
    (hv : (cleaning b).Within u [.queued, .running] (fun x => x.phase = .running) v) :
    (concludePhase m ⟨b, some u⟩ st).Obeys ((cleaning b).monitor b)
      (fun _ v' => v'.1.lease = some (u, [.queued, .running])) v := by
  rw [concludePhase, Prog.bind_eq, Prog.obeys_bind]
  refine (cleaning_calm (J := (· = .running)) (by simp) (by simp [Kind.calm, Kind.inBody])
    (currentManifest_uses m.buildId b (some u)) v hv).mono fun r v hv => ?_
  cases r with
  | error e => exact hv.1
  | ok current =>
      dsimp only
      rw [Prog.bind_eq, Prog.obeys_bind]
      refine (cleaning_calm (J := (· = .running)) (by simp) (by simp [Kind.calm, Kind.inBody])
        (ResourceTracker.guard_uses ⟨b, some u⟩) v hv).mono fun r v hv => ?_
      obtain ⟨hl, hp⟩ := hv
      cases r with
      | error e => exact hl
      | ok _ =>
          have hf := concludedFields_concluding current st
          dsimp only
          rw [hm, Prog.bind_eq, Prog.obeys_bind]
          refine ⟨⟨fun _ => ⟨hf.leaseExpiresAt, .inl ⟨_, rfl, u, _, hl, rfl⟩⟩,
            fun _ => .conclude hl hp hf⟩, fun r _ => ?_⟩
          rw [Prog.obeys_ret]
          cases r with
          | none => exact hl
          | some _ =>
              dsimp only
              -- The manifest is concluded; only the services are marked after that.
              have hrest : Prog.Uses (I := api) (Doing b (some u) [.quiet, .guard, .cleaned])
                  (Prog.bind (call (.listServices m.appid)) fun services =>
                    Prog.forEach services (markCleaned b current ⟨b, some u⟩)) :=
                .call (.of (.quiet rfl)) fun services _ => .forEach fun s =>
                  uses_mono (markCleaned_uses ⟨b, some u⟩ current s) (by simp)
              refine Prog.Obeys.mono (Conduct.keeps_of_uses (C := cleaning b)
                (l := [.queued, .running]) (J := fun _ => True) (by simp [Kind.inBody]) hrest
                (fun s x k op hk hd _ _ => ⟨?_, fun _ _ => trivial⟩) _ ⟨hl, trivial⟩)
                fun _ _ h => h.1
              cases hd with
              | quiet hq => exact Cycle.allows_quiet hq
              | _ => first | exact trivial | simp at hk

/-- A runner switches to `RUNNING`, sweeps, and concludes. -/
theorem cleaning_run (S : Settings) {m : BuildResources} (hm : m.buildId = b) :
    (cleaning b).Serves b [.queued, .running] (cleanupUnderLease S b m) := by
  intro u v hv
  have hl := hv.1
  rw [cleanupUnderLease, Prog.bind_eq, Prog.obeys_bind]
  refine ⟨⟨fun _ => ⟨trivial, .inl ⟨_, rfl, u, _, hl, rfl⟩⟩, fun _ => ?_⟩, fun r _ => ?_⟩
  · exact .running hl (Cycle.fresh_of_granted hv.2).1
  rw [Prog.obeys_ret]
  dsimp only
  rw [Prog.bind_eq, Prog.obeys_bind, Prog.obeys_attempt]
  refine Prog.Obeys.mono (cleaning_calm (J := (· = .running)) (by simp)
    (by simp [Kind.calm, Kind.inBody]) (assertQuiescent_uses b (some u)) _ ⟨hl, ?_⟩)
    fun r v hv => ?_
  · simp [Cycle.observe, Phase.after]
  cases r with
  | error e =>
      dsimp only
      rw [Prog.bind_eq, Prog.obeys_bind]
      exact ⟨⟨fun _ => ⟨trivial, .inl ⟨_, rfl, u, _, hv.1, rfl⟩⟩, fun _ => .abandon hv.1 hv.2 e⟩,
        fun _ _ => hv.1⟩
  | ok _ =>
      dsimp only
      rw [removePhases, Prog.bind_eq, Prog.obeys_bind]
      refine (cleaning_calm (J := (· = .running)) (by simp) (by simp [Kind.calm, Kind.inBody])
        (sweep_uses S ⟨b, some u⟩ hm) v hv).mono fun r v hv => ?_
      cases r with
      | error e => exact hv.1
      | ok st => exact concludePhase_obeys hm st hv

theorem cleaning_kept (S : Settings) (b : BuildId) : (cleaning b).Kept b S := by
  have allow {s : Session} {x : Cycle} {op : Op} (h : Does unleasedKinds op)
      (_ : s.lease = none) : (cleaning b).allows s x op := cleaning_unleased h
  have request := cleaning_request (b := b) S
  have operation {f : ResourceTracker → P Unit} {ks : List Kind} (hks : ∀ k ∈ ks, k.calm = true)
      (hf : ∀ u, (f ⟨b, some u⟩).Uses (Doing b (some u) ks)) (hq : .quiet ∈ ks)
      (hg : .guard ∈ ks) : (cleaning b).Serves b [.notStarted] (WorkerRuntime.underLease b f) :=
    cleaning_serves hks fun u => WorkerRuntime.underLease_uses ⟨b, some u⟩ (hf u) hq hg
  exact
    { lax := cleaning_lax
      free := fun h _ => cleaning_unleased (h.mono (by simp))
      createOrReuse := Conduct.createOrReuse_idles (fun _ h => h) allow (by simp)
      queue := Conduct.queue_idles (fun _ h => h) allow (by simp) cleaning_lax fun appid =>
        cleaning_serves (by simp [Kind.calm, Kind.inBody]) fun u =>
          BuildService.prepareInputs_uses S ⟨b, some u⟩ appid
      request
      sync := Conduct.sync_idles (fun _ h => h) allow (by simp)
      teardown := Conduct.teardown_idles (fun _ h => h) allow (by simp) request
      teardownIfRequired := Conduct.teardownIfRequired_idles (fun _ h => h) allow (by simp) request
      reopen := cleaning_serves (by simp [Kind.calm, Kind.inBody]) fun u =>
        DynamicCheckService.reopen_uses ⟨b, some u⟩
      run := fun m hm => cleaning_run S hm
      recordFailure := cleaning_serves (by simp [Kind.calm, Kind.inBody]) fun u =>
        DynamicCheckService.recordFailure_uses ⟨b, some u⟩
      failUnprepared := cleaning_serves (by simp [Kind.calm, Kind.inBody]) fun u =>
        WorkerRuntime.failUnprepared_uses ⟨b, some u⟩
      start := fun taskId => operation (by simp [Kind.calm, Kind.inBody])
        (fun u => WorkerRuntime.startBody_uses S ⟨b, some u⟩ taskId) (by simp) (by simp)
      poll := fun n taskId => operation (by simp [Kind.calm, Kind.inBody])
        (fun u => WorkerRuntime.pollBody_uses S ⟨b, some u⟩ n taskId) (by simp) (by simp)
      dynamic := fun run => operation (by simp [Kind.calm, Kind.inBody])
        (fun u => WorkerRuntime.dynamicBody_uses S ⟨b, some u⟩ run) (by simp) (by simp) }

end

end Orchestrator
