import Orchestrator.Cleanup.Cycle
import Orchestrator.Runtime.Sample

/-!
# Cleanup — a one-way gate

`cleanup_status` leaves `NOT_STARTED` for good, `SUCCEEDED` is final, and each accepted request
takes the manifest to the next generation.

* `Standing m ls x`: what the session that owns the lease may rely on.
* `run_standing`: it holds of the owner in every configuration of every run.
* `Passes m m'`: what one step may do to a manifest; `step_passes`.
* `cleanup_one_way`: what follows for whole runs.
-/

namespace Orchestrator
open Interleaving

/-- What the owner of the lease, in a session on the statuses `ls` and at stage `x`, knows of the
manifest. -/
structure Standing (m : BuildResources) (ls : List CleanupStatus) (x : Cycle) : Prop where
  notStarted : ls = [.notStarted] → m.cleanupStatus = .notStarted
  requesting : ls = [.notStarted, .partialFailed] → x.phase = .fresh →
    (m.cleanupStatus = .notStarted ∨ m.cleanupStatus = .partialFailed) ∧
      ∀ current, x.read = some current → current.cleanupStatus = m.cleanupStatus ∧
        current.cleanupGeneration = m.cleanupGeneration
  running : ls = [.queued, .running] → m.cleanupStatus ≠ .notStarted
  succeeded : m.cleanupStatus = .succeeded → x.phase = .concluded

/-- What a step may do to a manifest. -/
structure Passes (m m' : BuildResources) : Prop where
  left : m.cleanupStatus ≠ .notStarted → m'.cleanupStatus ≠ .notStarted
  generation : m'.cleanupGeneration = m.cleanupGeneration ∧
      (m'.cleanupStatus = .queued → m.cleanupStatus = .queued) ∨
    m'.cleanupGeneration = m.cleanupGeneration + 1 ∧ m'.cleanupStatus = .queued ∧
      (m.cleanupStatus = .notStarted ∨ m.cleanupStatus = .partialFailed)
  final : m.cleanupStatus = .succeeded → m'.cleanupStatus = .succeeded ∧
    m'.cleanupGeneration = m.cleanupGeneration ∧ m'.resources = m.resources

section
variable {m m' : BuildResources} {ls : List CleanupStatus} {x x' : Cycle} {s : Session} {o : Uuid}

theorem Passes.refl (m : BuildResources) : Passes m m := ⟨id, .inl ⟨rfl, id⟩, fun h => ⟨h, rfl, rfl⟩⟩

/-- Where status, generation and resources stay, nothing passed. -/
theorem Passes.of_eq (hs : m'.cleanupStatus = m.cleanupStatus)
    (hg : m'.cleanupGeneration = m.cleanupGeneration)
    (hr : m.cleanupStatus = .succeeded → m'.resources = m.resources) : Passes m m' :=
  ⟨fun h => by rwa [hs], .inl ⟨hg, by rw [hs]; exact id⟩, fun h => ⟨by rwa [hs], hg, hr h⟩⟩

/-- Standing depends on status and generation, and on no more of the stage than it names. -/
theorem Standing.congr (h : Standing m ls x) (hs : m'.cleanupStatus = m.cleanupStatus)
    (hg : m'.cleanupGeneration = m.cleanupGeneration) (hp : x'.phase = x.phase)
    (hr : ∀ current, x'.read = some current → x.read = some current ∨ current = m') :
    Standing m' ls x' where
  notStarted e := by rw [hs]; exact h.notStarted e
  requesting e hf := by
    rw [hp] at hf
    obtain ⟨hst, hread⟩ := h.requesting e hf
    rw [hs, hg]
    refine ⟨hst, fun current hc => ?_⟩
    rcases hr current hc with hc | rfl
    · exact hread current hc
    · exact ⟨hs, hg⟩
  running e := by rw [hs]; exact h.running e
  succeeded e := by rw [hp]; exact h.succeeded (hs ▸ e)

/-- **The writes of an owner.**  They are what it stands for. -/
theorem Standing.write (h : Standing m ls x) (hs : s.lease = some (o, ls)) {f : ResourceFields}
    {e : ResourceExpectation} (hw : Cycle.Write s x f e) (ho : e.leaseOwner = .eq (some o)) :
    Passes m (m.modelCopy f) ∧
      Standing (m.modelCopy f) ls { x with phase := x.phase.after f } := by
  cases hw with
  | pending p o' =>
      exact ⟨.of_eq rfl rfl fun _ => rfl, h.congr rfl rfl rfl fun _ hc => .inl hc⟩
  | @accept o' current hs' hp hr hf =>
      cases hs.symm.trans hs'
      obtain ⟨hst, hread⟩ := h.requesting rfl hp
      obtain ⟨-, hg⟩ := hread current hr
      refine ⟨⟨fun _ => by simp [queuedFields], .inr ⟨?_, rfl, hst⟩, fun e => ?_⟩, ?_⟩
      · simp [queuedFields, hg]
      · rcases hst with e' | e' <;> rw [e] at e' <;> cases e'
      · exact ⟨by simp, by simp [queuedFields, Phase.after], by simp, by simp [queuedFields]⟩
  | undispatch g => cases ho
  | running hs' hp =>
      cases hs.symm.trans hs'
      refine ⟨⟨fun _ => by simp, .inl ⟨rfl, by simp⟩, fun e => ?_⟩, ?_⟩
      · rw [h.succeeded e] at hp; cases hp
      · exact ⟨by simp, by simp, by simp, by simp⟩
  | abandon hs' hp err =>
      cases hs.symm.trans hs'
      refine ⟨⟨fun _ => ?_, .inl ⟨rfl, ?_⟩, fun e => ?_⟩, ?_⟩
      · simp [abandonedFields]
      · simp [abandonedFields]
      · rw [h.succeeded e] at hp; cases hp
      · exact ⟨by simp, by simp, by simp [abandonedFields], by simp [abandonedFields]⟩
  | conclude hs' hp hf =>
      cases hs.symm.trans hs'
      have hg := hf.cleanupGeneration.apply m.cleanupGeneration
      rcases hf.cleanupStatus with e | e
      all_goals
        refine ⟨⟨fun _ => by simp [e], .inl ⟨by simp [hg], by simp [e]⟩, fun e' => ?_⟩, ?_⟩
        · rw [h.succeeded e'] at hp; cases hp
        · exact ⟨by simp, by simp, by simp [e], by simp [Phase.after, e]⟩

/-- A granted lease stands. -/
theorem Standing.granted {b : BuildId} (hx : (cleaning b).Granted b o ls x)
    (hl : m.cleanupStatus ∈ ls) (hls : ls ∈ leaseLists) : Standing m ls x := by
  obtain ⟨hp, hr⟩ := Cycle.fresh_of_granted hx
  refine ⟨fun e => ?_, fun e _ => ⟨?_, by simp [hr]⟩, fun e => ?_, fun e => ?_⟩
  · simpa [e] using hl
  · simpa [e] using hl
  · rintro hn; simp [e, hn] at hl
  · rw [e] at hl
    simp only [leaseLists, List.mem_cons, List.not_mem_nil, or_false] at hls
    rcases hls with rfl | rfl | rfl <;> simp at hl

/-- A write that was refused leaves the manifest where it was. -/
theorem Standing.refused (h : Standing m ls x) {f : ResourceFields} {e : ResourceExpectation}
    (hw : Cycle.Write s x f e) : Standing m ls { x with phase := x.phase.after f } := by
  refine ⟨h.notStarted, fun e hp => ?_, h.running, fun e => ?_⟩
  · cases hw with
    | pending p o' => exact h.requesting e hp
    | conclude hs' hp' hf => rcases hf.cleanupStatus with e' | e' <;> simp [Phase.after, e'] at hp
    | _ => simp [Phase.after, queuedFields, undispatchedFields, abandonedFields] at hp
  · have hx := h.succeeded e
    cases hw with
    | pending p o' => exact hx
    | undispatch g => rfl
    | conclude hs' hp' hf => rw [hx] at hp'; cases hp'
    | accept hs' hp' hr hf => rw [hx] at hp'; cases hp'
    | running hs' hp' => rw [hx] at hp'; cases hp'
    | abandon hs' hp' err => rw [hx] at hp'; cases hp'

/-- A dispatch that failed takes a queued cleanup back; no owner that stands on another status is
concerned. -/
theorem Standing.undispatched (h : Standing m ls x) (hq : m.cleanupStatus = .queued)
    (hp : x'.phase = .fresh → x.phase = .fresh) :
    Standing (m.modelCopy undispatchedFields) ls x' where
  notStarted e := by have := h.notStarted e; rw [hq] at this; cases this
  requesting e hf := by rcases (h.requesting e (hp hf)).1 with e' | e' <;> rw [hq] at e' <;> cases e'
  running _ := by simp [undispatchedFields]
  succeeded e := by simp [undispatchedFields] at e

end

/-! ### Along every run -/

section
variable {S : Settings} {b : BuildId} {w w' : World} {l : List (Event (orchestrator S))} {t : Nat}
  {op : Op} {a : Answers} {r : op.Ret}

/-- The owner of the lease stands. -/
def Gated (b : BuildId) (w : World) (l : List (Event (orchestrator S))) : Prop :=
  ∀ m o ls, w.repo.buildResources.lookup b = some m → m.leaseOwner = some o →
    (session b o.drawer l).lease = some (o, ls) → Standing m ls ((cleaning b).stage b o.drawer l)

/-- Reading is all that happens to the stage of a thread whose call leaves the manifest alone. -/
theorem Standing.same {m : BuildResources} {ls : List CleanupStatus} {x : Cycle} {s : Session}
    {now : DateTime} (h : Standing m ls x) (hr : ManifestReads now b (some m) op r)
    (hc : x.allows b s op) : Standing m ls (x.observe b op r) := by
  cases op with
  | getBuildResources b' =>
      by_cases e : b' = b
      · obtain rfl := hr e
        exact h.congr rfl rfl (by simp [Cycle.observe, e]) (by simp [Cycle.observe, e])
      · simpa [Cycle.observe, e] using h
  | ensureBuildResources m₀ =>
      by_cases e : m₀.buildId = b
      · refine h.congr rfl rfl (by simp [Cycle.observe, e]) fun current hcur => ?_
        simp only [Cycle.observe, e, if_true] at hcur
        cases r with
        | ok y => exact .inr (by
            rw [← Option.some.inj ((hr e).2 y rfl)] at hcur
            simpa [Except.toOption] using hcur.symm)
        | error err => exact .inl (by simpa [Except.toOption] using hcur)
      · simpa [Cycle.observe, e] using h
  | claimBuildLease b' o e ls' =>
      by_cases hb : b' = b
      · obtain rfl := hr hb
        simpa [Cycle.observe] using h
      · simpa [Cycle.observe, hb] using h
  | updateBuildResources b' f e =>
      by_cases hb : b' = b
      · simpa [Cycle.observe, hb] using h.refused (hc hb)
      · simpa [Cycle.observe, hb] using h
  | getBuild b' =>
      refine h.congr rfl rfl (Cycle.observe_phase (by simp) (by simp)) fun current hcur => .inl ?_
      simp only [Cycle.observe] at hcur
      split_ifs at hcur <;> exact hcur
  | _ => exact h

theorem Gated.call (h : Gated b w l) (hs : Sessioned b w l) (ha : (session b t l).allows b op)
    (hc : ((cleaning b).stage b t l).allows b (session b t l) op) (hsane : Op.Sane op r)
    (he : exec t op a w = some (r, w')) : Gated b w' (.call t op r :: l) := by
  intro m o ls hm ho hls
  have hd := manifest_deed ha he
  rw [hm] at hd
  generalize hold : w.repo.buildResources.lookup b = old at hd
  -- Where the call is another thread's, session and stage are as they were.
  have other (ht : t ≠ o.drawer) {m₀ : BuildResources} (hst : Standing m₀ ls
      ((cleaning b).stage b o.drawer l)) : Standing m₀ ls
        ((cleaning b).stage b o.drawer (.call t op r :: l)) := by
    rwa [Conduct.stage_call_other ht]
  have lease (hclaim : ∀ o e ls m, op = .claimBuildLease b o e ls →
      ¬ HEq r (some m : Option BuildResources)) (hrel : ∀ o, op ≠ .releaseBuildLease b o) :
      (session b o.drawer l).lease = some (o, ls) := by
    rwa [session_lease_call _ hclaim hrel] at hls
  cases hd with
  | same hr =>
      have hls' : (session b o.drawer l).lease = some (o, ls) := by
        by_cases hrel : ∃ o', op = .releaseBuildLease b o'
        · obtain ⟨o', rfl⟩ := hrel
          obtain ⟨ls', hls'⟩ := hs.owner m o hold ho
          by_cases ht : t = o.drawer
          · rw [ht, session_call_self] at hls
            simp [Session.observe] at hls
          · rwa [session_call_other ht] at hls
        · refine lease ?_ fun o' e => hrel ⟨o', e⟩
          rintro o' e ls' m' rfl hm'
          cases hr rfl
          cases hm'
      have hst := h m o ls hold ho hls'
      by_cases ht : t = o.drawer
      · subst ht
        rw [Conduct.stage_call_self]
        exact hst.same hr hc
      · exact other ht hst
  | ensured _ hb =>
      rw [hb.leaseOwner] at ho
      cases ho
  | @stored m₀ y o' ls' hs' hheld =>
      have hst := h m₀ o ls hold ho (lease (by simp) (by simp))
      have hst' : Standing { m₀ with resources := m₀.resources.put y } ls
          ((cleaning b).stage b o.drawer l) := hst.congr rfl rfl rfl fun _ hc => .inl hc
      by_cases ht : t = o.drawer
      · subst ht
        rw [Conduct.stage_call_self]
        exact hst'
      · exact other ht hst'
  | @owned m₀ f e o' ls' hs' hown hheld hholds hf =>
      obtain rfl : o' = o := Option.some.inj (hheld.1.symm.trans ho)
      obtain rfl : o'.drawer = t := hs.drawer hs'
      have hls' := lease (by simp) (by simp)
      rw [Conduct.stage_call_self]
      simpa [Cycle.observe] using ((h m₀ o' ls hold hheld.1 hls').write hls' (hc rfl) hown).2
  | undispatched hq hholds =>
      have hst := h _ o ls hold ho (lease (by simp) (by simp))
      by_cases ht : t = o.drawer
      · subst ht
        rw [Conduct.stage_call_self]
        exact hst.undispatched hq (by simp [Cycle.observe, Phase.after, undispatchedFields])
      · exact other ht (hst.undispatched hq id)
  | @claimed m₀ o' e ls' hdr hno hst hfree =>
      cases ho
      obtain rfl : o.drawer = t := (hs.drawn t o hdr).1
      rw [session_call_self] at hls
      obtain rfl : ls' = ls := by simpa [Session.observe] using hls
      rw [Conduct.stage_call_self]
      exact Standing.granted ⟨_, _, e, _, hsane _ rfl, rfl⟩ hst (hc rfl)
  | released _ _ => cases ho

/-- **One step of the gate.**  Whatever a thread does to a manifest passes. -/
theorem Gated.passes (h : Gated b w l) (hs : Sessioned b w l)
    (ha : (session b t l).allows b op)
    (hc : ((cleaning b).stage b t l).allows b (session b t l) op)
    (he : exec t op a w = some (r, w')) {m : BuildResources}
    (hm : w.repo.buildResources.lookup b = some m) :
    ∃ m', w'.repo.buildResources.lookup b = some m' ∧ Passes m m' := by
  have hd := manifest_deed ha he
  rw [hm] at hd
  generalize hnew : w'.repo.buildResources.lookup b = new at hd
  -- What the owner of the lease stands for.
  have standing {o : Uuid} {ls : List CleanupStatus} (hls : (session b t l).lease = some (o, ls))
      (ho : m.leaseOwner = some o) : Standing m ls ((cleaning b).stage b t l) := by
    obtain rfl := hs.drawer hls
    exact h m o ls hm ho hls
  cases hd with
  | same _ => exact ⟨m, rfl, .refl m⟩
  | stored hs' hheld =>
      refine ⟨_, rfl, .of_eq rfl rfl fun e => ?_⟩
      exact absurd ((standing hs' hheld.1).succeeded e) (hc rfl)
  | owned hs' hown hheld hholds hf =>
      exact ⟨_, rfl, ((standing hs' hheld.1).write hs' (hc rfl) hown).1⟩
  | undispatched hq hholds =>
      refine ⟨_, rfl, ⟨fun _ => ?_, .inl ⟨rfl, fun _ => hq⟩, fun e => ?_⟩⟩
      · simp [undispatchedFields]
      · rw [hq] at e; cases e
  | claimed _ _ _ _ => exact ⟨_, rfl, .of_eq rfl rfl fun _ => rfl⟩
  | released _ _ => exact ⟨_, rfl, .of_eq rfl rfl fun _ => rfl⟩

/-- Nor does the environment hold the gate up. -/
theorem passes_env {x : Stimulus} (hx : disturb x w = some w') {m : BuildResources}
    (hm : w.repo.buildResources.lookup b = some m) :
    ∃ m', w'.repo.buildResources.lookup b = some m' ∧ Passes m m' := by
  have hr := disturb_manifest hx b
  rw [hm] at hr
  generalize w'.repo.buildResources.lookup b = new at hr
  cases hr with
  | same => exact ⟨m, rfl, .refl m⟩
  | renewed _ => exact ⟨_, rfl, .of_eq rfl rfl fun _ => rfl⟩

theorem conducted_gated {cond : World → List (Event (orchestrator S)) → Nat → Op → Prop} :
    Conducted (cleaning b) b S cond (fun _ _ => True) (Gated b) where
  call h _ hs _ ha hc hsane he := h.call hs ha hc hsane he
  start h := h
  env {w l x w'} h _ _ hx := by
    intro m o ls hm ho hls
    have hr := disturb_manifest hx b
    rw [hm] at hr
    generalize hold : w.repo.buildResources.lookup b = old at hr
    cases hr with
    | same => exact h m o ls hold ho hls
    | renewed _ => exact (h _ o ls hold ho hls).congr rfl rfl rfl fun _ hc => .inl hc

/-- **Standing.**  In every configuration of every run, the owner of the lease stands. -/
theorem run_gated {ok : Config (orchestrator S) → Move (orchestrator S) → Prop}
    {c₀ c : Config (orchestrator S)} (hc : Boot c₀) (hr : Run ok c₀ c) (b : BuildId) :
    Gated b c.world c.log := by
  refine conducted_gated.boot (cleaning_kept S b) hc (hr.mono fun _ _ _ => trivial).calling
    (fun _ _ => trivial) fun m o ls hm => ?_
  simp [hc.repo.buildResources] at hm

/-! ### What the log says -/

/-- The write of the fields queues a cleanup. -/
def ResourceFields.queues (f : ResourceFields) : Bool :=
  match f.cleanupStatus with
  | .set .queued => true
  | _ => false

/-- The generation a call takes `b` to, if it is a request that was accepted. -/
def acceptance (b : BuildId) : (op : Op) → op.Ret → Option Nat
  | .updateBuildResources b' f _, r =>
      if b' = b ∧ f.queues then r.map (·.cleanupGeneration) else none
  | _, _ => none

/-- The generations of the accepted requests for `b`, the newest first. -/
def accepted (b : BuildId) : List (Event (orchestrator S)) → List Nat
  | [] => []
  | .call _ op r :: l => (acceptance b op r).toList ++ accepted b l
  | .start _ _ :: l | .env _ :: l => accepted b l

/-- The statuses a call is granted the lease of `b` on. -/
def grant (b : BuildId) : (op : Op) → op.Ret → Option (List CleanupStatus)
  | .claimBuildLease b' _ _ ls, r => if b' = b ∧ r.isSome then some ls else none
  | _, _ => none

/-- The leases of `b` that were granted, by their statuses, the newest first. -/
def grants (b : BuildId) : List (Event (orchestrator S)) → List (List CleanupStatus)
  | [] => []
  | .call _ op r :: l => (grant b op r).toList ++ grants b l
  | .start _ _ :: l | .env _ :: l => grants b l

/-- The generation of the manifest of `b`. -/
def generation (b : BuildId) (w : World) : Nat :=
  (w.repo.buildResources.lookup b).elim 0 (·.cleanupGeneration)

theorem countdown_succ (n : Nat) :
    (List.range' 1 (n + 1)).reverse = (n + 1) :: (List.range' 1 n).reverse := by
  simp [List.range'_concat, Nat.add_comm]

/-- A lease is granted on the status the manifest has. -/
theorem status_of_grant (he : exec t op a w = some (r, w')) {ls : List CleanupStatus}
    (hg : grant b op r = some ls) {m : BuildResources}
    (hm : w.repo.buildResources.lookup b = some m) : m.cleanupStatus ∈ ls := by
  have hstep := exec_manifest he b
  rw [hm] at hstep
  generalize w'.repo.buildResources.lookup b = new at hstep
  cases op with
  | claimBuildLease b' o e ls' =>
      simp only [grant] at hg
      split_ifs at hg with hb
      cases hg
      cases hstep with
      | same h => rw [h hb.1] at hb; cases hb.2
      | claimed h _ => exact h
  | _ => cases hg

/-- **Generations are counted.**  A call that is not an acceptance leaves the generation; an
acceptance takes it one up. -/
theorem Gated.generation (h : Gated b w l) (hs : Sessioned b w l)
    (ha : (session b t l).allows b op)
    (hc : ((cleaning b).stage b t l).allows b (session b t l) op)
    (he : exec t op a w = some (r, w')) :
    acceptance b op r = none ∧ generation b w' = generation b w ∨
      acceptance b op r = some (generation b w + 1) ∧ generation b w' = generation b w + 1 := by
  have hd := manifest_deed ha he
  unfold Orchestrator.generation
  generalize hold : w.repo.buildResources.lookup b = old at hd ⊢
  generalize w'.repo.buildResources.lookup b = new at hd ⊢
  cases hd with
  | same hr =>
      refine .inl ⟨?_, rfl⟩
      cases op with
      | updateBuildResources b' f e =>
          simp only [acceptance]
          split_ifs with hb
          · rw [hr hb.1]; rfl
          · rfl
      | _ => rfl
  | ensured _ hb => exact .inl ⟨rfl, hb.cleanupGeneration⟩
  | stored _ _ | claimed _ _ _ _ | released _ _ => exact .inl ⟨rfl, rfl⟩
  | undispatched _ _ => exact .inl ⟨by simp [acceptance, ResourceFields.queues, undispatchedFields], rfl⟩
  | @owned m f e o ls hs' hown hheld hholds hf =>
      obtain rfl := hs.drawer hs'
      have hw := hc rfl
      have hst := h m o ls hold hheld.1 hs'
      cases hw with
      | accept hs₂ hp hr hf =>
          cases hs'.symm.trans hs₂
          obtain ⟨-, hread⟩ := hst.requesting rfl hp
          have hg := (hread _ hr).2
          exact .inr ⟨by simp [acceptance, ResourceFields.queues, queuedFields, hg],
            by simp [queuedFields, hg]⟩
      | undispatch g => cases hown
      | conclude hs₂ hp hf =>
          refine .inl ⟨?_, hf.cleanupGeneration.apply m.cleanupGeneration⟩
          rcases hf.cleanupStatus with e | e <;> simp [acceptance, ResourceFields.queues, e]
      | _ => exact .inl ⟨by simp [acceptance, ResourceFields.queues, abandonedFields], rfl⟩

end

/-! ### Runs -/

section
variable {S : Settings} {b : BuildId} {c₀ c c' : Config (orchestrator S)}
  {mv : Move (orchestrator S)}

/-- **One step of a run.**  A manifest passes, and what is granted is granted on its status. -/
theorem step_passes (hc : Boot c₀) (hr : Run Anything c₀ c) (hs : Machine.step c mv = some c')
    {m : BuildResources} (hm : c.world.repo.buildResources.lookup b = some m) :
    (∃ m', c'.world.repo.buildResources.lookup b = some m' ∧ Passes m m') ∧
      ∃ g : Option (List CleanupStatus), grants b c'.log = g.toList ++ grants b c.log ∧
        ∀ ls, g = some ls → m.cleanupStatus ∈ ls ∧ ls ∈ leaseLists := by
  have hgate := run_gated hc hr b
  have hsess := run_sessioned hc hr b
  rcases (cleaning_kept S b).step_cases hc hr hs with
      ⟨t, op, a, r, w, ha, hcl, hsane, he, hw, hl⟩ | ⟨t, T, hw, hl⟩ | ⟨x, hx, hl⟩
  · rw [hw, hl]
    refine ⟨hgate.passes hsess ha hcl he hm, grant b op r, rfl, fun ls hg => ?_⟩
    refine ⟨status_of_grant he hg hm, ?_⟩
    cases op with
    | claimBuildLease b' o e ls' =>
        simp only [grant] at hg
        split_ifs at hg with hb
        cases hg
        exact hcl hb.1
    | _ => cases hg
  · rw [hw, hl]
    exact ⟨⟨m, hm, .refl m⟩, none, rfl, nofun⟩
  · rw [hl]
    exact ⟨passes_env hx hm, none, rfl, nofun⟩

theorem step_generation (hc : Boot c₀) (hr : Run Anything c₀ c)
    (hs : Machine.step c mv = some c')
    (h : accepted b c.log = (List.range' 1 (generation b c.world)).reverse) :
    accepted b c'.log = (List.range' 1 (generation b c'.world)).reverse := by
  rcases (cleaning_kept S b).step_cases hc hr hs with
      ⟨t, op, a, r, w, ha, hcl, hsane, he, hw, hl⟩ | ⟨t, T, hw, hl⟩ | ⟨x, hx, hl⟩
  · rw [hw, hl]
    rcases (run_gated hc hr b).generation (run_sessioned hc hr b) ha hcl he with ⟨hg, hn⟩ | ⟨hg, hn⟩
    · simpa [accepted, hg, hn] using h
    · simp [accepted, hg, hn, countdown_succ, h]
  · rw [hw, hl]; exact h
  · rw [hl]
    have hn : generation b c'.world = generation b c.world := by
      unfold generation
      have hd := disturb_manifest hx b
      generalize c.world.repo.buildResources.lookup b = old at hd ⊢
      generalize c'.world.repo.buildResources.lookup b = new at hd ⊢
      cases hd <;> rfl
    simpa [accepted, hn] using h

/-- Once it has left `NOT_STARTED`, a manifest never comes back, and no lease is granted on
`NOT_STARTED` alone. -/
theorem run_left (hc : Boot c₀) (h₀ : Run Anything c₀ c) (hr : Run Anything c c')
    {m : BuildResources} (hm : c.world.repo.buildResources.lookup b = some m)
    (hleft : m.cleanupStatus ≠ .notStarted) :
    (∃ m', c'.world.repo.buildResources.lookup b = some m' ∧ m'.cleanupStatus ≠ .notStarted) ∧
      (grants b c'.log).count [.notStarted] = (grants b c.log).count [.notStarted] := by
  induction hr with
  | refl => exact ⟨⟨m, hm, hleft⟩, rfl⟩
  | snoc hr _ hs ih =>
      obtain ⟨⟨m₁, hm₁, hleft₁⟩, hcount⟩ := ih
      obtain ⟨⟨m₂, hm₂, hpass⟩, g, hg, hgrant⟩ := step_passes hc (h₀.trans hr) hs hm₁
      refine ⟨⟨m₂, hm₂, hpass.left hleft₁⟩, ?_⟩
      rw [hg, List.count_append, hcount]
      cases g with
      | none => simp
      | some ls =>
          have hne : ls ≠ [.notStarted] := by
            rintro rfl
            exact hleft₁ (by simpa using (hgrant _ rfl).1)
          simp [hne]

/-- Once it is `SUCCEEDED`, status, generation and resources stay, and no lease is granted. -/
theorem run_final (hc : Boot c₀) (h₀ : Run Anything c₀ c) (hr : Run Anything c c')
    {m : BuildResources} (hm : c.world.repo.buildResources.lookup b = some m)
    (hdone : m.cleanupStatus = .succeeded) :
    (∃ m', c'.world.repo.buildResources.lookup b = some m' ∧ m'.cleanupStatus = .succeeded ∧
        m'.cleanupGeneration = m.cleanupGeneration ∧ m'.resources = m.resources) ∧
      grants b c'.log = grants b c.log := by
  induction hr with
  | refl => exact ⟨⟨m, hm, hdone, rfl, rfl⟩, rfl⟩
  | snoc hr _ hs ih =>
      obtain ⟨⟨m₁, hm₁, hdone₁, hgen, hres⟩, hgrants⟩ := ih
      obtain ⟨⟨m₂, hm₂, hpass⟩, g, hg, hgrant⟩ := step_passes hc (h₀.trans hr) hs hm₁
      obtain ⟨hst, hgen₂, hres₂⟩ := hpass.final hdone₁
      refine ⟨⟨m₂, hm₂, hst, hgen₂.trans hgen, hres₂.trans hres⟩, ?_⟩
      cases g with
      | none => simpa [hgrants] using hg
      | some ls =>
          obtain ⟨hmem, hls⟩ := hgrant ls rfl
          rw [hdone₁] at hmem
          simp only [leaseLists, List.mem_cons, List.not_mem_nil, or_false] at hls
          rcases hls with rfl | rfl | rfl <;> simp at hmem

theorem run_accepted (hc : Boot c₀) (hr : Run Anything c₀ c) (b : BuildId) :
    accepted b c.log = (List.range' 1 (generation b c.world)).reverse := by
  induction hr with
  | refl => simp [hc.log, accepted, generation, hc.repo.buildResources]
  | snoc hr _ hs ih => exact step_generation hc hr hs ih

/-! ### The operations on a build -/

variable (S) in
/-- `queue_build`, the operations of the worker, `submit` and `recover_builds`.  What a delivery
does after its operation, the teardown, is a cleanup. -/
inductive Operation : P Unit → Prop where
  | queueBuild (appid : String) (gitRef : Option String) :
      Operation (BuildService.queueBuild S appid gitRef)
  | start (b : BuildId) (taskId : Option String) :
      Operation (WorkerRuntime.operate b (WorkerRuntime.startBody S b taskId))
  | poll (b : BuildId) (attempt : Nat) (taskId : Option String) :
      Operation (WorkerRuntime.operate b (WorkerRuntime.pollBody S b attempt taskId))
  | dynamic (b : BuildId) (run : Option Uuid) :
      Operation (WorkerRuntime.operate b (WorkerRuntime.dynamicBody S b run))
  | submit (appid : String) (b : BuildId) :
      Operation (Prog.bind (DynamicCheckService.submit appid b) fun _ => .ret ())
  | recoverBuilds : Operation (WorkerRuntime.recoverBuilds S)

/-- A lease the call claims is one on `NOT_STARTED` alone. -/
def ClaimsUnstarted (op : Op) : Prop :=
  ∀ b o e ls, op = .claimBuildLease b o e ls → ls = [.notStarted]

theorem Does.claims {ks : List Kind} (hk : ∀ l, .claim l ∈ ks → l = [.notStarted]) {op : Op}
    (h : Does ks op) : ClaimsUnstarted op := by
  rintro b o e ls rfl
  obtain ⟨b', o', k, hks, hd⟩ := h
  cases hd with
  | quiet hq => cases hq
  | claim l u e => exact hk ls hks

theorem Operation.claims {p : P Unit} (h : Operation S p) : p.Uses ClaimsUnstarted := by
  have of {ks : List Kind} {p : P Unit} (hp : p.Uses (Does ks))
      (hk : ∀ l, .claim l ∈ ks → l = [.notStarted]) : p.Uses ClaimsUnstarted :=
    hp.mono fun op hop => hop.claims hk
  cases h with
  | queueBuild appid gitRef => exact of (BuildService.queueBuild_does S appid gitRef) (by simp)
  | start b taskId =>
      exact of (WorkerRuntime.operate_does b (fun u =>
        WorkerRuntime.startBody_uses S ⟨b, some u⟩ taskId) (by simp) (by simp)) (by simp)
  | poll b n taskId =>
      exact of (WorkerRuntime.operate_does b (fun u =>
        WorkerRuntime.pollBody_uses S ⟨b, some u⟩ n taskId) (by simp) (by simp)) (by simp)
  | dynamic b run =>
      exact of (WorkerRuntime.operate_does b (fun u =>
        WorkerRuntime.dynamicBody_uses S ⟨b, some u⟩ run) (by simp) (by simp)) (by simp)
  | submit appid b =>
      exact of (.bind (DynamicCheckService.submit_does appid b) fun _ => trivial) (by simp)
  | recoverBuilds => exact of (WorkerRuntime.recoverBuilds_does S) (by simp)

/-- **Cleanup is a one-way gate.**  From any configuration `c` that is reached: each step to
`QUEUED` is an accepted request and takes the generation one up, and nothing else does, so the
generations of the accepted requests are all different; a manifest that has left `NOT_STARTED`
never comes back to it, and no lease is granted on `NOT_STARTED` alone, which is all that the
operations on a build claim; one that is `SUCCEEDED` keeps status, generation and resources, and
no lease of it is granted. -/
theorem cleanup_one_way (hc : Boot c₀) (h₀ : Run Anything c₀ c) (b : BuildId) :
    (accepted b c.log = (List.range' 1 (generation b c.world)).reverse ∧
      ∀ mv c' m, Machine.step c mv = some c' →
        c.world.repo.buildResources.lookup b = some m →
        ∃ m', c'.world.repo.buildResources.lookup b = some m' ∧
          (m'.cleanupGeneration = m.cleanupGeneration ∧
              (m'.cleanupStatus = .queued → m.cleanupStatus = .queued) ∨
            m'.cleanupGeneration = m.cleanupGeneration + 1 ∧ m'.cleanupStatus = .queued ∧
              (m.cleanupStatus = .notStarted ∨ m.cleanupStatus = .partialFailed))) ∧
    (∀ c' m, Run Anything c c' → c.world.repo.buildResources.lookup b = some m →
      m.cleanupStatus ≠ .notStarted →
      (∃ m', c'.world.repo.buildResources.lookup b = some m' ∧ m'.cleanupStatus ≠ .notStarted) ∧
        (grants b c'.log).count [.notStarted] = (grants b c.log).count [.notStarted]) ∧
    (∀ p, Operation S p → p.Uses ClaimsUnstarted) ∧
    (∀ c' m, Run Anything c c' → c.world.repo.buildResources.lookup b = some m →
      m.cleanupStatus = .succeeded →
      (∃ m', c'.world.repo.buildResources.lookup b = some m' ∧ m'.cleanupStatus = .succeeded ∧
          m'.cleanupGeneration = m.cleanupGeneration ∧ m'.resources = m.resources) ∧
        grants b c'.log = grants b c.log) := by
  refine ⟨⟨run_accepted hc h₀ b, fun mv c' m hs hm => ?_⟩, ?_, fun p h => h.claims, ?_⟩
  · obtain ⟨⟨m', hm', hpass⟩, -⟩ := step_passes hc h₀ hs hm
    exact ⟨m', hm', hpass.generation⟩
  · exact fun c' m hr hm hleft => run_left hc h₀ hr hm hleft
  · exact fun c' m hr hm hdone => run_final hc h₀ hr hm hdone

/-- The build of the sample is delivered, its cleanup is asked for, and carried out. -/
def Sample.cleaned : Sample.Schedule :=
  delivered ++ doing 5 (.requestCleanup build) 15 ++ doing 6 (.cleanupBuild build) 52

theorem cleanup_one_way_cleaned :
    accepted Sample.build (Sample.reached Sample.cleaned (by decide +kernel)).log = [1] ∧
    ∀ c', Run Anything (Sample.reached Sample.cleaned (by decide +kernel)) c' →
      grants Sample.build c'.log =
        grants Sample.build (Sample.reached Sample.cleaned (by decide +kernel)).log := by
  have h := cleanup_one_way Sample.boot (Sample.reached_run Sample.cleaned (by decide +kernel))
    Sample.build
  refine ⟨h.1.1.trans (by decide +kernel), fun c' hr => ?_⟩
  obtain ⟨m, hm, hdone⟩ : ∃ m, (Sample.reached Sample.cleaned
      (by decide +kernel)).world.repo.buildResources.lookup Sample.build = some m ∧
        m.cleanupStatus = .succeeded := by
    refine ⟨_, (Option.some_get (by decide +kernel)).symm, by decide +kernel⟩
  exact (h.2.2.2 c' m hr hm hdone).2

end

end Orchestrator
