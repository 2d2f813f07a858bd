import Orchestrator.Cleanup.Gate

/-!
# Cleanup — generations that are concluded

A generation ends as `PARTIAL_FAILED` or as `SUCCEEDED`.  It stays there, as long as no report of
a failed dispatch ends a generation that a runner has begun.

* `Unheld b`: the reports that find nobody at work.
* `Runner`: the runner that has the lease finds its generation open until it has ended it itself.
* `generation_concluded_once`; `generation_resurrected`: a report that comes too late.
-/

namespace Orchestrator
open Interleaving

/-- The generation has ended. -/
def BuildResources.Concluded (m : BuildResources) : Prop :=
  m.cleanupStatus = .partialFailed ∨ m.cleanupStatus = .succeeded

/-- What `request_cleanup` expects of the manifest when it takes generation `g` back. -/
abbrev undispatchedExpectation (g : Nat) : ResourceExpectation :=
  { cleanupStatus := .eq .queued, cleanupGeneration := .eq g }

section
variable {S : Settings}

/-- Where a call takes back a generation that could not be dispatched, nobody has the lease. -/
def Unheld (b : BuildId) (w : World) (_ : List (Event (orchestrator S))) (_ : Nat) (op : Op) :
    Prop :=
  ∀ m g, op = .updateBuildResources b undispatchedFields (undispatchedExpectation g) →
    w.repo.buildResources.lookup b = some m →
    m.cleanupStatus = .queued → m.cleanupGeneration = g → ∀ o, ¬ m.heldBy o w.now

/-- The runner that has the lease, and has not concluded, finds the cleanup queued or running. -/
def Runner (b : BuildId) (w : World) (l : List (Event (orchestrator S))) : Prop :=
  ∀ m o, w.repo.buildResources.lookup b = some m → m.heldBy o w.now →
    (session b o.drawer l).lease = some (o, [.queued, .running]) →
    ((cleaning b).stage b o.drawer l).phase ≠ .concluded →
    m.cleanupStatus = .queued ∨ m.cleanupStatus = .running

end

/-- What is concluded stays concluded, whatever is written next. -/
theorem Cycle.Write.concluded {s : Session} {x : Cycle} {f : ResourceFields}
    {e : ResourceExpectation} (h : Cycle.Write s x f e) (hx : x.phase = .concluded) :
    x.phase.after f = .concluded := by
  cases h with
  | pending p o => exact hx
  | accept hs hp hr hf => rw [hx] at hp; cases hp
  | undispatch g => rfl
  | running hs hp => rw [hx] at hp; cases hp
  | abandon hs hp err => rw [hx] at hp; cases hp
  | conclude hs hp hf => rw [hx] at hp; cases hp

/-- A call that is allowed concludes nothing that was open, unless it is a claim. -/
theorem Cycle.allows.concluded {b : BuildId} {s : Session} {x : Cycle} {op : Op} {r : op.Ret}
    (h : x.allows b s op) (hc : ∀ o e ls, op ≠ .claimBuildLease b o e ls)
    (hx : x.phase = .concluded) : (x.observe b op r).phase = .concluded := by
  by_cases hu : ∃ f e, op = .updateBuildResources b f e
  · obtain ⟨f, e, rfl⟩ := hu
    simpa [Cycle.observe] using (h rfl).concluded hx
  · rw [Cycle.observe_phase hc fun f e heq => hu ⟨f, e, heq⟩]
    exact hx

section
variable {S : Settings} {b : BuildId} {w w' : World} {l : List (Event (orchestrator S))} {t : Nat}
  {op : Op} {a : Answers} {r : op.Ret}

theorem Runner.call (h : Runner b w l) (hs : Sessioned b w l) (hu : Unheld b w l t op)
    (ha : (session b t l).allows b op)
    (hc : ((cleaning b).stage b t l).allows b (session b t l) op)
    (he : exec t op a w = some (r, w')) : Runner b w' (.call t op r :: l) := by
  intro m o hm ho hls hp
  rw [show w'.now = w.now from congrArg DateTime.now (exec_clock he)] at ho
  have hd := manifest_deed ha he
  rw [hm] at hd
  generalize hold : w.repo.buildResources.lookup b = old at hd
  -- Unless the owner claims, its lease and its phase were what they are.
  have before (hclaim : ∀ o e ls, op ≠ .claimBuildLease b o e ls)
      (hrel : ∀ o, op ≠ .releaseBuildLease b o) :
      (session b o.drawer l).lease = some (o, [.queued, .running]) ∧
        ((cleaning b).stage b o.drawer l).phase ≠ .concluded := by
    refine ⟨by rwa [session_lease_call _ (fun o e ls _ h => (hclaim o e ls h).elim) hrel] at hls, ?_⟩
    intro hx
    by_cases ht : t = o.drawer
    · subst ht
      rw [Conduct.stage_call_self] at hp
      exact hp (hc.concluded hclaim hx)
    · rw [Conduct.stage_call_other ht] at hp
      exact hp hx
  cases hd with
  | same hr =>
      by_cases hrel : ∃ o', op = .releaseBuildLease b o'
      · obtain ⟨o', rfl⟩ := hrel
        -- A release that released nothing: its session is over, the owner's is not.
        by_cases ht : t = o.drawer
        · rw [ht, session_call_self] at hls
          simp [Session.observe] at hls
        · rw [session_call_other ht] at hls
          rw [Conduct.stage_call_other ht] at hp
          exact h m o hold ho hls hp
      · by_cases hclaim : ∃ o' e ls, op = .claimBuildLease b o' e ls
        · obtain ⟨o', e, ls, rfl⟩ := hclaim
          obtain rfl := hr rfl
          by_cases ht : t = o.drawer
          · subst ht
            rw [session_call_self] at hls
            rw [Conduct.stage_call_self] at hp
            exact h m o hold ho (by simpa [Session.observe] using hls)
              (by simpa [Cycle.observe] using hp)
          · rw [session_call_other ht] at hls
            rw [Conduct.stage_call_other ht] at hp
            exact h m o hold ho hls hp
        · obtain ⟨hls', hp'⟩ := before (fun o e ls heq => hclaim ⟨o, e, ls, heq⟩)
            fun o heq => hrel ⟨o, heq⟩
          exact h m o hold ho hls' hp'
  | ensured _ hb =>
      have howner := ho.1
      rw [hb.leaseOwner] at howner
      cases howner
  | @stored m₀ y o' ls' hs' hheld =>
      obtain ⟨hls', hp'⟩ := before (by simp) (by simp)
      exact h m₀ o hold ho hls' hp'
  | @owned m₀ f e o' ls' hs' hown hheld hholds hf =>
      obtain rfl : o = o' := by
        have howner := ho.1
        rw [BuildResources.modelCopy_leaseOwner] at howner
        exact Option.some.inj (howner.symm.trans hheld.1)
      obtain rfl : o.drawer = t := hs.drawer hs'
      obtain ⟨hls', hp'⟩ := before (by simp) (by simp)
      rw [Conduct.stage_call_self] at hp
      cases hs'.symm.trans hls'
      cases hc rfl with
      | pending p o' => exact h m₀ o hold hheld hls' hp'
      | accept hs₂ _ _ _ => cases hs'.symm.trans hs₂
      | undispatch g => cases hown
      | running _ _ => exact .inr (by simp)
      | abandon _ _ err => exact absurd (by simp [Cycle.observe, Phase.after, abandonedFields]) hp
      | conclude _ _ hf =>
          rcases hf.cleanupStatus with e' | e' <;>
            exact absurd (by simp [Cycle.observe, Phase.after, e']) hp
  | @undispatched m₀ e hq hholds =>
      have hw := hc rfl
      generalize hf : undispatchedFields = f at hw
      cases hw with
      | undispatch g => exact absurd ho (hu m₀ g rfl hold hq
          (by simpa [ResourceExpectation.holds, hq] using hholds) o)
      | @abandon o' hs' hp' err =>
          -- The owner's own conclusion, with the text of the report.
          obtain rfl : o' = o := by
            have howner : m₀.leaseOwner = some o' := by
              simpa [ResourceExpectation.holds] using hholds
            exact Option.some.inj (howner.symm.trans ho.1)
          obtain rfl : o'.drawer = t := hs.drawer hs'
          rw [Conduct.stage_call_self] at hp
          exact absurd (by simp [Cycle.observe, Phase.after, undispatchedFields]) hp
      | conclude _ _ _ => simp [ResourceExpectation.holds, hq] at hholds
      | pending _ _ | accept _ _ _ _ | running _ _ =>
          cases congrArg ResourceFields.cleanupStatus hf
  | @claimed m₀ o' e ls' hdr hno hst hfree =>
      obtain rfl : o = o' := (Option.some.inj ho.1).symm
      obtain rfl : o.drawer = t := (hs.drawn t o hdr).1
      rw [session_call_self] at hls
      obtain rfl : ls' = [.queued, .running] := by simpa [Session.observe] using hls
      simpa using hst
  | released _ _ => cases ho.1

/-- No call starts a generation again that has ended. -/
theorem Runner.not_running (h : Runner b w l) (hs : Sessioned b w l)
    (ha : (session b t l).allows b op)
    (hc : ((cleaning b).stage b t l).allows b (session b t l) op)
    (he : exec t op a w = some (r, w')) {m m' : BuildResources}
    (hm : w.repo.buildResources.lookup b = some m)
    (hm' : w'.repo.buildResources.lookup b = some m') (hdone : m.Concluded) :
    m'.cleanupStatus ≠ .running := by
  have hne : m.cleanupStatus ≠ .running := by
    rcases hdone with e | e <;> simp [e]
  have hd := manifest_deed ha he
  rw [hm, hm'] at hd
  cases hd with
  | same _ | stored _ _ | claimed _ _ _ _ | released _ _ => exact hne
  | @owned _ f e o ls hs' hown hheld hholds hf =>
      obtain rfl : o.drawer = t := hs.drawer hs'
      cases hc rfl with
      | pending p o' => exact hne
      | accept _ _ _ _ => simp [queuedFields]
      | undispatch g => cases hown
      | running hs₂ hp =>
          cases hs'.symm.trans hs₂
          have hopen := h m o hm hheld hs' (by rw [hp]; simp)
          rcases hdone with e | e <;> rw [e] at hopen <;> rcases hopen with e' | e' <;> cases e'
      | abandon _ _ err => simp [abandonedFields]
      | conclude _ _ hf => rcases hf.cleanupStatus with e' | e' <;> simp [e']
  | undispatched hq hholds => simp [undispatchedFields]

theorem conducted_runner : Conducted (cleaning b) b S (Unheld b) (fun _ _ => True) (Runner b) where
  call h _ hs hu ha hc _ he := h.call hs hu ha hc he
  start h := h
  env {w l x w'} h _ _ hx := by
    intro m o hm ho hls hp
    obtain ⟨m₀, hm₀, ho₀⟩ := Held.of_env hx ⟨m, hm, ho⟩
    have hr := disturb_manifest hx b
    rw [hm₀, hm] at hr
    cases hr with
    | same => exact h m o hm₀ ho₀ hls hp
    | renewed _ => exact h m₀ o hm₀ ho₀ hls hp

end

/-! ### Along every run -/

section
variable {S : Settings} {b : BuildId} {c₀ c c' : Config (orchestrator S)}
  {mv : Move (orchestrator S)}

theorem run_runner (hc : Boot c₀) (hr : Run (Calling (Unheld b)) c₀ c) :
    Runner b c.world c.log := by
  refine conducted_runner.boot (cleaning_kept S b) hc hr (fun _ _ => trivial) fun m o hm => ?_
  simp [hc.repo.buildResources] at hm

/-- **One step.**  A generation that has ended stays ended, or a later one begins. -/
theorem step_concluded (hc : Boot c₀) (hr : Run (Calling (Unheld b)) c₀ c)
    (hs : Machine.step c mv = some c') {m : BuildResources}
    (hm : c.world.repo.buildResources.lookup b = some m) (hdone : m.Concluded) :
    ∃ m', c'.world.repo.buildResources.lookup b = some m' ∧
      (m'.cleanupGeneration = m.cleanupGeneration ∧ m'.Concluded ∨
        m'.cleanupGeneration = m.cleanupGeneration + 1) := by
  have hany : Run Anything c₀ c := hr.mono fun _ _ _ => trivial
  obtain ⟨⟨m', hm', hpass⟩, -⟩ := step_passes hc hany hs hm
  refine ⟨m', hm', ?_⟩
  rcases hpass.generation with ⟨hgen, hqueued⟩ | ⟨hgen, -, -⟩
  swap
  · exact .inr hgen
  refine .inl ⟨hgen, ?_⟩
  have hleft : m.cleanupStatus ≠ .notStarted := by
    rcases hdone with e | e <;> simp [e]
  have hnotQueued : m'.cleanupStatus ≠ .queued := by
    intro e
    rcases hdone with e' | e' <;> rw [hqueued e] at e' <;> cases e'
  have hnotRunning : m'.cleanupStatus ≠ .running := by
    rcases (cleaning_kept S b).step_cases hc hany hs with
        ⟨t, op, a, r, w, ha, hcl, -, he, hw, -⟩ | ⟨t, T, hw, -⟩ | ⟨x, hx, -⟩
    · rw [hw] at hm'
      exact (run_runner hc hr).not_running (run_sessioned hc hany b) ha hcl he hm hm' hdone
    · rw [hw, hm] at hm'
      cases hm'
      rcases hdone with e | e <;> simp [e]
    · have hd := disturb_manifest hx b
      rw [hm, hm'] at hd
      cases hd <;> rcases hdone with e | e <;> simp [e]
  have hnotFresh := hpass.left hleft
  unfold BuildResources.Concluded
  cases hst : m'.cleanupStatus <;> simp_all

/-- **Concluded once.**  Where no report of a failed dispatch overtakes a runner that has the
lease: once a manifest is `PARTIAL_FAILED` or `SUCCEEDED` at a generation, it is never `QUEUED` or
`RUNNING` at that generation again. -/
theorem generation_concluded_once (hc : Boot c₀) (h₀ : Run (Calling (Unheld b)) c₀ c)
    (hr : Run (Calling (Unheld b)) c c') {m : BuildResources}
    (hm : c.world.repo.buildResources.lookup b = some m) (hdone : m.Concluded) :
    ∃ m', c'.world.repo.buildResources.lookup b = some m' ∧
      m.cleanupGeneration ≤ m'.cleanupGeneration ∧
      (m'.cleanupGeneration = m.cleanupGeneration →
        m'.cleanupStatus ≠ .queued ∧ m'.cleanupStatus ≠ .running) := by
  have hrun : ∃ m', c'.world.repo.buildResources.lookup b = some m' ∧
      m.cleanupGeneration ≤ m'.cleanupGeneration ∧
      (m'.cleanupGeneration = m.cleanupGeneration → m'.Concluded) := by
    induction hr with
    | refl => exact ⟨m, hm, le_rfl, fun _ => hdone⟩
    | @snoc c₁ c₂ mv hr hok hs ih =>
        obtain ⟨m₁, hm₁, hle, hstay⟩ := ih
        have hrun₁ := h₀.trans hr
        by_cases hgen : m₁.cleanupGeneration = m.cleanupGeneration
        · obtain ⟨m₂, hm₂, ⟨hgen₂, hdone₂⟩ | hgen₂⟩ := step_concluded hc hrun₁ hs hm₁ (hstay hgen)
          · exact ⟨m₂, hm₂, by omega, fun _ => hdone₂⟩
          · exact ⟨m₂, hm₂, by omega, fun h => by omega⟩
        · obtain ⟨⟨m₂, hm₂, hpass⟩, -⟩ :=
            step_passes hc (hrun₁.mono fun _ _ _ => trivial) hs hm₁
          have hle₂ : m₁.cleanupGeneration ≤ m₂.cleanupGeneration := by
            rcases hpass.generation with ⟨hgen₂, -⟩ | ⟨hgen₂, -⟩ <;> omega
          exact ⟨m₂, hm₂, by omega, fun h => by omega⟩
  obtain ⟨m', hm', hle, hstay⟩ := hrun
  refine ⟨m', hm', hle, fun hgen => ?_⟩
  rcases hstay hgen with e | e <;> simp [e]

/-- Whether a call names the owner of the lease, if it writes the manifest. -/
def Sample.named (_ : World) (_ : List (Event (orchestrator Sample.settings))) (_ : Nat) :
    Op → Bool
  | .updateBuildResources _ _ e => (e.leaseOwner matches .eq _)
  | _ => true

theorem Sample.named_unheld (w : World) (l : List (Event (orchestrator Sample.settings))) (t : Nat)
    (op : Op) (h : named w l t op = true) : Unheld Sample.build w l t op := by
  rintro m g rfl
  cases h

theorem Sample.cleaned_plays : (Machine.play start cleaned).isSome = true := by decide +kernel

/-- The sample system, cleaned up. -/
def Sample.settled : Config (orchestrator Sample.settings) := reached cleaned cleaned_plays

theorem generation_concluded_once_cleaned :
    generation Sample.build Sample.settled.world = 1 ∧
    ∀ c', Run (Calling (Unheld Sample.build)) Sample.settled c' →
      ∃ m', c'.world.repo.buildResources.lookup Sample.build = some m' ∧
        1 ≤ m'.cleanupGeneration ∧ (m'.cleanupGeneration = 1 →
          m'.cleanupStatus ≠ .queued ∧ m'.cleanupStatus ≠ .running) := by
  have hstate : (Sample.settled.world.repo.buildResources.lookup Sample.build).map
      (fun m => (m.cleanupStatus, m.cleanupGeneration)) = some (.succeeded, 1) := by
    decide +kernel
  obtain ⟨m, hm, hdone⟩ := Option.map_eq_some_iff.mp hstate
  rw [Prod.mk.injEq] at hdone
  refine ⟨by rw [generation, hm]; exact hdone.2, fun c' hr => ?_⟩
  have hrun : Run (Calling (Unheld Sample.build)) Sample.start Sample.settled :=
    Sample.reached_calling Sample.named Sample.named_unheld Sample.cleaned Sample.cleaned_plays
      (by decide +kernel)
  have h := generation_concluded_once Sample.boot hrun hr hm (.inr hdone.1)
  rwa [hdone.2] at h

namespace Sample

/-- The broker delivers the message, and the call raises. -/
def noBroker : Answers
  | .dispatchBuildCleanup _ => .error (exc .runtimeError "broker")
  | op => replies op

/-- A cleanup is accepted and its dispatch fails; the runner has the lease when that is noted. -/
def unanswered : Schedule := delivered ++ doing 5 (.requestCleanup build) 12 ++
  [.run 5 noBroker] ++ doing 6 (.cleanupBuild build) 5 ++ calls 5 1

def unheeded : Config (orchestrator settings) := reached unanswered (by decide +kernel)

theorem unanswered_plays : (Machine.play unheeded (calls 6 1)).isSome = true := by decide +kernel

/-- The runner goes on. -/
def resurrected : Config (orchestrator settings) :=
  (Machine.play unheeded (calls 6 1)).get unanswered_plays

end Sample

/-- A generation that has ended as `PARTIAL_FAILED` runs. -/
theorem generation_resurrected : ¬ ∀ (S : Settings) (b : BuildId) (c₀ c c' : Config (orchestrator S))
    (m m' : BuildResources), Boot c₀ → Run Anything c₀ c → Run Anything c c' →
    c.world.repo.buildResources.lookup b = some m →
    c'.world.repo.buildResources.lookup b = some m' → m.Concluded →
    m'.cleanupGeneration = m.cleanupGeneration →
    m'.cleanupStatus ≠ .queued ∧ m'.cleanupStatus ≠ .running := by
  intro h
  have hbefore : (Sample.unheeded.world.repo.buildResources.lookup Sample.build).map
      (fun m => (m.cleanupStatus, m.cleanupGeneration)) = some (.partialFailed, 1) := by
    decide +kernel
  have hafter : (Sample.resurrected.world.repo.buildResources.lookup Sample.build).map
      (fun m => (m.cleanupStatus, m.cleanupGeneration)) = some (.running, 1) := by
    decide +kernel
  obtain ⟨m, hm, hst⟩ := Option.map_eq_some_iff.mp hbefore
  obtain ⟨m', hm', hst'⟩ := Option.map_eq_some_iff.mp hafter
  rw [Prod.mk.injEq] at hst hst'
  have hboth := h Sample.settings Sample.build Sample.start Sample.unheeded Sample.resurrected m m'
    Sample.boot (Sample.reached_run Sample.unanswered (by decide +kernel))
    (.of_play (Option.some_get Sample.unanswered_plays).symm) hm hm' (.inl hst.1)
    (hst'.2.trans hst.2.symm)
  exact hboth.2 hst'.1

end

end Orchestrator
