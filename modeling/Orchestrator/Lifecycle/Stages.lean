import Orchestrator.Lifecycle.Creation
import Orchestrator.Runtime.Sample

/-!
# Lifecycle — statuses and stages

The status of a build moves along `ALLOWED_BUILD_TRANSITIONS`, and back once: a recheck reopens a
delivered build.  `stage` and `stage_history` are a projection of the status, which `transition`
maintains and the recheck does not.

* `StatusStep`: what a step makes of a status; `run_statuses`: every step of every run.
* `BuildJob.Mirrored`: the stage is the status, at the end of a short history.
* `Reopens b w op`: the call takes a delivered build back.
* `stage_mirrors_status`: the status machine, and when the stage follows it.
-/

namespace Orchestrator
open Interleaving

variable {S : Settings} {b : BuildId}

/-- What a step makes of the status of a build; `submitted` says that it is a step of
`submit`. -/
inductive StatusStep (submitted : Prop) : BuildStatus → BuildStatus → Prop where
  | same (s : BuildStatus) : StatusStep submitted s s
  | table {s target : BuildStatus} (h : target ∈ allowedBuildTransitions s) :
      StatusStep submitted s target
  | reopened (h : submitted) : StatusStep submitted .succeeded .deploying

/-- A failed or cancelled build stays as it is. -/
theorem StatusStep.final {submitted : Prop} {s target : BuildStatus}
    (h : StatusStep submitted s target) (hs : s = .failed ∨ s = .cancelled) : target = s := by
  rcases hs with rfl | rfl
  all_goals
    cases h with
    | same => rfl
    | table ht => simp [allowedBuildTransitions] at ht

/-- The stage is the status, and the last of a short history. -/
structure BuildJob.Mirrored (j : BuildJob) : Prop where
  stage : j.stage = some j.status.value
  last : j.stageHistory.getLast? = j.stage
  length : j.stageHistory.length ≤ 32

/-- The call takes a delivered build back. -/
def Reopens (b : BuildId) (w : World) (op : Op) : Prop :=
  ∃ l f j, op = .transitionBuild b l .deploying f ∧ w.repo.builds.lookup b = some j ∧
    j.status ∈ l ∧ j.status = .succeeded

/-! ### Who rechecks -/

theorem submit_transitions (appid : String) (b : BuildId) :
    (DynamicCheckService.submit appid b).Uses fun op : Op =>
      ∀ b' l s f, op = .transitionBuild b' l s f → b' = b := by
  have hG := Prog.uses_compositional (I := api) fun op =>
    ∀ b' l s f, op = .transitionBuild b' l s f → b' = b
  refine DynamicCheckService.submit_of hG (fun op hop => uses_one ?_) ?_ appid
  · rintro b' l s f rfl
    obtain ⟨_, _, k, hk, hd⟩ := hop
    cases hd with
    | quiet hq => cases hq
    | _ => simp at hk
  · refine buildLease_uses ?_ (by simp) (by simp) trivial fun u => ?_
    · rintro _ hq b' l s f rfl
      cases hq
    · refine (DynamicCheckService.reopen_uses ⟨b, some u⟩).mono ?_
      rintro _ ⟨k, hk, hd⟩ b' l s f rfl
      cases hd with
      | quiet hq => cases hq
      | _ => rfl

/-- What every call of a task is: one of its deeds, and, in a recheck, no transition of another
build. -/
theorem Task.body_deeds (S : Settings) (T : Task) : (T.body S).Uses fun op : Op =>
    Does T.kinds op ∧ ∀ appid b, T = .submitDynamic appid b →
      ∀ b' l s f, op = .transitionBuild b' l s f → b' = b := by
  refine (T.body_does S).and ?_
  cases T with
  | submitDynamic appid b =>
      refine .bind ((submit_transitions appid b).mono fun op h => ?_) fun _ => trivial
      rintro _ _ ⟨⟩
      exact h
  | _ => exact (Task.body_does S _).mono fun _ _ _ _ h => by cases h

theorem Does.recheck {ks : List Kind} {b : BuildId} {l : List BuildStatus}
    {target : BuildStatus} {f : BuildFields} (h : Does ks (.transitionBuild b l target f))
    (hf : f.stage = .keep) : .recheck ∈ ks := by
  obtain ⟨b', o, k, hk, hd⟩ := h
  cases hd with
  | quiet hq => cases hq
  | move _ _ _ h | deliver _ h | fail _ h => cases hf.symm.trans h.stage
  | recheck => exact hk

/-- Only `submit` rechecks. -/
theorem Task.of_recheck {T : Task} (h : .recheck ∈ T.kinds) :
    ∃ appid b, T = .submitDynamic appid b := by
  cases T with
  | submitDynamic appid b => exact ⟨appid, b, rfl⟩
  | _ => simp [Task.kinds] at h

/-! ### Steps -/

section
variable {ok : Config (orchestrator S) → Move (orchestrator S) → Prop}
  {c₀ c c' : Config (orchestrator S)} {m : Move (orchestrator S)}

/-- What a step from a reached configuration does to a build. -/
theorem step_build (hc : Boot c₀) (hr : Run ok c₀ c) (hs : Machine.step c m = some c')
    (b : BuildId) :
    (∃ t a op k T, m = .run t a ∧ c.threads t = some (.call op k) ∧ .start t T ∈ c.log ∧
      Does T.kinds op ∧ (∀ appid b, T = .submitDynamic appid b →
        ∀ b' l s f, op = .transitionBuild b' l s f → b' = b) ∧
      ∃ r, BuildDeed b (c.world.repo.builds.lookup b) (c'.world.repo.builds.lookup b) op r) ∨
    (∀ t a, m ≠ .run t a) ∧ c'.world.repo.builds = c.world.repo.builds := by
  rcases Machine.step_cases hs with ⟨t, a, op, k, r, w, rfl, hk, he, rfl⟩ |
      ⟨t, T, rfl, -, rfl⟩ | ⟨x, w, rfl, he, rfl⟩
  · obtain ⟨T, hT, ⟨hdoes, hsub⟩, -⟩ := hr.uses (Task.body_deeds S) hc.good hc.threads hk
    exact .inl ⟨t, a, op, k, T, rfl, hk, hT, hdoes, hsub, r, next_deed hc hr hk he b⟩
  · exact .inr ⟨by simp, rfl⟩
  · exact .inr ⟨by simp, disturb_builds he⟩

/-- **Statuses.**  Every step of every run keeps a build, and moves its status along the table,
or is a step of `submit` that reopens it. -/
theorem run_statuses (hc : Boot c₀) (hr : Run ok c₀ c) (hs : Machine.step c m = some c')
    {j : BuildJob} (hj : c.world.repo.builds.lookup b = some j) :
    ∃ j', c'.world.repo.builds.lookup b = some j' ∧
      StatusStep (∃ t a appid, m = .run t a ∧ .start t (.submitDynamic appid b) ∈ c.log)
        j.status j'.status := by
  rcases step_build hc hr hs b with ⟨t, a, op, k, T, rfl, hk, hT, hdoes, hsub, r, hd⟩ |
      ⟨-, he⟩
  · rw [hj] at hd
    generalize c'.world.repo.builds.lookup b = new at hd
    cases hd with
    | same _ => exact ⟨j, rfl, .same _⟩
    | updated _ => exact ⟨_, rfl, .same _⟩
    | moved ht _ => exact ⟨_, rfl, .table ht⟩
    | rechecked run role hr =>
        obtain ⟨appid, b', rfl⟩ := Task.of_recheck (hdoes.recheck rfl)
        obtain rfl := hsub appid b' rfl _ _ _ _ rfl
        refine ⟨_, rfl, ?_⟩
        rw [BuildJob.moveTo_status]
        rcases hr with e | e <;> rw [e]
        · exact .same _
        · exact .reopened ⟨t, a, appid, rfl, hT⟩
  · exact ⟨j, by rw [he]; exact hj, .same _⟩

end

/-! ### Stages -/

/-- Whatever happens, the stage is the last of a short history, and it is the status unless the
build was reopened. -/
structure BuildJob.Staged (j : BuildJob) : Prop where
  stage : j.stage = some j.status.value ∨
    j.status = .deploying ∧ j.stage = some BuildStatus.succeeded.value
  last : j.stageHistory.getLast? = j.stage
  length : j.stageHistory.length ≤ 32

theorem BuildJob.Mirrored.of_moving {j : BuildJob} {target : BuildStatus} {f : BuildFields}
    (h : f.Moving target) : (j.moveTo target f).Mirrored := by
  obtain ⟨history, hh, hlast, hlen⟩ := h.stageHistory
  constructor
  · simp [h.stage, Change.apply]
  · simp [h.stage, hh, hlast, Change.apply]
  · simpa [hh, Change.apply] using hlen

theorem BuildJob.Mirrored.of_new {j : BuildJob} (h : j.New) : j.Mirrored := by
  constructor
  · rw [h.stage, h.status]
  · rw [h.stage, h.stageHistory]; rfl
  · rw [h.stageHistory]; decide

theorem BuildJob.Mirrored.staged {j : BuildJob} (h : j.Mirrored) : j.Staged :=
  ⟨.inl h.stage, h.last, h.length⟩

theorem BuildDeed.staged {old new : Option BuildJob} {op : Op} {r : op.Ret}
    (h : BuildDeed b old new op r)
    (hold : ∀ j, old = some j → j.Staged) {j : BuildJob} (hj : new = some j) : j.Staged := by
  cases h with
  | same _ => exact hold j hj
  | created _ hn => cases hj; exact (BuildJob.Mirrored.of_new hn).staged
  | @updated j₀ f hf =>
      cases hj
      have h₀ := hold j₀ rfl
      constructor
      · simpa [hf.stage.apply] using h₀.stage
      · simpa [hf.stage.apply, hf.stageHistory.apply] using h₀.last
      · simpa [hf.stageHistory.apply] using h₀.length
  | moved _ hf => cases hj; exact (BuildJob.Mirrored.of_moving hf).staged
  | @rechecked j₀ run role hs =>
      cases hj
      have h₀ := hold j₀ rfl
      refine ⟨?_, h₀.last, h₀.length⟩
      rcases hs with e | e
      · rcases h₀.stage with hst | ⟨-, hst⟩
        · exact .inl (by rw [e] at hst; exact hst)
        · exact .inr ⟨rfl, hst⟩
      · rcases h₀.stage with hst | ⟨e', -⟩
        · exact .inr ⟨rfl, by rw [e] at hst; exact hst⟩
        · cases e.symm.trans e'

/-- The stage follows the status in every step that does not reopen a delivered build. -/
theorem BuildDeed.mirrored {w : World} {new : Option BuildJob} {op : Op} {r : op.Ret}
    (h : BuildDeed b (w.repo.builds.lookup b) new op r) (ho : ¬ Reopens b w op)
    (hold : ∀ j, w.repo.builds.lookup b = some j → j.Mirrored) {j : BuildJob}
    (hj : new = some j) : j.Mirrored := by
  generalize hl : w.repo.builds.lookup b = old at h
  cases h with
  | same _ => exact hold j (hl.trans hj)
  | created _ hn => cases hj; exact .of_new hn
  | @updated j₀ f hf =>
      cases hj
      have h₀ := hold j₀ hl
      constructor
      · simpa [hf.stage.apply] using h₀.stage
      · simpa [hf.stage.apply, hf.stageHistory.apply] using h₀.last
      · simpa [hf.stageHistory.apply] using h₀.length
  | moved _ hf => cases hj; exact .of_moving hf
  | @rechecked j₀ run role hs =>
      cases hj
      have h₀ := hold j₀ hl
      rcases hs with e | e
      · exact ⟨h₀.stage.trans (by rw [e]; rfl), h₀.last, h₀.length⟩
      · exact absurd ⟨_, _, j₀, rfl, hl, by simp, e⟩ ho

section
variable {c₀ c c' : Config (orchestrator S)}

theorem run_staged {ok : Config (orchestrator S) → Move (orchestrator S) → Prop}
    (hc : Boot c₀) (hr : Run ok c₀ c) (b : BuildId) :
    ∀ j, c.world.repo.builds.lookup b = some j → j.Staged := by
  induction hr with
  | refl => intro j hj; simp [hc.repo.builds] at hj
  | snoc hr _ hs ih =>
      intro j hj
      rcases step_build hc hr hs b with ⟨t, a, op, k, T, -, -, -, -, -, r, hd⟩ | ⟨-, he⟩
      · exact hd.staged ih hj
      · exact ih j (he ▸ hj)

/-- No step of the run takes the delivered build `b` back. -/
abbrev Delivering (b : BuildId) : Config (orchestrator S) → Move (orchestrator S) → Prop :=
  Calling fun w _ _ op => ¬ Reopens b w op

theorem run_mirrored (hc : Boot c₀) (hr : Run (Delivering b) c₀ c) :
    ∀ j, c.world.repo.builds.lookup b = some j → j.Mirrored := by
  induction hr with
  | refl => intro j hj; simp [hc.repo.builds] at hj
  | snoc hr hok hs ih =>
      intro j hj
      rcases step_build hc hr hs b with ⟨t, a, op, k, T, rfl, hk, -, -, -, r, hd⟩ | ⟨-, he⟩
      · exact hd.mirrored (hok op k hk) ih hj
      · exact ih j (he ▸ hj)

/-- A step that takes a delivered build back leaves its stage behind. -/
theorem reopened_not_mirrored {ok : Config (orchestrator S) → Move (orchestrator S) → Prop}
    (hc : Boot c₀) (hr : Run ok c₀ c) {t : Nat} {a : Answers} {op : Op}
    {k : op.Ret → P Unit} (hk : c.threads t = some (.call op k))
    (hs : Machine.step c (.run t a) = some c') (ho : Reopens b c.world op) {j : BuildJob}
    (hj : c'.world.repo.builds.lookup b = some j) : ¬ j.Mirrored := by
  have hstaged := run_staged hc hr b
  rcases step_build hc hr hs b with ⟨t, a, op', k', T, hm, hk', -, -, -, r, hd⟩ | ⟨hm, -⟩
  · cases hm
    cases hk.symm.trans hk'
    obtain ⟨l, f, j₀, rfl, hj₀, hl, hst⟩ := ho
    rw [hj₀, hj] at hd
    cases hd with
    | same h => exact absurd hl ((h rfl).2 _ rfl)
    | moved ht _ => rw [hst] at ht; simp [allowedBuildTransitions] at ht
    | rechecked run role _ =>
        intro h
        -- The recheck leaves the stage of the delivery.
        have hstage := (hstaged _ hj₀).stage
        have hmirror : j₀.stage = some BuildStatus.deploying.value := h.stage
        rw [hst, hmirror] at hstage
        rcases hstage with e | ⟨e, -⟩
        · exact absurd e (by decide)
        · cases e
  · exact absurd rfl (hm t a)

/-- **The status machine and its projection.**  In every run, `FAILED` and `CANCELLED` are final,
`SUCCEEDED` is left for `DEPLOYING` by `submit` alone, and every other change of a status is in
the table.  The stage is the status as long as no delivered build is taken back, and no longer
than that. -/
theorem stage_mirrors_status (hc : Boot c₀) (hr : Run Anything c₀ c) (b : BuildId) :
    (∀ m c' j, Machine.step c m = some c' → c.world.repo.builds.lookup b = some j →
      ∃ j', c'.world.repo.builds.lookup b = some j' ∧
        StatusStep (∃ t a appid, m = .run t a ∧ .start t (.submitDynamic appid b) ∈ c.log)
          j.status j'.status ∧
        (j.status = .failed ∨ j.status = .cancelled → j'.status = j.status)) ∧
    (Run (Delivering b) c₀ c →
      ∀ j, c.world.repo.builds.lookup b = some j → j.Mirrored) ∧
    ∀ t a op k c' j, c.threads t = some (.call op k) → Machine.step c (.run t a) = some c' →
      Reopens b c.world op → c'.world.repo.builds.lookup b = some j → ¬ j.Mirrored := by
  refine ⟨fun m c' j hs hj => ?_, fun hr => run_mirrored hc hr, ?_⟩
  · obtain ⟨j', hj', h⟩ := run_statuses hc hr hs hj
    exact ⟨j', hj', h, h.final⟩
  · intro t a op k c' j hk hs ho hj
    exact reopened_not_mirrored hc hr hk hs ho hj

end

/-- The build of the sample, delivered and submitted to another check. -/
def Sample.rechecked : Sample.Schedule := delivered ++ doing 5 (.submitDynamic "app" build) 19

/-- A recheck of a delivered build: it is deploying, at the stage `succeeded`. -/
theorem stage_mirrors_status_rechecked : ¬ ∀ c, Run Anything Sample.start c →
    ∀ j, c.world.repo.builds.lookup Sample.build = some j → j.stage = some j.status.value := by
  intro h
  have hj := h _ (Sample.reached_run Sample.rechecked (by decide +kernel)) _
    (Option.some_get (by decide +kernel)).symm
  exact absurd hj (by decide +kernel)

/-- The build of the sample is delivered, at the stage `succeeded`. -/
theorem stage_mirrors_status_delivered :
    ∃ j, (Sample.reached Sample.delivered (by decide +kernel)).world.repo.builds.lookup
      Sample.build = some j ∧ j.status = .succeeded ∧ j.Mirrored := by
  have hr : Run (Delivering Sample.build) Sample.start
      (Sample.reached Sample.delivered (by decide +kernel)) := by
    refine Sample.reached_calling (fun w _ _ op => match op with
      | .transitionBuild b _ .deploying _ =>
          !(w.repo.builds.lookup b).any fun j => j.status == .succeeded
      | _ => true) (fun w l t op hop => ?_) Sample.delivered _ (by decide +kernel)
    rintro ⟨ls, f, j, rfl, hj, -, hs⟩
    simp [hj, hs] at hop
  refine ⟨_, (Option.some_get (by decide +kernel)).symm, by decide +kernel, ?_⟩
  exact (stage_mirrors_status Sample.boot (Sample.reached_run _ _) Sample.build).2.1 hr _
    (Option.some_get (by decide +kernel)).symm

end Orchestrator
