import Orchestrator.Lifecycle.Creation
import Orchestrator.Runtime.Sample

/-!
# Lifecycle — one alert for a failed build

`BuildService.fail` reads the build, moves it to `FAILED` by a compare-and-set, and raises an
alert.  The call whose compare-and-set succeeds owes the alert; a call that finds the build
failed by another, between its two reads, raises one as well.

* `Report`, `reporting b`: what a thread owes for the failure of `b`, and whether it saw it.
* `Reported b w l`: how many alerts there are, against how many calls were overtaken.
* `one_alert`: a failed build has one alert exactly if no call of `fail` was overtaken.
-/

namespace Orchestrator
open Interleaving

variable {S : Settings} {b : BuildId}

/-- The alert a thread owes, having failed the build; and whether it has seen it failed. -/
structure Report where
  owed : Option String := none
  seen : Bool := false

namespace Report

def observe (b : BuildId) (v : Report) : (op : Op) → op.Ret → Report
  | .getBuild b', r =>
      if b' = b ∧ r.any (·.status == .failed) then { v with seen := true } else v
  | .transitionBuild b' _ target f, r =>
      if b' = b ∧ target = .failed ∧ r.isSome then ⟨f.error.apply none, true⟩ else v
  | .createAlert a, _ => if a.buildId = some b then { v with owed := none } else v
  | _, _ => v

/-- The build is failed by who owes nothing for it, and an alert is raised by who owes it, or has
seen the build failed. -/
def allows (b : BuildId) (v : Report) : Op → Prop
  | .transitionBuild b' _ target _ => b' = b → target = .failed → v.owed = none
  | .createAlert a => a.buildId = some b →
      v.owed = some a.message ∨ v.owed = none ∧ v.seen = true
  | _ => True

end Report

abbrev reporting (b : BuildId) : Monitor api :=
  ⟨Report, {}, Report.allows b, Report.observe b⟩

/-! ### Every task pays what it owes -/

/-- Calls that neither fail `b` nor raise an alert for it. -/
theorem Deed.reporting {b' : BuildId} {o : Option Uuid} {k : Kind} {op : Op}
    (hd : Deed b' o k op) (hk : k.single = true ∨ b' ≠ b) {v : Report} (hv : v.owed = none) :
    v.allows b op ∧ ∀ r, (v.observe b op r).owed = none := by
  cases hd with
  | quiet hq =>
      cases op with
      | getBuild b' =>
          refine ⟨trivial, fun r => ?_⟩
          simp only [Report.observe]
          split_ifs <;> exact hv
      | _ => first | exact ⟨trivial, fun _ => hv⟩ | cases hq
  | move _ _ hf => exact ⟨fun _ e => absurd e hf, fun r => by simp [Report.observe, hf, hv]⟩
  | deliver => exact ⟨nofun, fun r => by simp [Report.observe, hv]⟩
  | recheck => exact ⟨nofun, fun r => by simp [Report.observe, hv]⟩
  | fail =>
      have hb := hk.resolve_left (by simp [Kind.single])
      exact ⟨fun e => absurd e hb, fun r => by simp [Report.observe, hb, hv]⟩
  | alert ha =>
      have hb := hk.resolve_left (by simp [Kind.single])
      refine ⟨fun e => absurd (Option.some.inj (ha.symm.trans e)) hb, fun r => ?_⟩
      simp only [Report.observe]
      split_ifs <;> first | rfl | exact hv
  | _ => exact ⟨trivial, fun _ => hv⟩

theorem Report.owed_getBuild (v : Report) (b' : BuildId) (r : Option BuildJob) :
    (v.observe b (.getBuild b') r).owed = v.owed := by
  simp only [Report.observe]
  split_ifs <;> rfl

theorem getBuild_reporting {v : Report} (hv : v.owed = none) :
    (BuildService.getBuild b).Obeys (reporting b) (fun r v' => v'.owed = none ∧
      ∀ j, r = .ok j → j.status = .failed → v'.seen = true) v := by
  rw [BuildService.getBuild, Prog.bind_eq, Prog.obeys_bind]
  refine ⟨trivial, fun r _ => ?_⟩
  rw [Prog.obeys_ret]
  cases r with
  | none => exact ⟨(v.owed_getBuild b none).trans hv, by rintro _ ⟨⟩⟩
  | some j =>
      refine ⟨(v.owed_getBuild b (some j)).trans hv, ?_⟩
      rintro _ ⟨⟩ hj
      simp [Report.observe, hj]

theorem recordEvent_reporting {v : Report} (appid : String) (b' : Option BuildId)
    (kind message : String) (level : EventLevel) :
    (recordEvent appid b' kind message level).Obeys (reporting b)
      (fun r v' => v' = v ∧ r.isOk = true) v :=
  ⟨trivial, fun _ _ => ⟨trivial, fun _ _ => ⟨rfl, rfl⟩⟩⟩

/-- A call that fails the build owes the alert, unless it finds the build failed. -/
theorem transition_reporting {message : String} {site : Option String} {v : Report}
    (hv : v.owed = none) :
    (BuildService.transition b .failed (BuildService.failFields message site)).Obeys
      (reporting b) (fun r v' => match r with
        | .ok _ => v'.owed = some message ∨ v'.owed = none ∧ v'.seen = true
        | .error _ => v'.owed = none) v := by
  rw [BuildService.transition, Prog.bind_eq, Prog.obeys_bind]
  refine (getBuild_reporting hv).mono fun r v h => ?_
  obtain ⟨hv, hseen⟩ := h
  cases r with
  | error e => exact hv
  | ok build =>
      dsimp only
      split
      · next hs => exact .inr ⟨hv, hseen build rfl hs⟩
      split
      · exact hv
      rw [Prog.bind_eq, Prog.obeys_bind]
      refine ⟨trivial, fun _ _ => ?_⟩
      rw [Prog.obeys_ret]
      dsimp only
      rw [Prog.bind_eq, Prog.obeys_bind]
      refine ⟨fun _ _ => hv, fun r _ => ?_⟩
      rw [Prog.obeys_ret]
      cases r with
      | none =>
          dsimp only
          rw [Prog.bind_eq, Prog.obeys_bind]
          -- Another step was faster: the build is read again.
          refine Prog.Obeys.mono (getBuild_reporting (by simpa [Report.observe] using hv))
            fun r v h => ?_
          obtain ⟨hv, hseen⟩ := h
          cases r with
          | error e => exact hv
          | ok current =>
              dsimp only
              split
              · next hs => exact .inr ⟨hv, hseen current rfl hs⟩
              · exact hv
      | some updated =>
          dsimp only
          rw [Prog.bind_eq, Prog.obeys_bind]
          refine (recordEvent_reporting _ _ _ _ _).mono fun r v h => ?_
          obtain ⟨rfl, hr⟩ := h
          cases r with
          | error e => cases hr
          | ok _ =>
              -- From here on the alert is owed.
              refine .inl ?_
              simp [Report.observe, BuildService.transitionFields, BuildService.failFields,
                Change.apply]

theorem fail_reporting (b' : BuildId) (message : String) (site : Option String) :
    (BuildService.fail b' message site).Keeps (reporting b) (·.owed = none) := by
  by_cases e : b' = b
  swap
  · exact (BuildService.fail_uses b' none message site).keeps fun v op hv ⟨k, _, hd⟩ =>
      let ⟨ha, ho⟩ := hd.reporting (.inr e) hv
      ⟨ha, fun r _ => ho r⟩
  subst e
  intro v hv
  rw [BuildService.fail, Prog.bind_eq, Prog.obeys_bind]
  refine (getBuild_reporting hv).mono fun r v h => ?_
  cases r with
  | error e => exact h.1
  | ok build =>
      dsimp only
      split
      · exact h.1
      rw [Prog.bind_eq, Prog.obeys_bind]
      refine Prog.Obeys.mono ((transition_reporting h.1).and_yields
        (BuildService.transition_yields _ _ _)) fun r v h => ?_
      cases r with
      | error e => exact h.1
      | ok failed =>
          obtain ⟨how, hb⟩ := h
          have hb := (hb failed rfl).1
          dsimp only
          rw [Prog.bind_eq, Prog.obeys_bind]
          refine ⟨trivial, fun u _ => ?_⟩
          rw [Prog.obeys_ret]
          dsimp only
          rw [Prog.bind_eq, Prog.obeys_bind]
          refine ⟨fun _ => how, fun _ _ => ?_⟩
          rw [Prog.obeys_ret]
          dsimp only
          rw [Prog.bind_eq, Prog.obeys_bind]
          refine (recordEvent_reporting _ _ _ _ _).mono fun r v h => ?_
          obtain ⟨rfl, hr⟩ := h
          cases r with
          | error e => cases hr
          | ok _ => simp [Report.observe, hb]

theorem reporting_blocks : Blocks fun {_} p => p.Keeps (reporting b) (·.owed = none) where
  compositional := Prog.keeps_compositional _
  single hk hd _ hv :=
    let ⟨ha, ho⟩ := hd.reporting (.inl hk) hv
    ⟨ha, fun r _ => ho r⟩
  create _ hk _ hv := ⟨trivial, fun b _ => ⟨trivial, fun _ _ => ⟨trivial, fun _ _ =>
    hk b _ hv⟩⟩⟩
  fail := fail_reporting

/-- A task that has ended owes nothing. -/
theorem body_reporting (S : Settings) (b : BuildId) (T : Task) :
    (T.body S).Obeys (reporting b) (fun _ v => v.owed = none) {} :=
  (reporting_blocks.tasking (S := S)).body T {} rfl

theorem disciplined_reporting (S : Settings) (b : BuildId) :
    Disciplined (orchestrator S) (reporting b) := fun T =>
  (body_reporting S b T).mono fun _ _ _ => trivial

/-! ### Counting alerts -/

abbrev report (b : BuildId) (t : Nat) (l : List (Event (orchestrator S))) : Report :=
  viewOf (reporting b) t l

/-- The alerts of `b`, the newest first. -/
def alertsOf (b : BuildId) (w : World) : List Alert :=
  w.repo.alerts.values.filter (·.buildId = some b)

/-- How many calls raised an alert for `b` that they did not owe. -/
def overtaken (b : BuildId) : List (Event (orchestrator S)) → Nat
  | [] => 0
  | .call t (.createAlert a) _ :: l =>
      overtaken b l + if a.buildId = some b ∧ (report b t l).owed = none then 1 else 0
  | _ :: l => overtaken b l

theorem alertsOf_insert {w : World} {x : Alert} (h : x.alertId ∉ w.repo.alerts) :
    (Table.values (w.repo.alerts.insert x.alertId x)).filter (·.buildId = some b) =
      if x.buildId = some b then x :: alertsOf b w else alertsOf b w := by
  simp only [Table.values, AList.entries_insert_of_notMem h, List.map_cons, List.filter_cons,
    decide_eq_true_eq, alertsOf]

/-- Who failed the build owes its alert, or has raised it; each overtaken call raised one more. -/
structure Reported (b : BuildId) (w : World) (l : List (Event (orchestrator S))) : Prop where
  seen : ∀ t, (report b t l).seen = true →
    ∃ j, w.repo.builds.lookup b = some j ∧ j.status = .failed
  unfailed : (∀ j, w.repo.builds.lookup b = some j → j.status ≠ .failed) →
    alertsOf b w = [] ∧ overtaken b l = 0 ∧ ∀ t, (report b t l).owed = none
  failed : ∀ j, w.repo.builds.lookup b = some j → j.status = .failed →
    (∃ t m, (report b t l).owed = some m ∧ (∀ t' ≠ t, (report b t' l).owed = none) ∧
      j.error = some m ∧ (alertsOf b w).length = overtaken b l) ∨
    ((∀ t, (report b t l).owed = none) ∧ (alertsOf b w).length = overtaken b l + 1 ∧
      ∃ a ∈ alertsOf b w, j.error = some a.message)

section
variable {t : Nat} {op : Op} {a : Answers} {w w' : World} {r : op.Ret}
  {l l' : List (Event (orchestrator S))}

theorem Reported.boot (h : w.repo.Pristine) : Reported (S := S) b w [] where
  seen _ ht := by cases ht
  unfailed _ := by simp [alertsOf, Table.values, h.alerts, overtaken]
  failed j hj := by simp [h.builds] at hj

/-- Who owes an alert failed the build. -/
theorem Reported.owes (h : Reported b w l) {m : String} (hm : (report b t l).owed = some m) :
    ∃ j, w.repo.builds.lookup b = some j ∧ j.status = .failed := by
  by_contra hn
  have hnone := (h.unfailed fun j hj hs => hn ⟨j, hj, hs⟩).2.2 t
  rw [hnone] at hm
  cases hm

/-- Nothing changes that matters. -/
theorem Reported.calm (h : Reported b w l) (howed : ∀ t, (report b t l').owed = (report b t l).owed)
    (halerts : alertsOf b w' = alertsOf b w) (hover : overtaken b l' = overtaken b l)
    (hseen : ∀ t, (report b t l').seen = true → (report b t l).seen = true ∨
      ∃ j, w.repo.builds.lookup b = some j ∧ j.status = .failed)
    (hold : ∀ j, w.repo.builds.lookup b = some j → j.status = .failed →
      ∃ j', w'.repo.builds.lookup b = some j' ∧ j'.status = .failed ∧ j'.error = j.error)
    (hnew : ∀ j', w'.repo.builds.lookup b = some j' → j'.status = .failed →
      ∃ j, w.repo.builds.lookup b = some j ∧ j.status = .failed) : Reported b w' l' where
  seen t ht := by
    obtain ⟨j, hj, hs⟩ := (hseen t ht).elim (h.seen t) id
    obtain ⟨j', hj', hs', -⟩ := hold j hj hs
    exact ⟨j', hj', hs'⟩
  unfailed hu := by
    simp only [halerts, hover, howed]
    refine h.unfailed fun j hj hs => ?_
    obtain ⟨j', hj', hs', -⟩ := hold j hj hs
    exact hu j' hj' hs'
  failed j' hj' hs' := by
    obtain ⟨j, hj, hs⟩ := hnew j' hj' hs'
    obtain ⟨j'', hj'', -, he⟩ := hold j hj hs
    cases hj'.symm.trans hj''
    simp only [halerts, hover, howed, he]
    exact h.failed j hj hs

/-- A call that raises an alert for `b`. -/
theorem Reported.raise (h : Reported b w l) {x : Alert} {u : Unit} (hx : x.buildId = some b)
    (hfree : x.alertId ∉ w.repo.alerts) (ha : (report b t l).allows b (.createAlert x))
    (hb : w'.repo.builds = w.repo.builds)
    (hw : w'.repo.alerts = w.repo.alerts.insert x.alertId x) :
    Reported b w' (.call t (.createAlert x) u :: l) := by
  have halerts : alertsOf b w' = x :: alertsOf b w := by
    rw [alertsOf, hw, alertsOf_insert hfree, if_pos hx]
  have hself : (report b t (.call t (.createAlert x) u :: l)).owed = none := by
    rw [report, viewOf_call_self]; simp [Report.observe, hx]
  have hother {t' : Nat} (e : t' ≠ t) :
      report b t' (.call t (.createAlert x) u :: l) = report b t' l :=
    viewOf_call_other (Ne.symm e) _ _ _
  obtain ⟨j, hj, hs⟩ : ∃ j, w.repo.builds.lookup b = some j ∧ j.status = .failed := by
    rcases ha hx with how | ⟨-, hseen⟩
    · exact h.owes how
    · exact h.seen t hseen
  refine ⟨fun _ _ => ⟨j, hb ▸ hj, hs⟩, fun hu => absurd hs (hu j (hb ▸ hj)), fun j' hj' _ => ?_⟩
  rw [hb, hj] at hj'
  cases hj'
  simp only [halerts, overtaken, hx, true_and, List.length_cons]
  rcases h.failed j hj hs with ⟨t₀, m, how, hsole, he, hlen⟩ | ⟨hnone, hlen, y, hy, he⟩
  · by_cases e : t = t₀
    -- The alert that was owed.
    · subst e
      rw [how, if_neg (by simp)]
      refine .inr ⟨fun t' => ?_, by omega, x, List.mem_cons_self, ?_⟩
      · by_cases e : t' = t
        · subst e; exact hself
        · rw [hother e]; exact hsole t' e
      · rcases ha hx with hm | ⟨hn, -⟩
        · rw [he, ← how, hm]
        · rw [how] at hn; cases hn
    · rw [if_pos (hsole t e)]
      refine .inl ⟨t₀, m, ?_, fun t' e' => ?_, he, by omega⟩
      · rw [hother (Ne.symm e)]; exact how
      · by_cases e'' : t' = t
        · subst e''; exact hself
        · rw [hother e'']; exact hsole t' e'
  · rw [if_pos (hnone t)]
    refine .inr ⟨fun t' => ?_, by omega, y, List.mem_cons_of_mem _ hy, he⟩
    by_cases e : t' = t
    · subst e; exact hself
    · rw [hother e]; exact hnone t'

/-- A call that fails the build. -/
theorem Reported.fail (h : Reported b w l) {j : BuildJob} {f : BuildFields}
    (hj : w.repo.builds.lookup b = some j)
    (hj' : w'.repo.builds.lookup b = some (j.moveTo .failed f))
    (hs : .failed ∈ allowedBuildTransitions j.status) (hf : f.Moving .failed)
    (hw : w'.repo.alerts = w.repo.alerts) :
    Reported b w' (.call t (.transitionBuild b [j.status] .failed f)
      (some (j.moveTo .failed f)) :: l) := by
  obtain ⟨message, he⟩ := hf.error
  have hopen : ∀ x, w.repo.builds.lookup b = some x → x.status ≠ .failed := by
    intro x hx e
    cases hj.symm.trans hx
    rw [e] at hs
    simp [allowedBuildTransitions] at hs
  obtain ⟨hnone, hover, howed⟩ := h.unfailed hopen
  have hself : (report b t (.call t (.transitionBuild b [j.status] .failed f)
      (some (j.moveTo .failed f)) :: l)).owed = some message := by
    rw [report, viewOf_call_self]; simp [Report.observe, he, Change.apply]
  refine ⟨fun _ _ => ⟨_, hj', rfl⟩, fun hu => absurd rfl (hu _ hj'), fun x hx _ => ?_⟩
  cases hj'.symm.trans hx
  refine .inl ⟨t, message, hself, fun t' e => ?_, ?_, ?_⟩
  · rw [report, viewOf_call_other (Ne.symm e)]; exact howed t'
  · simp [he, Change.apply]
  · rw [alertsOf, hw]
    change (alertsOf b w).length = overtaken b l
    rw [hnone, hover, List.length_nil]

/-- Any other call. -/
theorem Reported.other (h : Reported b w l) (hc : Created w l)
    (hcreate : creating.allows (viewOf creating t l) op) (he : exec t op a w = some (r, w'))
    (hx : ∀ x, op = .createAlert x → x.buildId ≠ some b)
    (howed : ((report b t l).observe b op r).owed = (report b t l).owed)
    (hseen : ((report b t l).observe b op r).seen = true → (report b t l).seen = true ∨
      ∃ j, w.repo.builds.lookup b = some j ∧ j.status = .failed)
    (hd : BuildDeed b (w.repo.builds.lookup b) (w'.repo.builds.lookup b) op r)
    (hnew : ∀ j', w'.repo.builds.lookup b = some j' → j'.status = .failed →
      ∃ j, w.repo.builds.lookup b = some j ∧ j.status = .failed) :
    Reported b w' (.call t op r :: l) := by
  refine h.calm (fun t' => ?_) ?_ ?_ (fun t' ht' => ?_) (fun j hj hs => hd.failed hj hs) hnew
  · by_cases e : t' = t
    · subst e; rw [report, viewOf_call_self]; exact howed
    · rw [report, viewOf_call_other (Ne.symm e)]
  · rcases exec_alerts he with hw | ⟨x, rfl, hw⟩
    · rw [alertsOf, hw, alertsOf]
    · rw [alertsOf, hw, alertsOf_insert (hc.drawn t _ hcreate).2.2.2, if_neg (hx x rfl)]
  · cases op with
    | createAlert x => simp [overtaken, hx x rfl]
    | _ => rfl
  · by_cases e : t' = t
    · subst e; rw [report, viewOf_call_self] at ht'; exact hseen ht'
    · rw [report, viewOf_call_other (Ne.symm e)] at ht'; exact .inl ht'

theorem Reported.call (h : Reported b w l) (hc : Created w l)
    (hcreate : creating.allows (viewOf creating t l) op) (ha : (report b t l).allows b op)
    (he : exec t op a w = some (r, w'))
    (hd : BuildDeed b (w.repo.builds.lookup b) (w'.repo.builds.lookup b) op r) :
    Reported b w' (.call t op r :: l) := by
  have other := h.other hc hcreate he
  have hw : (∀ x, op ≠ .createAlert x) → w'.repo.alerts = w.repo.alerts := fun hx =>
    (exec_alerts he).resolve_right fun ⟨x, e, _⟩ => hx x e
  generalize hold : w.repo.builds.lookup b = old at hd other
  generalize hnew : w'.repo.builds.lookup b = new at hd other
  -- By what the call does to the build; an alert leaves it as it is.
  cases hd with
  | same hread =>
      -- The record stays: what is owed and seen may change only by the call itself.
      have same (hx : ∀ x, op = .createAlert x → x.buildId ≠ some b)
          (howed : ((report b t l).observe b op r).owed = (report b t l).owed)
          (hseen : ((report b t l).observe b op r).seen = true → (report b t l).seen = true ∨
            ∃ j, old = some j ∧ j.status = .failed) : Reported b w' (.call t op r :: l) :=
        other hx howed hseen (.same hread) fun j' hj' hs => ⟨j', hj', hs⟩
      cases op with
      | createAlert x =>
          by_cases hx : x.buildId = some b
          · cases he
            exact h.raise hx (hc.drawn t _ hcreate).2.2.2 ha rfl rfl
          · refine same (by rintro _ ⟨⟩; exact hx) ?_ fun hs => .inl ?_
            · simp [Report.observe, hx]
            · simpa [Report.observe, hx] using hs
      | getBuild b' =>
          refine same nofun (Report.owed_getBuild _ _ _) fun hs => ?_
          simp only [Report.observe] at hs
          split_ifs at hs with hb
          · obtain ⟨j, rfl⟩ : ∃ j, r = some j := by
              cases r with
              | none => simp at hb
              | some j => exact ⟨j, rfl⟩
            exact .inr ⟨j, (hread hb.1).symm, by simpa using hb.2⟩
          · exact .inl hs
      | transitionBuild b' ls target f =>
          have hb : ¬ (b' = b ∧ target = .failed ∧ r.isSome = true) := by
            rintro ⟨e, -, hr⟩
            rw [(hread e).1] at hr
            cases hr
          refine same nofun ?_ fun hs => .inl ?_
          · simp [Report.observe, hb]
          · simpa [Report.observe, hb] using hs
      | _ => exact same nofun rfl .inl
  | created hb hj =>
      refine other nofun rfl .inl (.created hb hj) ?_
      rintro _ ⟨⟩ hs
      rw [hj.status] at hs
      cases hs
  | updated hf =>
      refine other nofun rfl .inl (.updated hf) ?_
      rintro _ ⟨⟩ hs
      exact ⟨_, rfl, hs⟩
  | @moved j target f ht hf =>
      by_cases e : target = .failed
      · subst e
        exact h.fail hold hnew ht hf (hw nofun)
      · refine other nofun ?_ (fun hs => .inl ?_) (.moved ht hf) ?_
        · simp [Report.observe, e]
        · simpa [Report.observe, e] using hs
        · rintro _ ⟨⟩ hs
          exact absurd hs e
  | rechecked run role hs =>
      refine other nofun ?_ (fun hs => .inl ?_) (.rechecked run role hs) ?_
      · simp [Report.observe]
      · simpa [Report.observe] using hs
      · rintro _ ⟨⟩ hs
        cases hs

end

section
variable {c₀ c : Config (orchestrator S)}

theorem run_reported {ok : Config (orchestrator S) → Move (orchestrator S) → Prop}
    (hc : Boot c₀) (hr : Run ok c₀ c) (b : BuildId) : Reported b c.world c.log := by
  induction hr with
  | refl => rw [hc.log]; exact .boot hc.repo
  | snoc hr _ hs ih =>
      rcases Machine.step_cases hs with ⟨t, a, op, k, r, w, -, hk, he, rfl⟩ |
          ⟨t, T, -, -, rfl⟩ | ⟨x, w, -, he, rfl⟩
      · have ha := (hr.supervised (disciplined_reporting S b) hc.good
          (boot_supervised hc)).allows hk
        have hcreate := (hr.supervised (disciplined_creating S) hc.good
          (boot_supervised hc)).allows hk
        exact ih.call (run_created hc hr) hcreate ha he (next_deed hc hr hk he b)
      · exact ⟨ih.seen, ih.unfailed, ih.failed⟩
      · have hb := disturb_builds he
        refine ih.calm (fun _ => rfl) ?_ rfl (fun _ => .inl) (fun j hj hs => ?_) fun j hj hs => ?_
        · rw [alertsOf, disturb_alerts he, alertsOf]
        · exact ⟨j, hb ▸ hj, hs, rfl⟩
        · exact ⟨j, hb ▸ hj, hs⟩

/-- Thread `t` is not inside a call of `fail` on `b` that it has decided: it has ended, or owes
no alert. -/
def Returned (c : Config (orchestrator S)) (b : BuildId) (t : Nat) : Prop :=
  (c.threads t).any Prog.ended = true ∨ (report b t c.log).owed = none

theorem Returned.owed (hc : Boot c₀) (hr : Run Anything c₀ c) {t : Nat}
    (h : Returned c b t) : (report b t c.log).owed = none := by
  rcases h with h | h
  · cases hp : c.threads t with
    | none => rw [hp] at h; cases h
    | some p =>
        have hend := hr.obeys (body_reporting S b) hc.good (boot_supervised hc) hc.threads hp
        rw [hp] at h
        cases p with
        | ret r => exact hend
        | raise e => exact hend
        | call op k => cases h
  · exact h

/-- **One alert for a failed build.**  Once all calls of `fail` have returned, a build that is not
`FAILED` has no alert, and a failed one has one, with its error, exactly if no call raised an
alert for a failure that was not its own. -/
theorem one_alert (hc : Boot c₀) (hr : Run Anything c₀ c) (b : BuildId)
    (hret : ∀ t, Returned c b t) :
    (∀ j, c.world.repo.builds.lookup b = some j → j.status = .failed →
      ((∃ a, alertsOf b c.world = [a] ∧ j.error = some a.message) ↔
        overtaken b c.log = 0)) ∧
    ((∀ j, c.world.repo.builds.lookup b = some j → j.status ≠ .failed) →
      alertsOf b c.world = []) := by
  have h := run_reported hc hr b
  refine ⟨fun j hj hs => ?_, fun hu => (h.unfailed hu).1⟩
  rcases h.failed j hj hs with ⟨t, m, hm, -⟩ | ⟨-, hlen, a, ha, he⟩
  · rw [(hret t).owed hc hr] at hm
    cases hm
  constructor
  · rintro ⟨x, hx, -⟩
    rw [hx, List.length_singleton] at hlen
    omega
  · intro ho
    rw [ho] at hlen
    obtain ⟨x, hx⟩ := List.length_eq_one_iff.mp hlen
    rw [hx, List.mem_singleton] at ha
    exact ⟨x, hx, ha ▸ he⟩

end

namespace Sample

/-- The broker reports a failure, and so does Jenkins. -/
def failing : Answers
  | .dispatchBuild _ => .error (exc .runtimeError "broker")
  | .triggerBuild _ _ => .error (exc .runtimeError "jenkins")
  | op => replies op

/-- The build cannot be dispatched, and fails. -/
def undispatched : Schedule :=
  checked ++ .start 2 (.queueBuild "app" none) :: List.replicate 35 (.run 2 failing)

/-- The dispatch of the build is reported as failed, but a worker got the message.  It fails the
build after the API has read it, and before the API fails it too. -/
def failedTwice : Schedule :=
  checked ++ .start 2 (.queueBuild "app" none) :: List.replicate 26 (.run 2 failing) ++
    .start 3 (.startBuild build none) :: List.replicate 54 (.run 3 failing) ++
    List.replicate 5 (.run 2 failing)

theorem returned {c : Config (orchestrator settings)} (n : Nat)
    (hl : c.log.all (fun e => e.caller.all (· < n)) = true)
    (ht : ((List.range n).all fun t => (c.threads t).any Prog.ended) = true) (t : Nat) :
    Returned c build t := by
  by_cases h : t < n
  · exact .inl (List.all_eq_true.mp ht t (List.mem_range.mpr h))
  · have hview : report build t c.log = {} := viewOf_unseen fun e he hcall => h ?_
    · exact .inr (by rw [hview])
    have hlt := List.all_eq_true.mp hl e he
    rw [hcall] at hlt
    simpa using hlt

end Sample

theorem one_alert_undispatched :
    ∃ a, alertsOf Sample.build (Sample.reached Sample.undispatched (by decide +kernel)).world = [a]
      ∧ a.message = "Unable to enqueue build task" := by
  have h := one_alert Sample.boot (Sample.reached_run Sample.undispatched (by decide +kernel))
    Sample.build (Sample.returned 3 (by decide +kernel) (by decide +kernel))
  obtain ⟨a, ha, he⟩ := (h.1 _ (Option.some_get (by decide +kernel)).symm
    (by decide +kernel)).mpr (by decide +kernel)
  refine ⟨a, ha, Option.some.inj (he.symm.trans ?_)⟩
  decide +kernel

theorem one_alert_failed_twice : ¬ ∀ c, Run Anything Sample.start c →
    (∀ t, Returned c Sample.build t) → ∀ j, c.world.repo.builds.lookup Sample.build = some j →
      j.status = .failed → ∃ a, alertsOf Sample.build c.world = [a] ∧ j.error = some a.message := by
  intro h
  obtain ⟨a, ha, -⟩ := h _ (Sample.reached_run Sample.failedTwice (by decide +kernel))
    (Sample.returned 4 (by decide +kernel) (by decide +kernel)) _
    (Option.some_get (by decide +kernel)).symm (by decide +kernel)
  have hlen : (alertsOf Sample.build (Sample.reached Sample.failedTwice
      (by decide +kernel)).world).length = 2 := by decide +kernel
  rw [ha] at hlen
  cases hlen

end Orchestrator
