import Orchestrator.Discipline.Sessions

/-!
# Lifecycle — builds and alerts are created once

A build or an alert is created under the identifier its thread has just drawn, so under one that
nothing is stored under.

* `creating`: the monitor of what a thread drew; every task obeys it.
* `Created w l`: what is stored has drawn identifiers, and what was drawn last is free.
* `run_created`: it holds in every configuration of every run.
* `BuildDeed`: what a call of a task does to a build.
-/

namespace Orchestrator
open Interleaving

variable {S : Settings}

/-- The identifier a thread drew last, until it creates something under it. -/
def creating : Monitor api where
  View := Option Uuid
  init := none
  allows v
    | .createBuild j => v = some j.buildId
    | .createAlert a => v = some a.alertId
    | _ => True
  observe v
    | .uuid4, u => some u
    | .createBuild _, _ | .createAlert _, _ => none
    | _, _ => v

theorem creating_quiet {op : Op} (hq : op.quiet = true) (v : Option Uuid) :
    creating.allows v op := by
  cases op <;> trivial

theorem Deed.creating {b : BuildId} {o : Option Uuid} {k : Kind} {op : Op} (hd : Deed b o k op)
    (hk : k.single = true) (v : Option Uuid) : Orchestrator.creating.allows v op := by
  cases hd with
  | quiet hq => exact creating_quiet hq v
  | create | alert | fail => cases hk
  | _ => trivial

theorem creating_blocks : Blocks fun {_} p => p.Keeps creating fun _ => True where
  compositional := Prog.keeps_compositional _
  single hk hd v _ := ⟨hd.creating hk v, fun _ _ => trivial⟩
  create hj hk v _ := ⟨trivial, fun b _ => ⟨trivial, fun now _ =>
    ⟨congrArg some (hj b now).1.symm, fun _ _ => hk b _ trivial⟩⟩⟩
  fail b message site := by
    have hG := Prog.keeps_compositional (M := creating) fun _ => True
    have quiet {α : Type} {p : P α} (hp : p.Uses (Doing b none [.quiet])) :
        p.Keeps creating fun _ => True :=
      hp.keeps fun v op _ ⟨k, hm, hd⟩ => ⟨hd.creating (by
        obtain rfl := List.mem_singleton.mp hm; rfl) v, fun _ _ => trivial⟩
    refine hG.bind (quiet (BuildService.getBuild_uses b none)) fun build => ?_
    split
    · exact hG.ret _
    refine hG.bind ?_ fun failed v _ => ?_
    · refine (BuildService.transition_uses b none
        (BuildService.failFields_moving message site)).keeps fun v op _ ⟨k, hm, hd⟩ => ?_
      refine ⟨?_, fun _ _ => trivial⟩
      cases hd with
      | fail | move | deliver => trivial
      | quiet hq => exact creating_quiet hq v
      | _ => simp [BuildService.moveKind] at hm
    · refine ⟨trivial, fun u _ => ⟨rfl, fun _ _ => ?_⟩⟩
      exact hG.bind (quiet (recordEvent_uses _ _ _ _ _ _ _)) (fun _ => hG.ret _) _ trivial

theorem disciplined_creating (S : Settings) : Disciplined (orchestrator S) creating :=
  fun T => (creating_blocks.tasking (S := S)).body T none trivial

/-- Builds and alerts are stored under drawn identifiers; what a thread drew last is free. -/
structure Created (w : World) (l : List (Event (orchestrator S))) : Prop where
  stored : ∀ b j, w.repo.builds.lookup b = some j → b.serial < w.draws b.drawer
  raised : ∀ u, u ∈ w.repo.alerts → u.serial < w.draws u.drawer
  drawn : ∀ t u, viewOf creating t l = some u → u.drawer = t ∧ u.serial < w.draws t ∧
    w.repo.builds.lookup u = none ∧ u ∉ w.repo.alerts

section
variable {t : Nat} {op : Op} {a : Answers} {w w' : World} {r : op.Ret}
  {l : List (Event (orchestrator S))}

theorem Created.boot (h : w.repo.Pristine) : Created (S := S) w [] where
  stored b j hj := by simp [h.builds] at hj
  raised u hu := by simp [h.alerts] at hu
  drawn t u hu := by cases hu

/-- No build is created over another. -/
theorem Created.fresh (h : Created w l) {j : BuildJob}
    (ha : creating.allows (viewOf creating t l) (.createBuild j)) :
    w.repo.builds.lookup j.buildId = none := (h.drawn t _ ha).2.2.1

/-- Only `create_alert` raises an alert. -/
theorem exec_alerts (he : exec t op a w = some (r, w')) :
    w'.repo.alerts = w.repo.alerts ∨ ∃ x, op = .createAlert x ∧
      w'.repo.alerts = w.repo.alerts.insert x.alertId x := by
  by_cases hop : op.part = .alerts
  · cases op with
    | createAlert x => cases he; exact .inr ⟨x, rfl, rfl⟩
    | _ => cases hop
  · exact .inl ((exec_frame he).alerts hop)

/-- What was free stays free, unless this call creates something there. -/
theorem free_of_call (he : exec t op a w = some (r, w')) {u : Uuid}
    (hc : ∀ j, op = .createBuild j → j.buildId ≠ u)
    (hr : ∀ x, op = .createAlert x → x.alertId ≠ u)
    (hb : w.repo.builds.lookup u = none) (hn : u ∉ w.repo.alerts) :
    w'.repo.builds.lookup u = none ∧ u ∉ w'.repo.alerts := by
  constructor
  · have hstep := exec_build he u
    rw [hb] at hstep
    generalize w'.repo.builds.lookup u = new at hstep
    cases hstep with
    | same _ => rfl
    | created e => exact absurd e (hc _ rfl)
  · rcases exec_alerts he with e | ⟨x, rfl, e⟩ <;> rw [e]
    · exact hn
    · rw [AList.mem_insert]
      rintro (e | hx)
      · exact hr x rfl e.symm
      · exact hn hx

theorem Created.call (h : Created w l) (ha : creating.allows (viewOf creating t l) op)
    (he : exec t op a w = some (r, w')) : Created w' (.call t op r :: l) where
  stored b j hj := by
    refine Nat.lt_of_lt_of_le ?_ (exec_draws_le he b.drawer)
    have hb := exec_build he b
    rw [hj] at hb
    generalize hold : w.repo.builds.lookup b = old at hb
    cases hb with
    | same _ => exact h.stored b j hold
    | created e =>
        obtain ⟨hd, hlt, -⟩ := h.drawn t _ ha
        rw [← e, hd]
        exact hlt
    | updated => exact h.stored b _ hold
    | moved _ => exact h.stored b _ hold
  raised u hu := by
    refine Nat.lt_of_lt_of_le ?_ (exec_draws_le he u.drawer)
    rcases exec_alerts he with e | ⟨x, rfl, e⟩ <;> rw [e] at hu
    · exact h.raised u hu
    · rcases (AList.mem_insert _).mp hu with rfl | hu
      · obtain ⟨hd, hlt, -⟩ := h.drawn t _ ha
        rw [hd]
        exact hlt
      · exact h.raised u hu
  drawn t' u hu := by
    have hmono := exec_draws_le he t'
    by_cases e : t = t'
    · subst e
      rw [viewOf_call_self] at hu
      cases op with
      | uuid4 =>
          cases he
          cases hu
          -- What is stored was drawn before, with a smaller number.
          refine ⟨rfl, by simp, ?_, fun hn => ?_⟩
          · by_contra hn
            obtain ⟨j, hj⟩ := Option.ne_none_iff_exists'.mp hn
            exact absurd (h.stored _ j hj) (by simp)
          · exact absurd (h.raised _ hn) (by simp)
      | createBuild j => cases hu
      | createAlert x => cases hu
      | _ =>
          obtain ⟨hd, hlt, hb, hn⟩ := h.drawn t u hu
          exact ⟨hd, Nat.lt_of_lt_of_le hlt hmono,
            free_of_call he (by simp) (by simp) hb hn⟩
    · rw [viewOf_call_other e] at hu
      obtain ⟨hd, hlt, hb, hn⟩ := h.drawn t' u hu
      refine ⟨hd, Nat.lt_of_lt_of_le hlt hmono, free_of_call he ?_ ?_ hb hn⟩
      · rintro j rfl rfl
        exact e ((h.drawn t _ ha).1.symm.trans hd)
      · rintro x rfl rfl
        exact e ((h.drawn t _ ha).1.symm.trans hd)

theorem Created.env (h : Created w l) {x : Stimulus} (hx : disturb x w = some w') :
    Created w' (.env x :: l) where
  stored b j hj := by
    rw [disturb_draws hx]
    exact h.stored b j (by rwa [disturb_builds hx] at hj)
  raised u hu := by
    rw [disturb_draws hx]
    exact h.raised u (by rwa [disturb_alerts hx] at hu)
  drawn t u hu := by
    rw [disturb_draws hx, disturb_builds hx, disturb_alerts hx]
    exact h.drawn t u hu

end

/-- **Creation.**  In every configuration of every run, builds are stored under drawn
identifiers. -/
theorem run_created {ok : Config (orchestrator S) → Move (orchestrator S) → Prop}
    {c c' : Config (orchestrator S)} (hc : Boot c) (hr : Run ok c c') :
    Created c'.world c'.log := by
  refine (hr.mono fun _ _ _ => trivial).calling.invariant (M := creating)
    (fun _ _ => True) (disciplined_creating S)
    (fun w l t op a r w' h _ _ ha _ he => h.call ha he)
    (fun w l t T h => ⟨h.stored, h.raised, h.drawn⟩)
    (fun w l x w' h _ hx => h.env hx) hc.good (boot_supervised hc) (fun _ _ => trivial) ?_
  rw [hc.log]
  exact .boot hc.repo

/-! ### What a task does to a build -/

/-- A build is created, updated outside its stage, moved along the table, or rechecked. -/
inductive BuildDeed (b : BuildId) :
    Option BuildJob → Option BuildJob → (op : Op) → op.Ret → Prop where
  | same {j : Option BuildJob} {op : Op} {r : op.Ret} (h : BuildReads b j op r) :
      BuildDeed b j j op r
  | created {j : BuildJob} (hb : j.buildId = b) (h : j.New) :
      BuildDeed b none (some j) (.createBuild j) ()
  | updated {j : BuildJob} {f : BuildFields} (h : f.Unstaged) :
      BuildDeed b (some j) (some (j.modelCopy f)) (.updateBuild b f) (some (j.modelCopy f))
  | moved {j : BuildJob} {target : BuildStatus} {f : BuildFields}
      (ht : target ∈ allowedBuildTransitions j.status) (h : f.Moving target) :
      BuildDeed b (some j) (some (j.moveTo target f)) (.transitionBuild b [j.status] target f)
        (some (j.moveTo target f))
  | rechecked {j : BuildJob} (run : Uuid) (role : AgentRole)
      (hs : j.status = .deploying ∨ j.status = .succeeded) :
      BuildDeed b (some j)
        (some (j.moveTo .deploying (DynamicCheckService.recheckFields run role)))
        (.transitionBuild b [j.status] .deploying (DynamicCheckService.recheckFields run role))
        (some (j.moveTo .deploying (DynamicCheckService.recheckFields run role)))

theorem build_deed {ks : List Kind} {t : Nat} {op : Op} {a : Answers} {w w' : World}
    {r : op.Ret} {l : List (Event (orchestrator S))} (h : Created w l)
    (ha : creating.allows (viewOf creating t l) op) (hop : Does ks op)
    (he : exec t op a w = some (r, w')) (b : BuildId) :
    BuildDeed b (w.repo.builds.lookup b) (w'.repo.builds.lookup b) op r := by
  have hb := exec_build he b
  generalize hold : w.repo.builds.lookup b = old at hb ⊢
  generalize w'.repo.builds.lookup b = new at hb ⊢
  obtain ⟨b', o, k, -, hd⟩ := hop
  cases hb with
  | same h => exact .same h
  | created e =>
      subst e
      cases hold.symm.trans (h.fresh ha)
      cases hd with
      | quiet hq => cases hq
      | create _ hj => exact .created rfl hj
  | updated =>
      refine .updated ?_
      cases hd with
      | quiet hq => cases hq
      | plain _ hs | dynamic _ hs | tear _ hs => exact hs
      | _ => constructor <;> trivial
  | moved hs =>
      cases hd with
      | quiet hq => cases hq
      | move ht _ _ hf | deliver ht hf | fail ht hf =>
          cases List.mem_singleton.mp hs
          exact .moved ht hf
      | recheck run role hr =>
          cases List.mem_singleton.mp hs
          exact .rechecked run role hr

/-- A failed build stays as it is, with its error. -/
theorem BuildDeed.failed {b : BuildId} {old new : Option BuildJob} {op : Op} {r : op.Ret}
    (h : BuildDeed b old new op r) {j : BuildJob} (hj : old = some j) (hs : j.status = .failed) :
    ∃ j', new = some j' ∧ j'.status = .failed ∧ j'.error = j.error := by
  cases h with
  | same _ => exact ⟨j, hj, hs, rfl⟩
  | created _ _ => cases hj
  | updated hf => cases hj; exact ⟨_, rfl, hs, hf.error.apply _⟩
  | moved ht _ => cases hj; rw [hs] at ht; simp [allowedBuildTransitions] at ht
  | rechecked run role h => cases hj; rcases h with e | e <;> cases hs.symm.trans e

section
variable {ok : Config (orchestrator S) → Move (orchestrator S) → Prop}
  {c₀ c : Config (orchestrator S)} {t : Nat} {op : Op} {k : op.Ret → P Unit}

/-- The next call of a thread is one of the deeds of its task. -/
theorem next_does (hc : Boot c₀) (hr : Run ok c₀ c) (hk : c.threads t = some (.call op k)) :
    ∃ T, .start t T ∈ c.log ∧ Does T.kinds op := by
  obtain ⟨T, hT, hop, -⟩ := hr.uses (Task.body_does S) hc.good hc.threads hk
  exact ⟨T, hT, hop⟩

theorem next_deed (hc : Boot c₀) (hr : Run ok c₀ c) (hk : c.threads t = some (.call op k))
    {a : Answers} {r : op.Ret} {w : World} (he : exec t op a c.world = some (r, w))
    (b : BuildId) :
    BuildDeed b (c.world.repo.builds.lookup b) (w.repo.builds.lookup b) op r := by
  obtain ⟨T, -, hop⟩ := next_does hc hr hk
  have hsup := hr.supervised (disciplined_creating S) hc.good (boot_supervised hc)
  exact build_deed (run_created hc hr) (hsup.allows hk) hop he b

end

end Orchestrator
