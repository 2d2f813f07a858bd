import Orchestrator.Runtime.Calls

/-!
# Runtime — what a call does to one record

For one build, one manifest or one route check, every call either leaves it alone or is one of
the few calls that write it; the response says which.  Every invariant of the development is
proved from these inversions, and `exec` is not unfolded again.

* `exec_sane`: records stay under their own keys, and responses are sane.
* `exec_build`, `exec_manifest`, `exec_row`: what a call does to one record.
* `exec_clock`, `exec_draws`: only time passing moves the clock, and only `uuid4` draws.
-/

namespace Orchestrator
open Interleaving

/-! ### Keys -/

namespace Table
variable {K V : Type} [DecidableEq K]

/-- Every record is stored under its own key. -/
def Keyed (key : V → K) (t : Table K V) : Prop := ∀ k v, t.lookup k = some v → key v = k

theorem lookup_insert_eq (t : Table K V) (k k' : K) (v : V) :
    AList.lookup k' (AList.insert k v t) = if k' = k then some v else AList.lookup k' t := by
  split_ifs with h
  · subst h; exact AList.lookup_insert t
  · exact AList.lookup_insert_ne h

variable {key : V → K} {t : Table K V}

theorem keyed_empty : Keyed key (∅ : Table K V) := fun k v h => by simp at h

theorem Keyed.insert (h : Keyed key t) {k : K} {v : V} (hv : key v = k) :
    Keyed key (AList.insert k v t) := by
  intro k' v' h'
  rw [lookup_insert_eq] at h'
  split_ifs at h' with e
  · cases h'; rw [hv, e]
  · exact h k' v' h'

end Table

structure World.Keyed (w : World) : Prop where
  builds : Table.Keyed BuildJob.buildId w.repo.builds
  manifests : Table.Keyed BuildResources.buildId w.repo.buildResources
  rows : Table.Keyed RouteCheckResult.checkId w.repo.routeChecks

theorem World.reply_eq {α : Type} {w w' : World} {x : α × Repository} {r : α}
    (h : w.reply x = some (r, w')) : x = (r, w'.repo) ∧ w' = { w with repo := w'.repo } := by
  cases h; exact ⟨rfl, rfl⟩

namespace InMemoryRepository
variable {s s' : Repository}

theorem updateBuild_cases {b : BuildId} {f : BuildFields} {r : Option BuildJob}
    (h : updateBuild s b f = (r, s')) :
    (r = none ∧ s' = s ∧ s.builds.lookup b = none) ∨
    ∃ j, s.builds.lookup b = some j ∧ r = some (j.modelCopy f) ∧
      s' = { s with builds := s.builds.insert b (j.modelCopy f) } := by
  unfold updateBuild at h
  split at h
  · next hj => cases h; exact .inl ⟨rfl, rfl, hj⟩
  · next j hj => cases h; exact .inr ⟨j, hj, rfl, rfl⟩

theorem transitionBuild_cases {b : BuildId} {l : List BuildStatus} {st : BuildStatus}
    {f : BuildFields} {r : Option BuildJob} (h : transitionBuild s b l st f = (r, s')) :
    (r = none ∧ s' = s ∧ ∀ j, s.builds.lookup b = some j → j.status ∉ l) ∨
    ∃ j, s.builds.lookup b = some j ∧ j.status ∈ l ∧
      r = some (j.moveTo st f) ∧
      s' = { s with builds := s.builds.insert b (j.moveTo st f) } := by
  unfold transitionBuild at h
  split at h
  · next hj => cases h; exact .inl ⟨rfl, rfl, by simp [hj]⟩
  · next j hj =>
      split_ifs at h with hl
      · cases h; exact .inr ⟨j, hj, hl, rfl, rfl⟩
      · cases h; exact .inl ⟨rfl, rfl, by simpa [hj] using hl⟩

theorem updateRouteCheck_cases {c : CheckId} {f : RouteCheckFields} {e : RouteCheckExpectation}
    {r : Option RouteCheckResult} (h : updateRouteCheck s c f e = (r, s')) :
    (r = none ∧ s' = s ∧ ∀ row, s.routeChecks.lookup c = some row → e.holds row = false) ∨
    ∃ row, s.routeChecks.lookup c = some row ∧ e.holds row = true ∧
      r = some (row.modelCopy f) ∧
      s' = { s with routeChecks := s.routeChecks.insert c (row.modelCopy f) } := by
  unfold updateRouteCheck at h
  split at h
  · next hr => cases h; exact .inl ⟨rfl, rfl, by simp [hr]⟩
  · next row hr =>
      split_ifs at h with he
      · cases h; exact .inl ⟨rfl, rfl, by simpa [hr] using he⟩
      · cases h; exact .inr ⟨row, hr, by simpa using he, rfl, rfl⟩

/-- A row that is found has the key it was looked for. -/
theorem findRouteCheck_key {a c q : String} {v : Nat} {row : RouteCheckResult}
    (h : findRouteCheck s a c q v = some row) :
    row.appId = a ∧ row.commitId = c ∧ row.requireRoute = q ∧
      row.staticAgentRoleVersion = v := by
  have hp := List.find?_some h
  simp only [Bool.and_eq_true, beq_iff_eq] at hp
  exact ⟨hp.1.1.1, hp.1.1.2, hp.1.2, hp.2⟩

theorem ensureRouteCheck_cases {c : RouteCheckResult} {r : RouteCheckResult × Bool}
    (h : ensureRouteCheck s c = (r, s')) :
    (∃ row, findRouteCheck s c.appId c.commitId c.requireRoute c.staticAgentRoleVersion = some row ∧
      r = (row, false) ∧ s' = s) ∨
    (findRouteCheck s c.appId c.commitId c.requireRoute c.staticAgentRoleVersion = none ∧
      r = (c, true) ∧ s' = { s with routeChecks := s.routeChecks.insert c.checkId c }) := by
  unfold ensureRouteCheck at h
  split at h
  · next row hf => cases h; exact .inl ⟨row, hf, rfl, rfl⟩
  · next hf => cases h; exact .inr ⟨hf, rfl, rfl⟩

theorem deleteRouteCheck_cases {a c q : String} {v : Nat} {r : Bool}
    (h : deleteRouteCheck s a c q v = (r, s')) :
    (r = false ∧ s' = s) ∨
    ∃ row, findRouteCheck s a c q v = some row ∧ r = true ∧
      s' = { s with routeChecks := s.routeChecks.erase row.checkId } := by
  unfold deleteRouteCheck at h
  split at h
  · cases h; exact .inl ⟨rfl, rfl⟩
  · next row hf => cases h; exact .inr ⟨row, hf, rfl, rfl⟩

/-- A role is saved over the version it was derived from, or where there is none. -/
theorem saveAgentRole_cases {role : AgentRole} {v : Option Nat} {r : Option AgentRole}
    (h : saveAgentRole s role v = (r, s')) :
    (((∃ x, s.agentRoles.lookup role.roleKey = some x ∧ v = none ∧ r = some x) ∨
      (r = none ∧ v ≠ none)) ∧ s' = s) ∨
    (∃ x, s.agentRoles.lookup role.roleKey = some x ∧ v = some x.agentRoleVersion ∧
      r = some role ∧
      s' = { s with agentRoles := s.agentRoles.insert role.roleKey role }) ∨
    (s.agentRoles.lookup role.roleKey = none ∧ (v = none ∧ r = some role) ∧
      s' = { s with agentRoles := s.agentRoles.insert role.roleKey role }) := by
  unfold saveAgentRole at h
  split at h
  · next x hx => cases h; exact .inl ⟨.inl ⟨x, hx, rfl, rfl⟩, rfl⟩
  · next x v hx =>
      split_ifs at h with hv
      · cases h; exact .inr (.inl ⟨x, hx, by rw [hv], rfl, rfl⟩)
      · cases h; exact .inl ⟨.inr ⟨rfl, by simp⟩, rfl⟩
  · next hx => cases h; exact .inr (.inr ⟨hx, ⟨rfl, rfl⟩, rfl⟩)
  · cases h; exact .inl ⟨.inr ⟨rfl, by simp⟩, rfl⟩

end InMemoryRepository

/-! ### One build -/

/-- What the response of a call that leaves build `b` alone says about it. -/
def BuildReads (b : BuildId) (j : Option BuildJob) : (op : Op) → op.Ret → Prop
  | .getBuild b', r => b' = b → r = j
  | .createBuild j', _ => j'.buildId ≠ b
  | .updateBuild b' _, r => b' = b → r = none ∧ j = none
  | .transitionBuild b' l _ _, r => b' = b → r = none ∧ ∀ x, j = some x → x.status ∉ l
  | _, _ => True

/-- What a call does to build `b`. -/
inductive BuildStep (b : BuildId) :
    Option BuildJob → Option BuildJob → (op : Op) → op.Ret → Prop where
  | same {j : Option BuildJob} {op : Op} {r : op.Ret} (h : BuildReads b j op r) :
      BuildStep b j j op r
  | created {old : Option BuildJob} {j : BuildJob} (h : j.buildId = b) :
      BuildStep b old (some j) (.createBuild j) ()
  | updated {j : BuildJob} {f : BuildFields} :
      BuildStep b (some j) (some (j.modelCopy f)) (.updateBuild b f) (some (j.modelCopy f))
  | moved {j : BuildJob} {l : List BuildStatus} {st : BuildStatus} {f : BuildFields}
      (h : j.status ∈ l) :
      BuildStep b (some j) (some (j.moveTo st f)) (.transitionBuild b l st f)
        (some (j.moveTo st f))

/-! ### One manifest -/

/-- What the response of a call that leaves the manifest of `b` alone says about it. -/
def ManifestReads (now : DateTime) (b : BuildId) (m : Option BuildResources) :
    (op : Op) → op.Ret → Prop
  | .getBuildResources b', r => b' = b → r = m
  | .guard b' o, r => b' = b → r = guardOutcome m o now
  | .ensureBuildResources m₀, r => m₀.buildId = b → m ≠ none ∧ ∀ x, r = .ok x → m = some x
  | .updateBuildResources b' _ _, r => b' = b → r = none
  | .claimBuildLease b' _ _ _, r => b' = b → r = none
  | .releaseBuildLease b' o, _ => b' = b → ∀ x, m = some x → x.leaseOwner ≠ some o
  | .putBuildResource b' _ _, r => b' = b → r.isOk = false
  | _, _ => True

/-- What a call does to the manifest of `b`. -/
inductive ManifestStep (now : DateTime) (b : BuildId) :
    Option BuildResources → Option BuildResources → (op : Op) → op.Ret → Prop where
  | same {m : Option BuildResources} {op : Op} {r : op.Ret} (h : ManifestReads now b m op r) :
      ManifestStep now b m m op r
  | ensured {m : BuildResources} (h : m.buildId = b) :
      ManifestStep now b none (some m) (.ensureBuildResources m) (.ok m)
  | stored {m : BuildResources} {x : BuildResource} {o : Option Uuid}
      (h : ∀ o', o = some o' → m.heldBy o' now) :
      ManifestStep now b (some m) (some { m with resources := m.resources.put x })
        (.putBuildResource b x o) (.ok { m with resources := m.resources.put x })
  | updated {m : BuildResources} {f : ResourceFields} {e : ResourceExpectation}
      (h : e.holds m = true) (ho : e.owner ≠ none → leaseExpired m.leaseExpiresAt now = false) :
      ManifestStep now b (some m) (some (m.modelCopy f)) (.updateBuildResources b f e)
        (some (m.modelCopy f))
  | claimed {m : BuildResources} {o : Uuid} {e : DateTime} {l : List CleanupStatus}
      (h : m.cleanupStatus ∈ l)
      (hfree : m.leaseOwner = none ∨ leaseExpired m.leaseExpiresAt now = true) :
      ManifestStep now b (some m) (some { m with leaseOwner := some o, leaseExpiresAt := some e })
        (.claimBuildLease b o e l) (some { m with leaseOwner := some o, leaseExpiresAt := some e })
  | released {m : BuildResources} {o : Uuid} (h : m.leaseOwner = some o) :
      ManifestStep now b (some m) (some { m with leaseOwner := none, leaseExpiresAt := none })
        (.releaseBuildLease b o) ()

/-! ### One route check -/

/-- What the response of a call that leaves row `c` alone says about it. -/
def RowReads (c : CheckId) (row : Option RouteCheckResult) : (op : Op) → op.Ret → Prop
  | .getRouteCheck c', r => c' = c → r = row
  | .findRouteCheck _ _ _ _, r => ∀ x, r = some x → x.checkId = c → row = some x
  | .ensureRouteCheck _, r => r.1.checkId = c → row = some r.1 ∧ r.2 = false
  | .updateRouteCheck c' _ e, r => c' = c → r = none ∧ ∀ x, row = some x → e.holds x = false
  | _, _ => True

/-- What a call does to row `c`. -/
inductive RowStep (c : CheckId) :
    Option RouteCheckResult → Option RouteCheckResult → (op : Op) → op.Ret → Prop where
  | same {row : Option RouteCheckResult} {op : Op} {r : op.Ret} (h : RowReads c row op r) :
      RowStep c row row op r
  | inserted {old : Option RouteCheckResult} {row : RouteCheckResult} (h : row.checkId = c) :
      RowStep c old (some row) (.ensureRouteCheck row) (row, true)
  | updated {row : RouteCheckResult} {f : RouteCheckFields} {e : RouteCheckExpectation}
      (h : e.holds row = true) :
      RowStep c (some row) (some (row.modelCopy f)) (.updateRouteCheck c f e)
        (some (row.modelCopy f))
  | deleted {row : RouteCheckResult} {a commit q : String} {v : Nat} :
      RowStep c (some row) none (.deleteRouteCheck a commit q v) true

/-! ### Frames -/

/-- The tables of the repository the services depend on. -/
inductive TableName where
  | builds | manifests | rows | services | alerts | roles | apps | other
  deriving DecidableEq

/-- The table a call may write. -/
def Op.part : Op → TableName
  | createBuild _ | updateBuild .. | transitionBuild .. => .builds
  | ensureBuildResources _ | putBuildResource .. | updateBuildResources .. | claimBuildLease ..
  | releaseBuildLease .. => .manifests
  | ensureRouteCheck _ | updateRouteCheck .. | deleteRouteCheck .. => .rows
  | saveService _ => .services
  | createAlert _ => .alerts
  | saveAgentRole .. => .roles
  | updateApp .. => .apps
  | _ => .other

/-- The build a call reads or writes by its key. -/
def Op.build : Op → Option BuildId
  | getBuild b | updateBuild b _ | transitionBuild b _ _ _ => some b
  | _ => none

/-- The manifest a call reads, inserts or updates by its key. -/
def Op.manifest : Op → Option BuildId
  | getBuildResources b | updateBuildResources b _ _ | claimBuildLease b _ _ _ => some b
  | ensureBuildResources m => some m.buildId
  | _ => none

/-- The row a call reads or updates by its key. -/
def Op.row : Op → Option CheckId
  | getRouteCheck c | updateRouteCheck c _ _ => some c
  | _ => none

/-- Tables other than `p` are left alone. -/
structure Frame (p : TableName) (s s' : Repository) : Prop where
  builds : p ≠ .builds → s'.builds = s.builds
  manifests : p ≠ .manifests → s'.buildResources = s.buildResources
  rows : p ≠ .rows → s'.routeChecks = s.routeChecks
  services : p ≠ .services → s'.services = s.services
  alerts : p ≠ .alerts → s'.alerts = s.alerts
  roles : p ≠ .roles → s'.agentRoles = s.agentRoles
  apps : p ≠ .apps → s'.apps = s.apps

namespace Frame
variable (s : Repository)

theorem refl (p : TableName) : Frame p s s :=
  ⟨fun _ => rfl, fun _ => rfl, fun _ => rfl, fun _ => rfl, fun _ => rfl, fun _ => rfl, fun _ => rfl⟩

theorem of_builds (x : Table BuildId BuildJob) : Frame .builds s { s with builds := x } :=
  { refl s .builds with builds := fun h => absurd rfl h }

theorem of_manifests (x : Table BuildId BuildResources) :
    Frame .manifests s { s with buildResources := x } :=
  { refl s .manifests with manifests := fun h => absurd rfl h }

theorem of_rows (x : Table CheckId RouteCheckResult) :
    Frame .rows s { s with routeChecks := x } :=
  { refl s .rows with rows := fun h => absurd rfl h }

theorem of_roles (x : Table RoleKey AgentRole) : Frame .roles s { s with agentRoles := x } :=
  { refl s .roles with roles := fun h => absurd rfl h }

end Frame

section Inversion
open InMemoryRepository
variable {t : Nat} {op : Op} {a : Answers} {w w' : World} {r : op.Ret}

theorem exec_updateApp {app : String} {f : AppFields} {r : Option UserAppRecord}
    (h : exec t (.updateApp app f) a w = some (r, w')) :
    (w.repo.apps.lookup app = none ∧ r = none ∧ w' = w) ∨
    ∃ x, w.repo.apps.lookup app = some x ∧ r = some (x.modelCopy f) ∧
      w' = { w with repo := saveApp w.repo (x.modelCopy f) } := by
  simp only [exec] at h
  split at h
  · next hx => cases h; exact .inl ⟨hx, rfl, rfl⟩
  · next x hx => cases h; exact .inr ⟨x, hx, rfl, rfl⟩

/-- A call writes at most the table it is said to write. -/
theorem exec_frame (h : exec t op a w = some (r, w')) : Frame op.part w.repo w'.repo := by
  -- A call writes one table, if any.
  cases op with
  | updateBuild b f =>
      rcases updateBuild_cases (World.reply_eq h).1 with ⟨-, hs, -⟩ | ⟨j, -, -, hs⟩ <;> rw [hs]
      · exact .refl _ _
      · exact .of_builds _ _
  | transitionBuild b l st f =>
      rcases transitionBuild_cases (World.reply_eq h).1 with ⟨-, hs, -⟩ | ⟨j, -, -, -, hs⟩ <;>
        rw [hs]
      · exact .refl _ _
      · exact .of_builds _ _
  | ensureRouteCheck c =>
      rcases ensureRouteCheck_cases (World.reply_eq h).1 with ⟨_, -, -, hs⟩ | ⟨-, -, hs⟩ <;>
        rw [hs]
      · exact .refl _ _
      · exact .of_rows _ _
  | updateRouteCheck c f e =>
      rcases updateRouteCheck_cases (World.reply_eq h).1 with ⟨-, hs, -⟩ | ⟨_, -, -, -, hs⟩ <;>
        rw [hs]
      · exact .refl _ _
      · exact .of_rows _ _
  | deleteRouteCheck a c q v =>
      rcases deleteRouteCheck_cases (World.reply_eq h).1 with ⟨-, hs⟩ | ⟨_, -, -, hs⟩ <;> rw [hs]
      · exact .refl _ _
      · exact .of_rows _ _
  | ensureBuildResources m =>
      rcases ensureBuildResources_cases (World.reply_eq h).1 with ⟨_, -, hs, -⟩ | ⟨-, -, hs⟩ <;>
        rw [hs]
      · exact .refl _ _
      · exact .of_manifests _ _
  | putBuildResource b x o =>
      rcases putBuildResource_cases (World.reply_eq h).1 with ⟨-, hs⟩ | ⟨_, -, -, -, hs⟩ <;> rw [hs]
      · exact .refl _ _
      · exact .of_manifests _ _
  | updateBuildResources b f e =>
      rcases updateBuildResources_cases (World.reply_eq h).1 with ⟨-, hs⟩ | ⟨_, -, -, -, -, hs⟩ <;>
        rw [hs]
      · exact .refl _ _
      · exact .of_manifests _ _
  | claimBuildLease b o e l =>
      rcases claimBuildLease_cases (World.reply_eq h).1 with ⟨-, hs⟩ | ⟨_, -, -, -, -, hs⟩ <;>
        rw [hs]
      · exact .refl _ _
      · exact .of_manifests _ _
  | releaseBuildLease b o =>
      rcases releaseBuildLease_cases (congrArg Prod.snd (World.reply_eq h).1) with
          ⟨hs, -⟩ | ⟨_, -, -, hs⟩ <;>
        simp only at hs <;> rw [hs]
      · exact .refl _ _
      · exact .of_manifests _ _
  | saveAgentRole role v =>
      have hs := saveAgentRole_cases (World.reply_eq h).1
      rcases hs with ⟨-, hs⟩ | ⟨_, -, -, -, hs⟩ | ⟨-, -, hs⟩ <;> rw [hs]
      · exact .refl _ _
      · exact .of_roles _ _
      · exact .of_roles _ _
  | updateApp app f =>
      rcases exec_updateApp h with ⟨-, -, rfl⟩ | ⟨j, -, -, rfl⟩
      · exact .refl _ _
      · exact { Frame.refl w.repo .apps with apps := fun e => absurd rfl e }
  | createBuild j => cases h; exact .of_builds _ _
  | saveService s =>
      cases h
      exact { Frame.refl w.repo .services with services := fun e => absurd rfl e }
  | saveUserImage i => cases h; constructor <;> intro _ <;> rfl
  | appendEvent e => cases h; constructor <;> intro _ <;> rfl
  | createAlert x =>
      cases h
      exact { Frame.refl w.repo .alerts with alerts := fun e => absurd rfl e }
  | _ => cases h; exact .refl _ _

/-! ### Inversion -/

theorem exec_build (h : exec t op a w = some (r, w')) (b : BuildId) :
    BuildStep b (w.repo.builds.lookup b) (w'.repo.builds.lookup b) op r := by
  have hf := exec_frame h
  cases op with
  | getBuild b' => cases h; exact .same fun e => e ▸ rfl
  | createBuild j =>
      cases h
      simp only [createBuild, Table.lookup_insert_eq]
      split_ifs with e
      · exact .created e.symm
      · exact .same (Ne.symm e)
  | updateBuild b' f =>
      rcases updateBuild_cases (World.reply_eq h).1 with ⟨rfl, hs, hj⟩ | ⟨j, hj, rfl, hs⟩
      · rw [hs]; exact .same fun e => ⟨rfl, e ▸ hj⟩
      · rw [hs]
        simp only [Table.lookup_insert_eq]
        split_ifs with e
        · subst e; rw [hj]; exact .updated
        · exact .same fun e' => absurd e'.symm e
  | transitionBuild b' l st f =>
      rcases transitionBuild_cases (World.reply_eq h).1 with ⟨rfl, hs, hj⟩ | ⟨j, hj, hl, rfl, hs⟩
      · rw [hs]; exact .same fun e => ⟨rfl, e ▸ hj⟩
      · rw [hs]
        simp only [Table.lookup_insert_eq]
        split_ifs with e
        · subst e; rw [hj]; exact .moved hl
        · exact .same fun e' => absurd e'.symm e
  | _ => rw [hf.builds (by simp [Op.part])]; exact .same trivial

theorem exec_manifest (h : exec t op a w = some (r, w')) (b : BuildId) :
    ManifestStep w.now b (w.repo.buildResources.lookup b) (w'.repo.buildResources.lookup b)
      op r := by
  have hf := exec_frame h
  cases op with
  | getBuildResources b' => cases h; exact .same fun e => e ▸ rfl
  | guard b' o => cases h; exact .same fun e => e ▸ rfl
  | ensureBuildResources m =>
      rcases ensureBuildResources_cases (World.reply_eq h).1 with ⟨x, hx, hs, hr⟩ | ⟨hx, rfl, hs⟩
      · rw [hs]
        refine .same fun e => ?_
        rw [← e, hx]
        exact ⟨by simp, fun y hy => by rw [hr y hy]⟩
      · rw [hs]
        simp only [Table.lookup_insert_eq]
        split_ifs with e
        · subst e; rw [hx]; exact .ensured rfl
        · exact .same fun e' => absurd e'.symm e
  | putBuildResource b' x o =>
      rcases putBuildResource_cases (World.reply_eq h).1 with ⟨hr, hs⟩ | ⟨m, hm, ho, rfl, hs⟩
      · rw [hs]; exact .same fun _ => hr
      · rw [hs]
        simp only [Table.lookup_insert_eq]
        split_ifs with e
        · subst e; rw [hm]; exact .stored ho
        · exact .same fun e' => absurd e'.symm e
  | updateBuildResources b' f e =>
      rcases updateBuildResources_cases (World.reply_eq h).1 with
          ⟨rfl, hs⟩ | ⟨m, hm, he, ho, rfl, hs⟩
      · rw [hs]; exact .same fun _ => rfl
      · rw [hs]
        simp only [Table.lookup_insert_eq]
        split_ifs with e'
        · subst e'; rw [hm]; exact .updated he ho
        · exact .same fun e'' => absurd e''.symm e'
  | claimBuildLease b' o e l =>
      rcases claimBuildLease_cases (World.reply_eq h).1 with
          ⟨rfl, hs⟩ | ⟨m, hm, hl, hfree, rfl, hs⟩
      · rw [hs]; exact .same fun _ => rfl
      · rw [hs]
        simp only [Table.lookup_insert_eq]
        split_ifs with e'
        · subst e'; rw [hm]; exact .claimed hl hfree
        · exact .same fun e'' => absurd e''.symm e'
  | releaseBuildLease b' o =>
      rcases releaseBuildLease_cases (congrArg Prod.snd (World.reply_eq h).1) with
          ⟨hs, hm⟩ | ⟨m, hm, ho, hs⟩ <;> simp only at hs <;> rw [hs]
      · exact .same fun e x hx => hm x (e ▸ hx)
      · simp only [Table.lookup_insert_eq]
        split_ifs with e
        · subst e; rw [hm]; exact .released ho
        · exact .same fun e' => absurd e'.symm e
  | _ => rw [hf.manifests (by simp [Op.part])]; exact .same trivial

/-- A row that is found is stored under its own key. -/
theorem lookup_of_findRouteCheck {s : Repository}
    (hs : Table.Keyed RouteCheckResult.checkId s.routeChecks) {a c q : String} {v : Nat}
    {row : RouteCheckResult} (h : findRouteCheck s a c q v = some row) :
    s.routeChecks.lookup row.checkId = some row := by
  have hm := List.mem_of_find?_eq_some h
  simp only [Table.values, List.mem_map] at hm
  obtain ⟨⟨k, x⟩, hx, rfl⟩ := hm
  have hl : s.routeChecks.lookup k = some x := AList.mem_lookup_iff.mpr hx
  rw [hs k x hl]
  exact hl

theorem exec_row (hw : w.Keyed) (h : exec t op a w = some (r, w')) (c : CheckId) :
    RowStep c (w.repo.routeChecks.lookup c) (w'.repo.routeChecks.lookup c) op r := by
  have hf := exec_frame h
  cases op with
  | getRouteCheck c' => cases h; exact .same fun e => e ▸ rfl
  | findRouteCheck a' c' q v =>
      cases h
      refine .same fun x hx e => ?_
      rw [← e]
      exact lookup_of_findRouteCheck hw.rows hx
  | ensureRouteCheck row =>
      rcases ensureRouteCheck_cases (World.reply_eq h).1 with ⟨x, hx, rfl, hs⟩ | ⟨hx, rfl, hs⟩
      · rw [hs]
        refine .same fun e => ⟨?_, rfl⟩
        rw [← e]
        exact lookup_of_findRouteCheck hw.rows hx
      · rw [hs]
        simp only [Table.lookup_insert_eq]
        split_ifs with e
        · exact .inserted e.symm
        · exact .same fun e' => absurd e'.symm e
  | updateRouteCheck c' f e =>
      rcases updateRouteCheck_cases (World.reply_eq h).1 with
          ⟨rfl, hs, hx⟩ | ⟨row, hx, he, rfl, hs⟩
      · rw [hs]; exact .same fun e' => ⟨rfl, e' ▸ hx⟩
      · rw [hs]
        simp only [Table.lookup_insert_eq]
        split_ifs with e'
        · subst e'; rw [hx]; exact .updated he
        · exact .same fun e'' => absurd e''.symm e'
  | deleteRouteCheck a' c' q v =>
      rcases deleteRouteCheck_cases (World.reply_eq h).1 with ⟨-, hs⟩ | ⟨row, hx, rfl, hs⟩
      · rw [hs]; exact .same trivial
      · rw [hs]
        by_cases e : c = row.checkId
        · subst e
          rw [lookup_of_findRouteCheck hw.rows hx]
          simp only [AList.lookup_erase]
          exact .deleted
        · simp only [AList.lookup_erase_ne e]
          exact .same trivial
  | _ => rw [hf.rows (by simp [Op.part])]; exact .same trivial

/-- Calls take no time. -/
theorem exec_clock (h : exec t op a w = some (r, w')) : w'.clock = w.clock := by
  cases op with
  | updateApp app f =>
      simp only [exec] at h
      split at h <;> cases h <;> rfl
  | _ => cases h; rfl

/-- Only `uuid4` draws, and it returns the draw. -/
theorem exec_draws (h : exec t op a w = some (r, w')) :
    (op = .uuid4 ∧ HEq r (Uuid.mk t (w.draws t)) ∧
      w'.draws = Function.update w.draws t (w.draws t + 1)) ∨
    (op ≠ .uuid4 ∧ w'.draws = w.draws) := by
  cases op with
  | uuid4 => cases h; exact .inl ⟨rfl, HEq.rfl, rfl⟩
  | updateApp app f =>
      simp only [exec] at h
      split at h <;> cases h <;> exact .inr ⟨by simp, rfl⟩
  | _ => cases h; exact .inr ⟨by simp, rfl⟩

theorem exec_draws_le (h : exec t op a w = some (r, w')) (t' : Nat) :
    w.draws t' ≤ w'.draws t' := by
  rcases exec_draws h with ⟨-, -, hd⟩ | ⟨-, hd⟩ <;> rw [hd]
  by_cases e : t' = t
  · subst e; simp
  · simp [Function.update_of_ne e]

/-! ### Good worlds -/

theorem BuildStep.keyed {b : BuildId} {old new : Option BuildJob} (h : BuildStep b old new op r)
    (hold : ∀ j, old = some j → j.buildId = b) : ∀ j, new = some j → j.buildId = b := by
  cases h with
  | same _ => exact hold
  | created hb => simpa using hb
  | updated => simpa using hold _ rfl
  | moved _ => simpa using hold _ rfl

theorem ManifestStep.keyed {now : DateTime} {b : BuildId} {old new : Option BuildResources}
    (h : ManifestStep now b old new op r) (hold : ∀ m, old = some m → m.buildId = b) :
    ∀ m, new = some m → m.buildId = b := by
  cases h with
  | same _ => exact hold
  | ensured hb => simpa using hb
  | stored _ => simpa using hold _ rfl
  | updated _ _ => simpa using hold _ rfl
  | claimed _ _ => simpa using hold _ rfl
  | released _ => simpa using hold _ rfl

theorem RowStep.keyed {c : CheckId} {old new : Option RouteCheckResult}
    (h : RowStep c old new op r) (hold : ∀ x, old = some x → x.checkId = c) :
    ∀ x, new = some x → x.checkId = c := by
  cases h with
  | same _ => exact hold
  | inserted hc => simpa using hc
  | updated _ => simpa using hold _ rfl
  | deleted => simp

theorem exec_keyed (hw : w.Keyed) (h : exec t op a w = some (r, w')) : w'.Keyed where
  builds b j hj := (exec_build h b).keyed (hw.builds b) j hj
  manifests b m hm := (exec_manifest h b).keyed (hw.manifests b) m hm
  rows c x hx := (exec_row hw h c).keyed (hw.rows c) x hx

/-- What is found has the key it was looked up by. -/
theorem BuildStep.sane {b : BuildId} {old new : Option BuildJob} (h : BuildStep b old new op r)
    (hold : ∀ j, old = some j → j.buildId = b) (hp : op.build = some b) : Op.Sane op r := by
  cases h with
  | same hr =>
      cases op <;> simp only [Op.build, Option.some.injEq, reduceCtorEq] at hp <;> subst hp
      · intro j hj; exact hold j ((hr rfl).symm.trans hj)
      · intro j hj; simp [(hr rfl).1] at hj
      · intro j hj; simp [(hr rfl).1] at hj
  | created _ => trivial
  | updated => rintro j ⟨⟩; simpa using hold _ rfl
  | moved _ => rintro j ⟨⟩; exact ⟨by simpa using hold _ rfl, rfl⟩

theorem ManifestStep.sane {now : DateTime} {b : BuildId} {old new : Option BuildResources}
    (h : ManifestStep now b old new op r) (hold : ∀ m, old = some m → m.buildId = b)
    (hp : op.manifest = some b) : Op.Sane op r := by
  cases h with
  | same hr =>
      cases op <;> simp only [Op.manifest, Option.some.injEq, reduceCtorEq] at hp <;> subst hp <;>
        intro m hm
      · exact hold m ((hr rfl).2 m hm)
      · exact hold m ((hr rfl).symm.trans hm)
      · simp [hr rfl] at hm
      · simp [hr rfl] at hm
  | ensured _ => rintro m ⟨⟩; rfl
  | stored _ => trivial
  | updated _ _ => rintro m ⟨⟩; simpa using hold _ rfl
  | claimed _ _ => rintro m ⟨⟩; simpa using hold _ rfl
  | released _ => trivial

theorem RowStep.sane {c : CheckId} {old new : Option RouteCheckResult}
    (h : RowStep c old new op r) (hold : ∀ x, old = some x → x.checkId = c)
    (hp : op.row = some c) : Op.Sane op r := by
  cases h with
  | same hr =>
      cases op <;> simp only [Op.row, Option.some.injEq, reduceCtorEq] at hp <;> subst hp <;>
        intro x hx
      · exact hold x ((hr rfl).symm.trans hx)
      · simp [(hr rfl).1] at hx
  | inserted _ => trivial
  | updated _ => rintro x ⟨⟩; simpa using hold _ rfl
  | deleted => trivial

theorem exec_sane (hw : w.Keyed) (h : exec t op a w = some (r, w')) :
    Op.Sane op r ∧ w'.Keyed := by
  refine ⟨?_, exec_keyed hw h⟩
  cases op with
  | getBuild b | updateBuild b f | transitionBuild b l st f =>
      exact (exec_build h b).sane (hw.builds b) rfl
  | getBuildResources b | updateBuildResources b f e | claimBuildLease b o e l =>
      exact (exec_manifest h b).sane (hw.manifests b) rfl
  | ensureBuildResources m => exact (exec_manifest h m.buildId).sane (hw.manifests m.buildId) rfl
  | getRouteCheck c | updateRouteCheck c f e => exact (exec_row hw h c).sane (hw.rows c) rfl
  | findRouteCheck a' c q v => cases h; exact fun x hx => findRouteCheck_key hx
  | _ => trivial

end Inversion

/-! ### The environment -/

section Environment
open InMemoryRepository
variable {x : Stimulus} {w w' : World}

/-- What the environment does to the manifest of `b`: a heartbeat renews a lease that is held. -/
inductive Renewal (now : DateTime) : Option BuildResources → Option BuildResources → Prop where
  | same {m : Option BuildResources} : Renewal now m m
  | renewed {m : BuildResources} {o : Uuid} {e : DateTime} (h : m.heldBy o now) :
      Renewal now (some m) (some { m with leaseExpiresAt := some e })

/-- What the environment does to a route check: a heartbeat renews the lease of a run. -/
inductive RowRenewal : Option RouteCheckResult → Option RouteCheckResult → Prop where
  | same {row : Option RouteCheckResult} : RowRenewal row row
  | renewed {row : RouteCheckResult} {e : DateTime} :
      RowRenewal (some row)
        (some (row.modelCopy { staticLeaseExpiresAt := .set (some e) }))

/-- What the environment does: time passes, or one lease is renewed. -/
theorem disturb_cases (h : disturb x w = some w') :
    (∃ d : Nat, w' = { w with clock := w.clock + d }) ∨
    w' = w ∨
    (∃ b m o e, w.repo.buildResources.lookup b = some m ∧ m.heldBy o w.now ∧
      w' = { w with repo := { w.repo with
        buildResources := w.repo.buildResources.insert b { m with leaseExpiresAt := some e } } }) ∨
    (∃ c row e, w.repo.routeChecks.lookup c = some row ∧
      w' = { w with repo := { w.repo with
        routeChecks := w.repo.routeChecks.insert c
          (row.modelCopy { staticLeaseExpiresAt := .set (some e) }) } }) := by
  cases x with
  | tick d => cases h; exact .inl ⟨d, rfl⟩
  | renew b o e =>
      cases h
      rcases hr : renewBuildLease w.repo w.now b o e with ⟨ok, s⟩
      rcases renewBuildLease_cases hr with ⟨-, rfl⟩ | ⟨m, hm, ho, -, rfl⟩
      · exact .inr (.inl rfl)
      · exact .inr (.inr (.inl ⟨b, m, o, e, hm, ho, rfl⟩))
  | renewCheck c g k e =>
      cases h
      rcases hr : updateRouteCheck w.repo c { staticLeaseExpiresAt := .set (some e) }
        { generation := .eq g, staticRunToken := .eq (some k), staticStatus := .eq .running }
        with ⟨row, s⟩
      rcases updateRouteCheck_cases hr with ⟨-, rfl, -⟩ | ⟨row, hrow, -, -, rfl⟩
      · exact .inr (.inl rfl)
      · exact .inr (.inr (.inr ⟨c, row, e, hrow, rfl⟩))

theorem disturb_builds (h : disturb x w = some w') : w'.repo.builds = w.repo.builds := by
  rcases disturb_cases h with ⟨d, rfl⟩ | rfl | ⟨b, m, o, e, -, -, rfl⟩ | ⟨c, row, e, -, rfl⟩ <;> rfl

theorem disturb_alerts (h : disturb x w = some w') : w'.repo.alerts = w.repo.alerts := by
  rcases disturb_cases h with ⟨d, rfl⟩ | rfl | ⟨b, m, o, e, -, -, rfl⟩ | ⟨c, row, e, -, rfl⟩ <;> rfl

theorem disturb_draws (h : disturb x w = some w') : w'.draws = w.draws := by
  rcases disturb_cases h with ⟨d, rfl⟩ | rfl | ⟨b, m, o, e, -, -, rfl⟩ | ⟨c, row, e, -, rfl⟩ <;> rfl

/-- The clock never goes back. -/
theorem disturb_clock (h : disturb x w = some w') : w.clock ≤ w'.clock := by
  rcases disturb_cases h with ⟨d, rfl⟩ | rfl | ⟨b, m, o, e, -, -, rfl⟩ | ⟨c, row, e, -, rfl⟩
  · exact Int.le_add_of_nonneg_right (Int.natCast_nonneg d)
  all_goals exact Int.le_refl _

theorem disturb_manifest (h : disturb x w = some w') (b : BuildId) :
    Renewal w.now (w.repo.buildResources.lookup b) (w'.repo.buildResources.lookup b) := by
  rcases disturb_cases h with ⟨d, rfl⟩ | rfl | ⟨b', m, o, e, hm, ho, rfl⟩ | ⟨c, row, e, -, rfl⟩
  · exact .same
  · exact .same
  · simp only [Table.lookup_insert_eq]
    split_ifs with hb
    · subst hb; rw [hm]; exact .renewed ho
    · exact .same
  · exact .same

theorem disturb_row (h : disturb x w = some w') (c : CheckId) :
    RowRenewal (w.repo.routeChecks.lookup c) (w'.repo.routeChecks.lookup c) := by
  rcases disturb_cases h with ⟨d, rfl⟩ | rfl | ⟨b, m, o, e, -, -, rfl⟩ | ⟨c', row, e, hr, rfl⟩
  · exact .same
  · exact .same
  · exact .same
  · simp only [Table.lookup_insert_eq]
    split_ifs with hc
    · subst hc; rw [hr]; exact .renewed
    · exact .same

theorem World.Keyed.disturb (hw : w.Keyed) (h : disturb x w = some w') : w'.Keyed := by
  rcases disturb_cases h with ⟨d, rfl⟩ | rfl | ⟨b, m, o, e, hm, -, rfl⟩ | ⟨c, row, e, hr, rfl⟩
  · exact ⟨hw.builds, hw.manifests, hw.rows⟩
  · exact hw
  · exact ⟨hw.builds, hw.manifests.insert (hw.manifests b m hm), hw.rows⟩
  · exact ⟨hw.builds, hw.manifests, hw.rows.insert (hw.rows c row hr)⟩

end Environment

end Orchestrator
