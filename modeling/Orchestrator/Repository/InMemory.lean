import Orchestrator.Models.Resources
import Orchestrator.Models.Builds
import Mathlib.Data.List.AList
import Mathlib.Tactic.SplitIfs

/-!
# Repository — the in-memory store

`InMemoryRepository` of `repository.py`: every method takes the lock, so each is one function
of the store and, where it reads the clock, of `utc_now()`.  A method that only reads is a
function of the store alone.

The exceptions of the modelled services are here too (`Exc`), because the store raises some of
them.
-/

namespace Orchestrator

/-! ### Exceptions -/

/-- The exception classes that some modelled function raises or tells apart. -/
inductive ExcKind where
  | resourceConflict | repositoryError | notFound | buildInput | invalidBuildTransition
  | routeCheckInput | routeCheckConflict | routeCheckUnavailable | keyError | valueError
  | workspaceError | jenkinsError | jenkinsNotStarted | gitlabError | dockerService
  | harborCleanup | agentExecution | runtimeError | typeError | attributeError | overflowError
  | indexError
  deriving DecidableEq, Repr

/-- An exception; Jenkins errors say at which site of the pipeline they arose. -/
structure Exc where
  kind : ExcKind
  message : String
  failureSite : Option String := none
  deriving DecidableEq, Repr

namespace Exc

/-- `isinstance(exc, ValueError)`. -/
def isValueError (e : Exc) : Bool :=
  match e.kind with
  | .resourceConflict | .buildInput | .invalidBuildTransition | .routeCheckInput | .valueError
  | .workspaceError => true
  | _ => false

/-- `isinstance(exc, JenkinsError)`. -/
def isJenkinsError (e : Exc) : Bool :=
  match e.kind with
  | .jenkinsError | .jenkinsNotStarted => true
  | _ => false

/-- `isinstance(exc, AdapterError)`. -/
def isAdapterError (e : Exc) : Bool :=
  match e.kind with
  | .jenkinsError | .jenkinsNotStarted | .gitlabError | .dockerService | .harborCleanup => true
  | _ => false

end Exc

/-- An exception of a kind, with a message. -/
def exc (kind : ExcKind) (message : String) : Exc := ⟨kind, message, none⟩

/-! ### The store -/

/-- A Python dictionary of records, up to the order of its entries. -/
abbrev Table (K V : Type) := AList fun _ : K => V

namespace Table
variable {K V : Type} [DecidableEq K]

/-- The records, in the order they came. -/
def values (t : Table K V) : List V := t.entries.map (·.2)

end Table

/-- The records that the services keep. -/
structure Repository where
  apps : Table String UserAppRecord := ∅
  agentRoles : Table RoleKey AgentRole := ∅
  routeChecks : Table CheckId RouteCheckResult := ∅
  builds : Table BuildId BuildJob := ∅
  buildResources : Table BuildId BuildResources := ∅
  services : Table String DeploymentService := ∅
  userImages : List UserImage := []
  events : List AppEvent := []
  alerts : Table Uuid Alert := ∅

/-- `_lease_expired(value, now)`. -/
def leaseExpired (value : Option DateTime) (now : DateTime) : Bool :=
  match value with
  | none => true
  | some v => decide (v.utc ≤ now.utc)

/-- The lease of the manifest is held by `o` and has not expired. -/
def BuildResources.heldBy (m : BuildResources) (o : Uuid) (now : DateTime) : Prop :=
  m.leaseOwner = some o ∧ leaseExpired m.leaseExpiresAt now = false

namespace InMemoryRepository

/-! #### Builds -/

/-- `get_build`. -/
def getBuild (s : Repository) (b : BuildId) : Option BuildJob := s.builds.lookup b

def createBuild (s : Repository) (j : BuildJob) : Repository :=
  { s with builds := s.builds.insert j.buildId j }

/-- `update_build`. -/
def updateBuild (s : Repository) (b : BuildId) (fields : BuildFields) :
    Option BuildJob × Repository :=
  match s.builds.lookup b with
  | none => (none, s)
  | some existing =>
      let updated := existing.modelCopy fields
      (some updated, { s with builds := s.builds.insert b updated })

/-- `transition_build`: only from one of the expected statuses. -/
def transitionBuild (s : Repository) (b : BuildId) (expectedStatuses : List BuildStatus)
    (status : BuildStatus) (fields : BuildFields) : Option BuildJob × Repository :=
  match s.builds.lookup b with
  | none => (none, s)
  | some existing =>
      if existing.status ∈ expectedStatuses then
        let updated := existing.moveTo status fields
        (some updated, { s with builds := s.builds.insert b updated })
      else (none, s)

/-- `list_active_builds`. -/
def listActiveBuilds (s : Repository) : List BuildJob :=
  s.builds.values.filter fun j => !j.status.terminal

def listPendingDynamicBuilds (s : Repository) : List BuildJob :=
  s.builds.values.filter fun j =>
    j.dynamicStatus == .queued || j.dynamicStatus == .running || j.teardownRequired

/-! #### Build resources -/

/-- `ensure_build_resources`: a manifest that is there stays. -/
def ensureBuildResources (s : Repository) (m : BuildResources) :
    Except Exc BuildResources × Repository :=
  match s.buildResources.lookup m.buildId with
  | some existing =>
      if existing.appid ≠ m.appid then
        (.error (exc .repositoryError "Build resource owner mismatch"), s)
      else (.ok existing, s)
  | none => (.ok m, { s with buildResources := s.buildResources.insert m.buildId m })

def getBuildResources (s : Repository) (b : BuildId) : Option BuildResources :=
  s.buildResources.lookup b

/-- `put_build_resource`: under the lease, if an owner is named. -/
def putBuildResource (s : Repository) (now : DateTime) (b : BuildId) (resource : BuildResource)
    (owner : Option Uuid) : Except Exc BuildResources × Repository :=
  match s.buildResources.lookup b with
  | none => (.error (exc .repositoryError "Build resources not found"), s)
  | some m =>
      if owner ≠ none ∧ (m.leaseOwner ≠ owner ∨ leaseExpired m.leaseExpiresAt now = true) then
        (.error (exc .repositoryError "Build resource lease lost"), s)
      else
        let m' := { m with resources := m.resources.put resource }
        (.ok m', { s with buildResources := s.buildResources.insert b m' })

/-- `update_build_resources`: only if the manifest is as expected. -/
def updateBuildResources (s : Repository) (now : DateTime) (b : BuildId)
    (fields : ResourceFields) (expected : ResourceExpectation) :
    Option BuildResources × Repository :=
  match s.buildResources.lookup b with
  | none => (none, s)
  | some m =>
      if expected.holds m = false then (none, s)
      else if expected.owner ≠ none ∧ leaseExpired m.leaseExpiresAt now = true then (none, s)
      else
        let updated := m.modelCopy fields
        (some updated, { s with buildResources := s.buildResources.insert b updated })

/-- `claim_build_lease`: from no one, or after the lease has expired. -/
def claimBuildLease (s : Repository) (now : DateTime) (b : BuildId) (owner : Uuid)
    (expiresAt : DateTime) (statuses : List CleanupStatus) :
    Option BuildResources × Repository :=
  match s.buildResources.lookup b with
  | none => (none, s)
  | some m =>
      if m.cleanupStatus ∉ statuses then (none, s)
      else if m.leaseOwner ≠ none ∧ leaseExpired m.leaseExpiresAt now = false then (none, s)
      else
        let m' := { m with leaseOwner := some owner, leaseExpiresAt := some expiresAt }
        (some m', { s with buildResources := s.buildResources.insert b m' })

/-- `renew_build_lease`. -/
def renewBuildLease (s : Repository) (now : DateTime) (b : BuildId) (owner : Uuid)
    (expiresAt : DateTime) : Bool × Repository :=
  let r := updateBuildResources s now b { leaseExpiresAt := .set (some expiresAt) }
    { leaseOwner := .eq (some owner) }
  (r.1.isSome, r.2)

/-- `release_build_lease`: by its owner only. -/
def releaseBuildLease (s : Repository) (b : BuildId) (owner : Uuid) : Repository :=
  match s.buildResources.lookup b with
  | none => s
  | some m =>
      if m.leaseOwner = some owner then
        { s with buildResources :=
            s.buildResources.insert b { m with leaseOwner := none, leaseExpiresAt := none } }
      else s

def listCleanupResources (s : Repository) : List BuildResources :=
  s.buildResources.values.filter fun m =>
    m.cleanupStatus == .queued || m.cleanupStatus == .running

/-! #### Route checks and roles -/

def getAgentRole (s : Repository) (key : RoleKey) : Option AgentRole := s.agentRoles.lookup key

/-- `save_agent_role`: of the expected version, or a first one. -/
def saveAgentRole (s : Repository) (role : AgentRole) (expectedVersion : Option Nat) :
    Option AgentRole × Repository :=
  let saved := (some role, { s with agentRoles := s.agentRoles.insert role.roleKey role })
  match s.agentRoles.lookup role.roleKey, expectedVersion with
  | some current, none => (some current, s)
  | some current, some v => if current.agentRoleVersion = v then saved else (none, s)
  | none, none => saved
  | none, some _ => (none, s)

def getRouteCheck (s : Repository) (c : CheckId) : Option RouteCheckResult :=
  s.routeChecks.lookup c

/-- The row with the four key fields. -/
def findRouteCheck (s : Repository) (appId commitId requireRoute : String) (version : Nat) :
    Option RouteCheckResult :=
  s.routeChecks.values.find? fun c => c.appId == appId && c.commitId == commitId &&
    c.requireRoute == requireRoute && c.staticAgentRoleVersion == version

/-- `ensure_route_check`, on a row whose `check_id` is fresh: the identity checks pass. -/
def ensureRouteCheck (s : Repository) (c : RouteCheckResult) :
    (RouteCheckResult × Bool) × Repository :=
  match findRouteCheck s c.appId c.commitId c.requireRoute c.staticAgentRoleVersion with
  | some existing => ((existing, false), s)
  | none => ((c, true), { s with routeChecks := s.routeChecks.insert c.checkId c })

/-- `update_route_check`: only if the row is as expected. -/
def updateRouteCheck (s : Repository) (c : CheckId) (fields : RouteCheckFields)
    (expected : RouteCheckExpectation) : Option RouteCheckResult × Repository :=
  match s.routeChecks.lookup c with
  | none => (none, s)
  | some current =>
      if expected.holds current = false then (none, s)
      else
        let updated := current.modelCopy fields
        (some updated, { s with routeChecks := s.routeChecks.insert c updated })

/-- `delete_route_check`, by the key of the row. -/
def deleteRouteCheck (s : Repository) (appId commitId requireRoute : String) (version : Nat) :
    Bool × Repository :=
  match findRouteCheck s appId commitId requireRoute version with
  | none => (false, s)
  | some c => (true, { s with routeChecks := s.routeChecks.erase c.checkId })

def listPendingRouteChecks (s : Repository) : List RouteCheckResult :=
  s.routeChecks.values.filter fun c => c.staticStatus == .queued || c.staticStatus == .running

/-! #### Applications and records -/

def getApp (s : Repository) (appid : String) : Option UserAppRecord := s.apps.lookup appid

def saveApp (s : Repository) (app : UserAppRecord) : Repository :=
  { s with apps := s.apps.insert app.appid app }

def saveService (s : Repository) (r : DeploymentService) : Repository :=
  { s with services := s.services.insert r.serviceId r }

def listServices (s : Repository) (appid : String) : List DeploymentService :=
  s.services.values.filter fun r => r.appid == appid

/-- `save_user_image`. -/
def saveUserImage (s : Repository) (i : UserImage) : Repository :=
  { s with userImages := if i ∈ s.userImages then s.userImages else s.userImages ++ [i] }

def listUserImages (s : Repository) (appid : String) : List UserImage :=
  s.userImages.filter fun i => i.appid == appid

def appendEvent (s : Repository) (e : AppEvent) : Repository := { s with events := e :: s.events }

/-- `create_alert`. -/
def createAlert (s : Repository) (a : Alert) : Repository :=
  { s with alerts := s.alerts.insert a.alertId a }

/-! #### What a manifest call does -/

section Cases
variable {s s' : Repository} {now : DateTime} {b : BuildId}

/-- An update does nothing, or writes to a manifest that is as expected. -/
theorem updateBuildResources_cases {f : ResourceFields} {e : ResourceExpectation}
    {r : Option BuildResources} (h : updateBuildResources s now b f e = (r, s')) :
    (r = none ∧ s' = s) ∨
    ∃ m, s.buildResources.lookup b = some m ∧ e.holds m = true ∧
      (e.owner ≠ none → leaseExpired m.leaseExpiresAt now = false) ∧
      r = some (m.modelCopy f) ∧
      s' = { s with buildResources := s.buildResources.insert b (m.modelCopy f) } := by
  unfold updateBuildResources at h
  split at h
  · cases h; exact .inl ⟨rfl, rfl⟩
  · next m hm =>
      split_ifs at h with he ho
      · cases h; exact .inl ⟨rfl, rfl⟩
      · cases h; exact .inl ⟨rfl, rfl⟩
      · cases h
        exact .inr ⟨m, hm, by simpa using he, fun hne => by simpa [hne] using ho, rfl, rfl⟩

/-- A resource is put into a manifest whose lease is the owner's. -/
theorem putBuildResource_cases {x : BuildResource} {o : Option Uuid}
    {r : Except Exc BuildResources} (h : putBuildResource s now b x o = (r, s')) :
    (r.isOk = false ∧ s' = s) ∨
    ∃ m, s.buildResources.lookup b = some m ∧
      (∀ o', o = some o' → m.heldBy o' now) ∧
      r = .ok { m with resources := m.resources.put x } ∧
      s' = { s with buildResources :=
        s.buildResources.insert b { m with resources := m.resources.put x } } := by
  unfold putBuildResource at h
  split at h
  · cases h; exact .inl ⟨rfl, rfl⟩
  · next m hm =>
      split_ifs at h with ho
      · cases h; exact .inl ⟨rfl, rfl⟩
      · cases h
        refine .inr ⟨m, hm, ?_, rfl, rfl⟩
        rintro o' rfl
        simpa [BuildResources.heldBy] using ho

/-- A claim takes a lease that no one holds. -/
theorem claimBuildLease_cases {o : Uuid} {e : DateTime} {l : List CleanupStatus}
    {r : Option BuildResources} (h : claimBuildLease s now b o e l = (r, s')) :
    (r = none ∧ s' = s) ∨
    ∃ m, s.buildResources.lookup b = some m ∧ m.cleanupStatus ∈ l ∧
      (m.leaseOwner = none ∨ leaseExpired m.leaseExpiresAt now = true) ∧
      r = some { m with leaseOwner := some o, leaseExpiresAt := some e } ∧
      s' = { s with buildResources :=
        s.buildResources.insert b { m with leaseOwner := some o, leaseExpiresAt := some e } } := by
  unfold claimBuildLease at h
  split at h
  · cases h; exact .inl ⟨rfl, rfl⟩
  · next m hm =>
      split_ifs at h with hst hlease
      · cases h; exact .inl ⟨rfl, rfl⟩
      · cases h
        refine .inr ⟨m, hm, hst, ?_, rfl, rfl⟩
        by_cases ho : m.leaseOwner = none
        · exact .inl ho
        · exact .inr (by simpa [ho] using hlease)
      · cases h; exact .inl ⟨rfl, rfl⟩

/-- A renewal keeps the owner. -/
theorem renewBuildLease_cases {o : Uuid} {e : DateTime} {ok : Bool}
    (h : renewBuildLease s now b o e = (ok, s')) :
    (ok = false ∧ s' = s) ∨
    ∃ m, s.buildResources.lookup b = some m ∧ m.heldBy o now ∧ ok = true ∧
      s' = { s with buildResources :=
        s.buildResources.insert b { m with leaseExpiresAt := some e } } := by
  rcases hu : updateBuildResources s now b { leaseExpiresAt := .set (some e) }
    { leaseOwner := .eq (some o) } with ⟨r, s''⟩
  simp only [renewBuildLease, hu] at h
  cases h
  rcases updateBuildResources_cases hu with ⟨rfl, rfl⟩ | ⟨m, hm, he, hexp, rfl, rfl⟩
  · exact .inl ⟨rfl, rfl⟩
  · have ho : m.leaseOwner = some o := ResourceExpectation.holds_owner he rfl
    exact .inr ⟨m, hm, ⟨ho, hexp (by simp [ResourceExpectation.owner])⟩, rfl, rfl⟩

/-- A release drops the lease of its owner. -/
theorem releaseBuildLease_cases {o : Uuid} (h : releaseBuildLease s b o = s') :
    (s' = s ∧ ∀ m, s.buildResources.lookup b = some m → m.leaseOwner ≠ some o) ∨
    ∃ m, s.buildResources.lookup b = some m ∧ m.leaseOwner = some o ∧
      s' = { s with buildResources :=
        s.buildResources.insert b { m with leaseOwner := none, leaseExpiresAt := none } } := by
  unfold releaseBuildLease at h
  split at h
  · next hm => exact .inl ⟨h.symm, by simp [hm]⟩
  · next m hm =>
      split_ifs at h with ho
      · exact .inr ⟨m, hm, ho, h.symm⟩
      · exact .inl ⟨h.symm, by rintro m' hm'; simp_all⟩

/-- A manifest is found as it is, or saved. -/
theorem ensureBuildResources_cases {m : BuildResources} {r : Except Exc BuildResources}
    (h : ensureBuildResources s m = (r, s')) :
    (∃ m', s.buildResources.lookup m.buildId = some m' ∧ s' = s ∧ (∀ x, r = .ok x → x = m')) ∨
    (s.buildResources.lookup m.buildId = none ∧ r = .ok m ∧
      s' = { s with buildResources := s.buildResources.insert m.buildId m }) := by
  unfold ensureBuildResources at h
  split at h
  · next m' hm =>
      split_ifs at h
      · cases h; exact .inl ⟨m', hm, rfl, by simp⟩
      · cases h; exact .inl ⟨m', hm, rfl, by simp⟩
  · next hm => cases h; exact .inr ⟨hm, rfl, rfl⟩

end Cases

end InMemoryRepository

end Orchestrator
