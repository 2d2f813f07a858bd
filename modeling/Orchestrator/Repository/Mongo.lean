import Orchestrator.Repository.InMemory

/-!
# Repository — the MongoDB store of the manifests and the roles

The manifest and role methods of `MongoRepository`.  Each is one `find_one_and_update` or
`find_one_and_replace`, which the server runs atomically on the document it matches.

A datetime goes to the server as a BSON date, UTC in milliseconds, in a `$set` as well as in a
query; it comes back naive.  A `$gt` or `$lte` on a date matches dates only, so a missing expiry
matches neither.
-/

namespace Orchestrator

/-- A datetime after a round trip: truncated to milliseconds, and naive. -/
def DateTime.bson (d : DateTime) : DateTime := ⟨d.utc / 1000 * 1000, none⟩

theorem DateTime.utc_bson (d : DateTime) : d.bson.utc = d.utc / 1000 * 1000 := by
  simp [bson, utc]

@[simp] theorem DateTime.bson_bson (d : DateTime) : d.bson.bson = d.bson := by
  have h : d.bson.utc / 1000 * 1000 = d.utc / 1000 * 1000 := by rw [utc_bson]; omega
  simp only [bson] at h ⊢
  rw [h]

/-- `{"$gt": d}`; the server compares BSON dates. -/
def matchesGt (stored : Option DateTime) (d : DateTime) : Bool :=
  match stored with
  | none => false
  | some e => decide (d.bson.utc < e.bson.utc)

/-- `{"$lte": d}`. -/
def matchesLte (stored : Option DateTime) (d : DateTime) : Bool :=
  match stored with
  | none => false
  | some e => decide (e.bson.utc ≤ d.bson.utc)

/-- The `build_resources` collection, by its unique index. -/
abbrev ManifestCollection := Table BuildId BuildResources

namespace MongoRepository

/-- `find_one_and_update({"build_id": b, **query}, {"$set": …}, return_document=AFTER)`. -/
def findOneAndUpdate (s : ManifestCollection) (b : BuildId) (query : BuildResources → Bool)
    (set : BuildResources → BuildResources) : Option BuildResources × ManifestCollection :=
  match s.lookup b with
  | none => (none, s)
  | some m => if query m then (some (set m), s.insert b (set m)) else (none, s)

/-- An update is refused, or applied to a document its query matches. -/
theorem findOneAndUpdate_cases {s s' : ManifestCollection} {b : BuildId}
    {query : BuildResources → Bool} {set : BuildResources → BuildResources}
    {r : Option BuildResources} (h : findOneAndUpdate s b query set = (r, s')) :
    (r = none ∧ s' = s) ∨
    ∃ m, s.lookup b = some m ∧ query m = true ∧ r = some (set m) ∧ s' = s.insert b (set m) := by
  unfold findOneAndUpdate at h
  split at h
  · cases h; exact .inl ⟨rfl, rfl⟩
  · next m hm =>
      split_ifs at h with hq
      · cases h; exact .inr ⟨m, hm, hq, rfl, rfl⟩
      · cases h; exact .inl ⟨rfl, rfl⟩

/-- `{"lease_owner": owner, "lease_expires_at": {"$gt": utc_now()}}`, for a given owner. -/
def ownerQuery (now : DateTime) (owner : Option Uuid) (m : BuildResources) : Bool :=
  match owner with
  | none => true
  | some o => m.leaseOwner == some o && matchesGt m.leaseExpiresAt now

def putBuildResource (s : ManifestCollection) (now : DateTime) (b : BuildId)
    (resource : BuildResource) (owner : Option Uuid) :
    Except Exc BuildResources × ManifestCollection :=
  match findOneAndUpdate s b (ownerQuery now owner)
      fun m => { m with resources := m.resources.put resource } with
  | (some m, s') => (.ok m, s')
  | (none, s') => (.error (exc .repositoryError "Build resources not found or lease lost"), s')

theorem putBuildResource_cases {s s' : ManifestCollection} {now : DateTime} {b : BuildId}
    {x : BuildResource} {o : Option Uuid} {r : Except Exc BuildResources}
    (h : putBuildResource s now b x o = (r, s')) :
    (r.isOk = false ∧ s' = s) ∨
    ∃ m, s.lookup b = some m ∧ ownerQuery now o m = true ∧
      r = .ok { m with resources := m.resources.put x } ∧
      s' = s.insert b { m with resources := m.resources.put x } := by
  rcases hc : findOneAndUpdate s b (ownerQuery now o)
    (fun m => { m with resources := m.resources.put x }) with ⟨r', s''⟩
  rw [putBuildResource, hc] at h
  rcases findOneAndUpdate_cases hc with ⟨rfl, rfl⟩ | ⟨m, hm, hq, rfl, rfl⟩
  · cases h; exact .inl ⟨rfl, rfl⟩
  · cases h; exact .inr ⟨m, hm, hq, rfl, rfl⟩

/-- `{"$set": fields}`, read back. -/
def setFields (fields : ResourceFields) (m : BuildResources) : BuildResources :=
  { m.modelCopy fields with leaseExpiresAt := match fields.leaseExpiresAt with
      | .keep => m.leaseExpiresAt
      | .set e => e.map DateTime.bson }

def updateBuildResources (s : ManifestCollection) (now : DateTime) (b : BuildId)
    (fields : ResourceFields) (expected : ResourceExpectation) :
    Option BuildResources × ManifestCollection :=
  findOneAndUpdate s b (fun m => expected.holds m &&
    (expected.owner.isNone || matchesGt m.leaseExpiresAt now)) (setFields fields)

def claimBuildLease (s : ManifestCollection) (now : DateTime) (b : BuildId) (owner : Uuid)
    (expiresAt : DateTime) (statuses : List CleanupStatus) :
    Option BuildResources × ManifestCollection :=
  let query (m : BuildResources) : Bool := decide (m.cleanupStatus ∈ statuses) &&
    (m.leaseOwner.isNone || matchesLte m.leaseExpiresAt now)
  findOneAndUpdate s b query fun m =>
    { m with leaseOwner := some owner, leaseExpiresAt := some expiresAt.bson }

def renewBuildLease (s : ManifestCollection) (now : DateTime) (b : BuildId) (owner : Uuid)
    (expiresAt : DateTime) : Bool × ManifestCollection :=
  let r := updateBuildResources s now b { leaseExpiresAt := .set (some expiresAt) }
    { leaseOwner := .eq (some owner) }
  (r.1.isSome, r.2)

def releaseBuildLease (s : ManifestCollection) (b : BuildId) (owner : Uuid) :
    ManifestCollection :=
  (findOneAndUpdate s b (fun m => m.leaseOwner == some owner)
    fun m => { m with leaseOwner := none, leaseExpiresAt := none }).2

/-! ### Roles -/

/-- The `agent_roles` collection, by its unique index. -/
abbrev RoleCollection := Table RoleKey AgentRole

/-- With a version, a `find_one_and_replace`; without, an upsert that only inserts.  An upsert
that is beaten to the insert reads what was inserted, as it would have done a moment later. -/
def saveAgentRole (s : RoleCollection) (role : AgentRole) (expectedVersion : Option Nat) :
    Option AgentRole × RoleCollection :=
  match expectedVersion, s.lookup role.roleKey with
  | some v, some current =>
      if current.agentRoleVersion = v then (some role, s.insert role.roleKey role) else (none, s)
  | some _, none => (none, s)
  | none, some current => (some current, s)
  | none, none => (some role, s.insert role.roleKey role)

/-- The two stores save a role alike. -/
theorem saveAgentRole_eq (s : Repository) (role : AgentRole) (expectedVersion : Option Nat) :
    saveAgentRole s.agentRoles role expectedVersion =
      ((InMemoryRepository.saveAgentRole s role expectedVersion).1,
        (InMemoryRepository.saveAgentRole s role expectedVersion).2.agentRoles) := by
  cases hv : expectedVersion with
  | none => cases hc : s.agentRoles.lookup role.roleKey <;> simp [saveAgentRole,
      InMemoryRepository.saveAgentRole, hc]
  | some v =>
      cases hc : s.agentRoles.lookup role.roleKey with
      | none => simp [saveAgentRole, InMemoryRepository.saveAgentRole, hc]
      | some current =>
          simp only [saveAgentRole, InMemoryRepository.saveAgentRole, hc]
          split <;> rfl

end MongoRepository

end Orchestrator
