import Orchestrator.Docker.Rollout

/-!
# Docker — workspace inputs

`WorkspaceStore`, as far as it resolves the mounts of a document: a relative source becomes the
path of the snapshot on the host, a path that shows managed files is refused, and in a build every
bind mount is made read-only.

* `PathKind`: what the file system shows under a path.
* `onServices`: a change of every service of a document; `onServices_ok`: what it leaves alone.
* `resolveCompose`, `resolveBuildCompose`.
-/

namespace Orchestrator

/-! ### Changes of a mapping -/

/-- `d[key] = value`. -/
def setField (d : Fields) (key : String) (value : Document) : Fields :=
  if hasField d key then d.map fun e => if e.1 = .str key then (e.1, value) else e
  else d ++ [(.str key, value)]

theorem lookup_map_set {d : Fields} {k k' : Key} {value : Document} (h : k' ≠ k) :
    (d.map fun e => if e.1 = k then (e.1, value) else e).lookup k' = d.lookup k' := by
  induction d with
  | nil => rfl
  | cons e d ih =>
      obtain ⟨k₁, x⟩ := e
      simp only [List.map_cons, List.lookup_cons, ← ih]
      by_cases hk : k₁ = k
      · simp only [hk, if_true, List.lookup_cons, beq_false_of_ne h]
      · simp only [hk, if_false, List.lookup_cons]

theorem lookup_setField {d : Fields} {key key' : String} {value : Document} (h : key' ≠ key) :
    (setField d key value).lookup (.str key') = d.lookup (.str key') := by
  have hk : Key.str key' ≠ Key.str key := fun e => h (Key.str.inj e)
  unfold setField
  split
  · exact lookup_map_set hk
  · rw [List.lookup_append, List.lookup_cons, beq_false_of_ne hk, List.lookup_nil, Option.or_none]

theorem lookup_setField_self {d : Fields} {key : String} {value : Document} :
    (setField d key value).lookup (.str key) = some value := by
  unfold setField hasField
  cases h : d.lookup (.str key) with
  | none => simp [List.lookup_append, h]
  | some x =>
      simp only [Option.isSome_some, if_true]
      induction d with
      | nil => cases h
      | cons e d ih =>
          obtain ⟨k, y⟩ := e
          rw [List.lookup_cons] at h
          by_cases hk : k = .str key
          · simp [hk]
          · rw [beq_false_of_ne (Ne.symm hk)] at h
            simp only [List.map_cons, hk, if_false, List.lookup_cons, beq_false_of_ne (Ne.symm hk),
              ih h]

/-- `f` on one service. -/
def onService (f : Key → Fields → Except Exc Fields) (e : Key × Document) :
    Except Exc (Key × Document) :=
  match e.2 with
  | .map definition => do .ok (e.1, .map (← f e.1 definition))
  | _ => .error (exc .attributeError "object has no attribute 'get'")

/-- `f` on every service of a document, in place. -/
def onServices (f : Key → Fields → Except Exc Fields) (compose : Fields) : Except Exc Fields :=
  match compose.lookup (.str "services") with
  | none => .ok compose
  | some (.map services) => do
      .ok (setField compose "services" (.map (← services.mapM (onService f))))
  | some _ => .error (exc .attributeError "object has no attribute 'values'")

/-- A service, as an entry of a document. -/
def entryOf (s : String × Fields) : Key × Document := (.str s.1, .map s.2)

theorem mapM_map_some {α β : Type} {f : β → Option α} {g : α → β} (h : ∀ a, f (g a) = some a)
    (l : List α) : (l.map g).mapM f = some l := by
  induction l with
  | nil => rfl
  | cons a l ih =>
      rw [List.map_cons, List.mapM_cons, h, ih]
      rfl

theorem composeServices_iff {compose : Fields} {services : DockerSwarmAdapter.Services} :
    DockerSwarmAdapter.composeServices (.map compose) = .ok services ↔
      compose.lookup (.str "services") = some (.map (services.map entryOf)) ∧ services ≠ [] := by
  constructor
  · intro h
    unfold DockerSwarmAdapter.composeServices field at h
    dsimp only at h
    split at h
    · cases h
    · next entries hne heq =>
      split at h
      · next l hl =>
        cases h
        -- The names are texts, so that the entries can be read back.
        have hentries : entries = services.map entryOf := by
          have hall := mapM_some hl
          clear hl heq hne
          induction hall with
          | nil => rfl
          | cons he _ ih =>
              rw [List.map_cons, ← ih]
              split at he <;> cases he
              rfl
        have hlookup : compose.lookup (.str "services") = some (.map entries) := by
          cases hc : compose.lookup (.str "services") with
          | none => rw [hc] at heq; cases heq
          | some x => rw [hc] at heq; exact congrArg some heq
        refine ⟨hentries ▸ hlookup, ?_⟩
        rintro rfl
        exact hne hentries
      · cases h
    · cases h
  · rintro ⟨hl, hne⟩
    unfold DockerSwarmAdapter.composeServices field
    dsimp only
    rw [hl]
    cases services with
    | nil => exact absurd rfl hne
    | cons s l =>
        simp only [Option.getD_some, List.map_cons]
        split
        · next l' hl' =>
            have hall := hl'.symm.trans (mapM_map_some (g := entryOf) (fun _ => rfl) (s :: l))
            rw [Option.some.inj hall]
        · next hl' =>
            have hall := hl'.symm.trans (mapM_map_some (g := entryOf) (fun _ => rfl) (s :: l))
            cases hall

theorem onService_mapM {f : Key → Fields → Except Exc Fields}
    {services : DockerSwarmAdapter.Services} {entries : Fields}
    (h : (services.map entryOf).mapM (onService f) = .ok entries) :
    ∃ services' : DockerSwarmAdapter.Services, entries = services'.map entryOf ∧
      List.Forall₂ (fun s s' => s'.1 = s.1 ∧ f (.str s.1) s.2 = .ok s'.2) services services' := by
  replace h := List.forall₂_map_left_iff.mp (mapM_ok h)
  induction h with
  | nil => exact ⟨[], rfl, .nil⟩
  | cons hx _ ih =>
      obtain ⟨services', rfl, hall⟩ := ih
      obtain ⟨definition, hf, hx⟩ := bind_ok hx
      cases hx
      exact ⟨(_, definition) :: services', rfl, .cons ⟨rfl, hf⟩ hall⟩

/-- A change of every service leaves all else alone. -/
theorem onServices_ok {f : Key → Fields → Except Exc Fields} {compose compose' : Fields}
    {services : DockerSwarmAdapter.Services} (h : onServices f compose = .ok compose')
    (hs : DockerSwarmAdapter.composeServices (.map compose) = .ok services) :
    ∃ services', DockerSwarmAdapter.composeServices (.map compose') = .ok services' ∧
      List.Forall₂ (fun s s' => s'.1 = s.1 ∧ f (.str s.1) s.2 = .ok s'.2) services services' := by
  obtain ⟨hl, hne⟩ := composeServices_iff.mp hs
  unfold onServices at h
  rw [hl] at h
  obtain ⟨entries, he, h⟩ := bind_ok h
  obtain ⟨services', rfl, hall⟩ := onService_mapM he
  cases h
  refine ⟨services', composeServices_iff.mpr ⟨lookup_setField_self, ?_⟩, hall⟩
  rintro rfl
  cases hall
  exact hne rfl

namespace WorkspaceStore

/-! ### Paths -/

/-- What the file system shows under a path. -/
inductive PathKind where
  | missing | file | symlink | special
  | directory (empty : Bool)
  deriving DecidableEq, Repr

end WorkspaceStore

structure WorkspaceStore where
  root : PurePath
  hostRoot : PurePath
  files : PurePath → WorkspaceStore.PathKind

namespace WorkspaceStore

def workspaceError {α : Type} (message : String) : Except Exc α :=
  .error (exc .workspaceError message)

/-- `relative_path`: the segments. -/
def relativePath (value : String) (allowRoot : Bool := false) : Except Exc (List String) :=
  if value = "" ∨ value.toList.contains '\\' ∨ value.toList.contains ':' then
    workspaceError "Workspace path must be a relative POSIX path"
  else if value.toList.any (fun c => c.toNat < 32) ∨ startsWith value "/" ∨ startsWith value "~" then
    workspaceError "Workspace path must be a relative POSIX path"
  else
    let path := PurePath.parse value
    if ".." ∈ path.segments ∨ ".git" ∈ path.segments ∨ 1024 < value.toList.length then
      workspaceError "Workspace path traversal and .git paths are forbidden"
    else if path.toText = "." ∧ allowRoot = false then
      workspaceError "Workspace file path is required"
    else .ok path.segments

/-- `build_source`. -/
def buildSource (compose : Fields) : Except Exc String :=
  match fieldD compose "x-orchestrator-build-source" (.str "git") with
  | .str source =>
      if source = "git" ∨ source = "workspace" then .ok source
      else workspaceError "x-orchestrator-build-source must be git or workspace"
  | _ => workspaceError "x-orchestrator-build-source must be git or workspace"

variable (W : WorkspaceStore)

/-- `snapshot_path`. -/
def snapshotPath (appid buildId : String) : Except Exc PurePath :=
  if isBuildId buildId then do
    .ok (W.root.append [← externalNamespace appid, "snapshots", buildId])
  else workspaceError "Workspace build identifier is invalid"

/-- One step of `_safe_path`. -/
def safeStep (current : PurePath) (part : String) : Except Exc PurePath :=
  if W.files (current.append [part]) = .symlink then
    workspaceError "Workspace symbolic links are forbidden"
  else .ok (current.append [part])

/-- `_safe_path`. -/
def safePath (root : PurePath) (relative : List String) : Except Exc PurePath :=
  if W.files root = .symlink then workspaceError "Workspace symbolic links are forbidden"
  else relative.foldlM W.safeStep root

/-- `_resolve_source`. -/
def resolveSource (root : PurePath) (source : String) : Except Exc String := do
  let path ← W.safePath root (← relativePath source true)
  match W.files path with
  | .missing =>
      workspaceError (s!"Workspace mount source does not exist: {source}; upload it before " ++
        "creating the build")
  | .symlink | .special => workspaceError "Workspace mount source must be a file or directory"
  | .directory true =>
      workspaceError (s!"Workspace mount source is empty: {source}; upload files before " ++
        "creating the build")
  | .file | .directory false =>
      .ok (W.hostRoot.append (path.segments.drop W.root.segments.length)).toText

/-- `_reject_managed_absolute`. -/
def rejectManagedAbsolute (source : String) : Except Exc Unit :=
  if startsWith source "/" && (PurePath.normpath source).isRelativeTo W.hostRoot then
    workspaceError "Use relative workspace mounts; direct managed workspace paths are forbidden"
  else .ok ()

/-! ### Mounts -/

/-- A mount, with its source resolved. -/
def resolveMount (root : PurePath) : Document → Except Exc Document
  | .str mount =>
      let parts := split ':' mount
      let source := parts.headD ""
      if parts.length = 2 ∨ parts.length = 3 then
        if startsWith source "." then do
          .ok (.str (join ':' ((← W.resolveSource root source) :: parts.drop 1)))
        else do
          W.rejectManagedAbsolute source
          .ok (.str mount)
      else .ok (.str mount)
  | .map mount => match field mount "source" with
      | .str source =>
          if (field mount "type").isText "bind" && !startsWith source "/" then do
            .ok (.map (setField mount "source" (.str (← W.resolveSource root source))))
          else do
            W.rejectManagedAbsolute source
            .ok (.map mount)
      | _ => .ok (.map mount)
  | mount => .ok mount

/-- A service, with its mounts resolved. -/
def resolveService (root : PurePath) (definition : Fields) : Except Exc Fields :=
  match field definition "volumes" with
  | .list mounts => do
      .ok (setField definition "volumes" (.list (← mounts.mapM (W.resolveMount root))))
  | _ => .ok definition

/-- The name of a declared volume shows no managed files. -/
def checkVolumeName (e : Key × Document) : Except Exc Unit :=
  match e.2 with
  | .map definition => match field definition "name" with
      | .str name => W.rejectManagedAbsolute name
      | _ => .ok ()
  | _ => .ok ()

/-- `resolve_compose`. -/
def resolveCompose (appid buildId : String) (compose : Fields) : Except Exc Fields := do
  let _ ← buildSource compose
  let root := (← W.snapshotPath appid buildId).append ["files"]
  checkEach (DockerSwarmAdapter.entriesOf (field compose "volumes")) W.checkVolumeName
  onServices (fun _ => W.resolveService root) compose

/-- A mount of a build, read-only where it shows files. -/
def readOnlyMount (allowed : PurePath) : Document → Except Exc Document
  | .str mount =>
      let parts := split ':' mount
      if startsWith (parts.headD "") "/" then
        if (PurePath.parse (parts.headD "")).isRelativeTo allowed = false then
          workspaceError "Build bind mounts must use relative workspace inputs"
        else match parts with
          | source :: target :: _ => .ok (.str (join ':' [source, target, "ro"]))
          | _ => .error (exc .indexError "list index out of range")
      else .ok (.str mount)
  | .map mount =>
      if (field mount "type").isText "bind" then
        match mount.lookup (.str "source") with
        | none => .error (exc .keyError "'source'")
        | some (.str source) =>
            if (PurePath.parse source).isRelativeTo allowed then
              .ok (.map (setField mount "read_only" (.bool true)))
            else workspaceError "Build bind mounts must use relative workspace inputs"
        | some _ => typeError "expected str, bytes or os.PathLike object"
      else .ok (.map mount)
  | mount => .ok mount

/-- A service of a build, with its mounts read-only. -/
def readOnlyService (allowed : PurePath) (definition : Fields) : Except Exc Fields := do
  let mounts ← DockerSwarmAdapter.iterate (fieldD definition "volumes" (.list []))
  let mounts ← mounts.mapM (readOnlyMount allowed)
  .ok (if hasField definition "volumes" then setField definition "volumes" (.list mounts)
    else definition)

/-- `resolve_build_compose`. -/
def resolveBuildCompose (appid buildId : String) (compose : Fields) : Except Exc Fields := do
  let result ← W.resolveCompose appid buildId compose
  let allowed := W.hostRoot.append [← externalNamespace appid, "snapshots", buildId, "files"]
  onServices (fun _ => readOnlyService allowed) result

end WorkspaceStore

end Orchestrator
