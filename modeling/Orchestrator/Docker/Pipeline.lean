import Orchestrator.Docker.Playback
import Orchestrator.Docker.SourceCompose

/-!
# Docker — the document in the pipeline

The `Validate Compose` step of the Jenkins pipeline, and `validate_local_build_compose`, the rule
for local builds that templates are checked with.  The step checks what the worker has checked
before it triggers Jenkins, and the build of every service besides: that the worker never does.

* `validateLocalBuildCompose`: every service has a build, with safe paths.
* `validateStep`: the step, on the document; whether the files it names are in the checkout is
  left aside.
* `validating_ok`: what the worker has found of a document it accepts.
-/

namespace Orchestrator
open DockerSwarmAdapter

/-! ### Local builds -/

namespace ComposeContract

def contractError {α : Type} (message : String) : Except Exc α := .error (exc .valueError message)

/-- `_validate_relative_build_path`. -/
def validateRelativeBuildPath (value : Document) (label : String) : Except Exc Unit :=
  match value with
  | .str s =>
      if strip s = "" then contractError s!"{label} is required"
      else if s.toList.contains '\\' ∨ s.toList.contains '\x00' ∨ startsWith s "~" then
        contractError s!"{label} must be a safe relative POSIX path"
      else if (PurePath.parse s).root ≠ "" ∨ ".." ∈ (PurePath.parse s).segments then
        contractError s!"{label} must be a safe relative POSIX path"
      else .ok ()
  | _ => contractError s!"{label} is required"

/-- `normalize_local_build`, whose result is the build it is given. -/
def normalizeLocalBuild (build : Document) (service : String) : Except Exc Unit :=
  match build with
  | .map build => do
      validateRelativeBuildPath (field build "context") s!"Compose service {service} build.context"
      validateRelativeBuildPath (field build "dockerfile")
        s!"Compose service {service} build.dockerfile"
  | _ => contractError (s!"Compose service {service} must use local build mode with " ++
      "build.context and build.dockerfile")

/-- `validate_local_build_compose`. -/
def validateLocalBuildCompose : Document → Except Exc Unit
  | .map compose => match field compose "services" with
      | .map [] => contractError "Compose document must contain a non-empty services mapping"
      | .map services => checkEach services fun e => match e.1, e.2 with
          | .str name, .map service => normalizeLocalBuild (field service "build") name
          | _, _ => contractError "Compose services must be named mappings"
      | _ => contractError "Compose document must contain a non-empty services mapping"
  | _ => contractError "Compose document must be a mapping"

end ComposeContract

/-! ### The step -/

namespace Pipeline

/-- `raise SystemExit(message)`. -/
def quit {α : Type} (message : String) : Except String α := .error message

/-- `re.fullmatch(r"[A-Za-z0-9_][A-Za-z0-9_.-]{0,127}", tag)`. -/
def isImageTag (tag : String) : Bool :=
  match tag.toList with
  | [] => false
  | c :: cs => (isAlnum c || c == '_') && cs.length ≤ 127 &&
      cs.all fun c => isAlnum c || c == '_' || c == '.' || c == '-'

/-- Whether a context or the path of a Dockerfile is unsafe or missing. -/
def isUnsafe : Document → Bool
  | .str value => strip value == "" || startsWith value "/" || startsWith value "~" ||
      (PurePath.parse value).segments.contains ".." || value.toList.contains '\\'
  | _ => true

/-- `Path(value).resolve()`, of a path without `..`, raises where there is a null byte. -/
def resolvePath : Document → Except String Unit
  | .str value => if value.toList.contains '\x00' then quit "embedded null byte" else .ok ()
  | _ => .ok ()

/-- The check of one service. -/
def validateService (buildId name : String) (service : Document) : Except String Unit :=
  if isResourceName name = false then quit s!"invalid service name: {reprText name}"
  else if isImageTag (buildId ++ "-" ++ name) = false then
    quit s!"image tag for service {reprText name} exceeds Docker's 128-character limit"
  else match service with
  | .map raw =>
      if hasField raw "env_file" then
        quit s!"service {name} uses env_file; resolve it into environment before delivery"
      else match field raw "build" with
      | .map build => do
          if isUnsafe (field build "context") then
            quit s!"service {name} has unsafe or missing build context"
          else if isUnsafe (field build "dockerfile") then
            quit s!"service {name} has unsafe or missing dockerfile"
          else do
            resolvePath (field build "context")
            resolvePath (field build "dockerfile")
      | _ => quit (s!"service {name} must use local build mode with build.context and " ++
          "build.dockerfile")
  | _ => quit s!"service {name} must be an object"

/-- The checks of the services, one after another. -/
def validateServices (buildId : String) : Fields → Except String Unit
  | [] => .ok ()
  | (.str name, service) :: rest => do
      validateService buildId name service
      validateServices buildId rest
  | (.other text, _) :: _ => quit s!"invalid service name: {text}"

/-- `Validate Compose`, on the document. -/
def validateStep (buildId : String) : Document → Except String Unit
  | .map compose => match field compose "services" with
      | .map [] => quit "COMPOSE_JSON must contain a non-empty services mapping"
      | .map services =>
          if isBuildId buildId = false then quit "BUILD_ID must be a platform build identifier"
          else validateServices buildId services
      | _ => quit "COMPOSE_JSON must contain a non-empty services mapping"
  | _ => quit "COMPOSE_JSON must contain a non-empty services mapping"

end Pipeline

/-! ### Builds that both accept -/

/-- A relative path that stays below. -/
def SafeBuildPath (value : Document) : Prop :=
  ∃ s, value = .str s ∧ strip s ≠ "" ∧ '\\' ∉ s.toList ∧ '\x00' ∉ s.toList ∧
    startsWith s "~" = false ∧ startsWith s "/" = false ∧ ".." ∉ (PurePath.parse s).segments

theorem validateRelativeBuildPath_ok {value : Document} {label : String} :
    ComposeContract.validateRelativeBuildPath value label = .ok () ↔ SafeBuildPath value := by
  constructor
  · intro h
    unfold ComposeContract.validateRelativeBuildPath at h
    split at h
    · next s =>
        split at h
        · cases h
        next h₁ =>
        split at h
        · cases h
        next h₂ =>
        split at h
        · cases h
        next h₃ =>
        simp only [not_or, List.contains_iff_mem, Bool.not_eq_true, ne_eq, not_not] at h₂ h₃
        exact ⟨s, rfl, h₁, h₂.1, h₂.2.1, h₂.2.2, PurePath.root_eq_empty.mp h₃.1, h₃.2⟩
    · cases h
  · rintro ⟨s, rfl, h₁, h₂, h₃, h₄, h₅, h₆⟩
    rw [← PurePath.root_eq_empty] at h₅
    unfold ComposeContract.validateRelativeBuildPath
    dsimp only
    rw [if_neg h₁, if_neg, if_neg]
    · simp [h₅, h₆]
    · simp [h₂, h₃, h₄]

theorem isUnsafe_resolvePath {value : Document} :
    Pipeline.isUnsafe value = false ∧ Pipeline.resolvePath value = .ok () ↔
      SafeBuildPath value := by
  constructor
  · rintro ⟨h, hr⟩
    cases value with
    | str s =>
        simp only [Pipeline.isUnsafe, Bool.or_eq_false_iff, beq_eq_false_iff_ne,
          List.contains_eq_mem, decide_eq_false_iff_not] at h
        obtain ⟨⟨⟨⟨h₁, h₂⟩, h₃⟩, h₄⟩, h₅⟩ := h
        unfold Pipeline.resolvePath at hr
        split at hr
        · next hz =>
            cases hz
            split at hr
            · cases hr
            · next h₆ => exact ⟨s, rfl, h₁, h₅, by simpa using h₆, h₃, h₂, h₄⟩
        · next hz => exact absurd rfl (hz s)
    | _ => cases h
  · rintro ⟨s, rfl, h₁, h₂, h₃, h₄, h₅, h₆⟩
    refine ⟨?_, ?_⟩
    · simp [Pipeline.isUnsafe, h₁, h₂, h₄, h₅, h₆]
    · simp [Pipeline.resolvePath, h₃]

/-- A build with both paths safe. -/
def SafeBuild (build : Document) : Prop :=
  ∃ fields, build = .map fields ∧ SafeBuildPath (field fields "context") ∧
    SafeBuildPath (field fields "dockerfile")

theorem normalizeLocalBuild_ok {build : Document} {service : String} :
    ComposeContract.normalizeLocalBuild build service = .ok () ↔ SafeBuild build := by
  constructor
  · intro h
    unfold ComposeContract.normalizeLocalBuild at h
    split at h
    · next fields =>
        obtain ⟨⟨⟩, hc, hd⟩ := bind_ok h
        exact ⟨fields, rfl, validateRelativeBuildPath_ok.mp hc, validateRelativeBuildPath_ok.mp hd⟩
    · cases h
  · rintro ⟨fields, rfl, hc, hd⟩
    unfold ComposeContract.normalizeLocalBuild
    dsimp only
    rw [validateRelativeBuildPath_ok.mpr hc]
    exact validateRelativeBuildPath_ok.mpr hd

/-- A document of these services has only safe builds. -/
theorem validateLocalBuildCompose_ok {compose : Document} {services : Services}
    (hs : composeServices compose = .ok services) :
    ComposeContract.validateLocalBuildCompose compose = .ok () ↔
      ∀ s ∈ services, SafeBuild (field s.2 "build") := by
  cases compose with
  | map fields =>
      obtain ⟨hl, hne⟩ := composeServices_iff.mp hs
      unfold ComposeContract.validateLocalBuildCompose field
      dsimp only
      rw [hl]
      cases services with
      | nil => exact absurd rfl hne
      | cons s l =>
          simp only [Option.getD_some]
          rw [List.map_cons]
          dsimp only
          rw [← List.map_cons (f := entryOf), checkEach_ok, List.forall_mem_map]
          exact forall₂_congr fun s _ => normalizeLocalBuild_ok
  | _ => cases hs

/-- The step accepts a service of a good name, without an `env_file`, whose build is safe. -/
theorem validateService_ok {buildId name : String} {raw : Fields}
    (hn : isResourceName name = true) (ht : Pipeline.isImageTag (buildId ++ "-" ++ name) = true)
    (he : hasField raw "env_file" = false) :
    Pipeline.validateService buildId name (.map raw) = .ok () ↔ SafeBuild (field raw "build") := by
  unfold Pipeline.validateService
  simp only [hn, ht, he, Bool.true_eq_false, Bool.false_eq_true, if_false]
  constructor
  · intro h
    split at h
    · next build heq =>
        split at h
        · cases h
        next hc =>
        split at h
        · cases h
        next hd =>
        rw [Bool.not_eq_true] at hc hd
        cases hr : Pipeline.resolvePath (field build "context") with
        | error e => rw [hr] at h; cases h
        | ok _ =>
            rw [hr] at h
            exact ⟨build, heq, isUnsafe_resolvePath.mp ⟨hc, hr⟩, isUnsafe_resolvePath.mp ⟨hd, h⟩⟩
    · cases h
  · rintro ⟨fields, hf, hc, hd⟩
    obtain ⟨hc, hrc⟩ := isUnsafe_resolvePath.mpr hc
    obtain ⟨hd, hrd⟩ := isUnsafe_resolvePath.mpr hd
    simp only [hf, hc, hd, Bool.false_eq_true, if_false, hrc]
    exact hrd

theorem validateServices_ok {buildId : String} {services : Services}
    (h : ∀ s ∈ services, isResourceName s.1 = true ∧
      Pipeline.isImageTag (buildId ++ "-" ++ s.1) = true ∧ hasField s.2 "env_file" = false) :
    Pipeline.validateServices buildId (services.map entryOf) = .ok () ↔
      ∀ s ∈ services, SafeBuild (field s.2 "build") := by
  induction services with
  | nil => simp [Pipeline.validateServices]
  | cons s services ih =>
      obtain ⟨hn, ht, he⟩ := h s List.mem_cons_self
      rw [List.forall_mem_cons, ← ih fun s hs => h s (List.mem_cons_of_mem _ hs),
        ← validateService_ok hn ht he]
      simp only [List.map_cons, entryOf, Pipeline.validateServices]
      cases Pipeline.validateService buildId s.1 (.map s.2) with
      | error e => simp [bind, Except.bind]
      | ok _ => simp [bind, Except.bind]

/-! ### What the worker has checked -/

/-- The same service under another guise: the name, and whether there is an `env_file`. -/
def SameFile (s s' : String × Fields) : Prop :=
  s'.1 = s.1 ∧ hasField s'.2 "env_file" = hasField s.2 "env_file"

theorem SameFile.trans {a b c : String × Fields} (h : SameFile a b) (h' : SameFile b c) :
    SameFile a c := ⟨h'.1.trans h.1, h'.2.trans h.2⟩

theorem hasField_setField {d : Fields} {key key' : String} {value : Document} (h : key' ≠ key) :
    hasField (setField d key value) key' = hasField d key' := by
  unfold hasField
  rw [lookup_setField h]

theorem onServices_same {f : Key → Fields → Except Exc Fields} {compose compose' : Fields}
    {services : Services} (h : onServices f compose = .ok compose')
    (hf : ∀ k d d', f k d = .ok d' → hasField d' "env_file" = hasField d "env_file")
    (hs : composeServices (.map compose) = .ok services) :
    ∃ services', composeServices (.map compose') = .ok services' ∧
      List.Forall₂ SameFile services services' := by
  obtain ⟨services', hs', hall⟩ := onServices_ok h hs
  exact ⟨services', hs', hall.imp fun _ _ hss => ⟨hss.1, hf _ _ _ hss.2⟩⟩

section Worker
variable {S : SwarmSettings} {W : WorkspaceStore} {fields runtime : Fields} {services : Services}

theorem resolveService_same {root : PurePath} {d d' : Fields}
    (h : W.resolveService root d = .ok d') : hasField d' "env_file" = hasField d "env_file" := by
  unfold WorkspaceStore.resolveService at h
  split at h
  · obtain ⟨mounts, -, h⟩ := bind_ok h
    cases h
    exact hasField_setField (by decide)
  · cases h; rfl

theorem readOnlyService_same {allowed : PurePath} {d d' : Fields}
    (h : WorkspaceStore.readOnlyService allowed d = .ok d') :
    hasField d' "env_file" = hasField d "env_file" := by
  obtain ⟨mounts, -, h⟩ := bind_ok h
  obtain ⟨mounts', -, h⟩ := bind_ok h
  cases h
  split
  · exact hasField_setField (by decide)
  · rfl

theorem resolveServiceEnvironment_same {environment : Environment} {k : Key} {d d' : Fields}
    (h : SourceCompose.resolveServiceEnvironment environment k d = .ok d') :
    hasField d' "env_file" = hasField d "env_file" := by
  unfold SourceCompose.resolveServiceEnvironment at h
  split at h
  · cases h; rfl
  · obtain ⟨entries, -, h⟩ := bind_ok h
    obtain ⟨resolved, -, h⟩ := bind_ok h
    cases h
    exact hasField_setField (by decide)

theorem withoutBuild_same {d : Fields} :
    hasField (SourceCompose.withoutBuild d) "env_file" = hasField d "env_file" := by
  unfold hasField SourceCompose.withoutBuild
  congr 1
  induction d with
  | nil => rfl
  | cons e d ih =>
      obtain ⟨k, x⟩ := e
      by_cases hk : k = .str "build"
      · subst hk
        rw [List.filter_cons_of_neg (by simp), List.lookup_cons,
          show (Key.str "env_file" == Key.str "build") = false from by decide]
        exact ih
      · simp [hk, List.lookup_cons, ih]

theorem resolveCompose_same {appid buildId : String}
    (h : W.resolveCompose appid buildId fields = .ok runtime)
    (hs : composeServices (.map fields) = .ok services) :
    ∃ services', composeServices (.map runtime) = .ok services' ∧
      List.Forall₂ SameFile services services' := by
  obtain ⟨_, -, h⟩ := bind_ok h
  obtain ⟨root, -, h⟩ := bind_ok h
  obtain ⟨_, -, h⟩ := bind_ok h
  exact onServices_same h (fun _ _ _ => resolveService_same) hs

theorem resolveBuildCompose_same {appid buildId : String}
    (h : W.resolveBuildCompose appid buildId fields = .ok runtime)
    (hs : composeServices (.map fields) = .ok services) :
    ∃ services', composeServices (.map runtime) = .ok services' ∧
      List.Forall₂ SameFile services services' := by
  obtain ⟨result, hr, h⟩ := bind_ok h
  obtain ⟨ns, -, h⟩ := bind_ok h
  obtain ⟨services₁, hs₁, hall₁⟩ := resolveCompose_same hr hs
  obtain ⟨services₂, hs₂, hall₂⟩ := onServices_same h (fun _ _ _ => readOnlyService_same) hs₁
  exact ⟨services₂, hs₂, forall₂_trans (fun _ _ _ h h' => h.trans h') hall₁ hall₂⟩

theorem named_entries {entries : Fields} (h : (entries.all fun e => match e with
    | (.str _, .map _) => true
    | _ => false) = true) : ∃ services : Services, entries = services.map entryOf := by
  induction entries with
  | nil => exact ⟨[], rfl⟩
  | cons e entries ih =>
      rw [List.all_cons, Bool.and_eq_true] at h
      obtain ⟨services, rfl⟩ := ih h.2
      have he := h.1
      split at he
      · next name definition => exact ⟨(name, definition) :: services, rfl⟩
      · cases he

theorem validateComposeStructure_ok {compose : Document}
    (h : SourceCompose.validateComposeStructure compose = .ok ()) :
    ∃ services, compose = .map (entriesOf compose) ∧
      composeServices (.map (entriesOf compose)) = .ok services := by
  unfold SourceCompose.validateComposeStructure at h
  split at h
  · next fields =>
    split at h
    · cases h
    · next entries hne heq =>
      split at h
      · next hall =>
        obtain ⟨services, rfl⟩ := named_entries hall
        refine ⟨services, rfl, composeServices_iff.mpr ⟨?_, ?_⟩⟩
        · unfold field at heq
          cases hl : fields.lookup (.str "services") with
          | none => rw [hl] at heq; cases heq
          | some x =>
              rw [hl] at heq
              exact hl.trans (congrArg some heq)
        · rintro rfl
          exact hne rfl
      · cases h
    · cases h
  · cases h

/-- The adapter accepts no `env_file`, and no bad name. -/
theorem validateCompose_ok {U : DockerUtils} {compose : Document}
    (h : validateCompose U compose false = .ok ())
    (hs : composeServices compose = .ok services) :
    ∀ s ∈ services, isResourceName s.1 = true ∧ hasField s.2 "env_file" = false := by
  obtain ⟨⟨⟩, -, h⟩ := bind_ok h
  obtain ⟨services', hs', h⟩ := bind_ok h
  obtain rfl := Except.ok.inj (hs.symm.trans hs')
  obtain ⟨⟨⟩, hfeatures, h⟩ := bind_ok h
  obtain ⟨order, -, h⟩ := bind_ok h
  intro s hmem
  constructor
  · obtain ⟨⟨⟩, hname, -⟩ := bind_ok (checkEach_ok.mp h s hmem)
    unfold validateServiceName at hname
    split at hname
    · assumption
    · cases hname
  · obtain ⟨⟨⟩, -, hservice⟩ := bind_ok (checkEach_ok.mp hfeatures s hmem)
    obtain ⟨⟨⟩, hfields, -⟩ := bind_ok hservice
    unfold validateFields at hfields
    split at hfields
    · cases hfields
    · next he => simpa using he

theorem validateTags_ok {buildId : String} (hs : composeServices (.map fields) = .ok services)
    (h : SourceCompose.validateTags buildId (entriesOf (field fields "services")) = .ok ()) :
    ∀ s ∈ services, (buildId ++ "-" ++ s.1).toList.length ≤ 128 := by
  intro s hmem
  unfold SourceCompose.validateTags field at h
  rw [(composeServices_iff.mp hs).1] at h
  split at h
  · cases h
  · next hany =>
    by_contra hlong
    refine hany (List.any_eq_true.mpr ⟨entryOf s, List.mem_map_of_mem hmem, ?_⟩)
    exact decide_eq_true (Nat.lt_of_not_le hlong)

/-- What the worker has found of the services of an isolated build. -/
theorem validating_ok {b : SourceCompose.BuildInput} {compose : Document}
    (h : SourceCompose.validating S W b compose = .ok ()) (hi : b.isolated = true) :
    ∃ services, composeServices compose = .ok services ∧ ∀ s ∈ services,
      isResourceName s.1 = true ∧ (b.buildId ++ "-" ++ s.1).toList.length ≤ 128 ∧
        hasField s.2 "env_file" = false := by
  obtain ⟨runtime, hw, h⟩ := bind_ok h
  obtain ⟨expanded, henv, h⟩ := bind_ok h
  obtain ⟨⟨⟩, hsource, h⟩ := bind_ok h
  obtain ⟨⟨⟩, hisolated, -⟩ := bind_ok h
  obtain ⟨⟨⟩, hstructure, hw⟩ := bind_ok hw
  obtain ⟨services, hc, hs⟩ := validateComposeStructure_ok hstructure
  -- the services of the document, after each step of the worker
  obtain ⟨services₁, hs₁, hall₁⟩ : ∃ services', composeServices (.map runtime) = .ok services' ∧
      List.Forall₂ SameFile services services' := by
    split at hw
    · cases hw
      exact ⟨services, hs, List.forall₂_same.mpr fun _ _ => ⟨rfl, rfl⟩⟩
    · rw [hi, if_pos rfl] at hw
      exact resolveBuildCompose_same hw hs
  obtain ⟨services₂, hs₂, hall₂⟩ := onServices_same henv
    (fun _ _ _ => resolveServiceEnvironment_same) hs₁
  obtain ⟨⟨⟩, -, hsource⟩ := bind_ok hsource
  obtain ⟨bare, hbare, hsource⟩ := bind_ok hsource
  obtain ⟨services₃, hs₃, hall₃⟩ := onServices_same hbare
    (fun _ _ _ hd => by cases hd; exact withoutBuild_same) hs₂
  have hsame := forall₂_trans (fun _ _ _ h h' => h.trans h')
    (forall₂_trans (fun _ _ _ h h' => h.trans h') hall₁ hall₂) hall₃
  have hok := validateCompose_ok (asBuildInput_ok.mp hsource) hs₃
  unfold SourceCompose.validateIsolated at hisolated
  rw [hi, if_pos rfl] at hisolated
  obtain ⟨⟨⟩, -, htags⟩ := bind_ok hisolated
  refine ⟨services, hc ▸ hs, fun s hmem => ?_⟩
  obtain ⟨s', hmem', hname, hfile⟩ := forall₂_mem_left hsame hmem
  obtain ⟨h₁, h₂⟩ := hok s' hmem'
  exact ⟨hname ▸ h₁, validateTags_ok hs htags s hmem, hfile ▸ h₂⟩

end Worker

/-! ### The two together -/

/-- A character of a tag. -/
def isTagChar (c : Char) : Bool := isAlnum c || c == '_' || c == '.' || c == '-'

theorem isImageTag_of {buildId name : String} (hb : isBuildId buildId = true)
    (hn : isResourceName name = true) (hl : (buildId ++ "-" ++ name).toList.length ≤ 128) :
    Pipeline.isImageTag (buildId ++ "-" ++ name) = true := by
  have hname : ∀ c ∈ name.toList, isTagChar c = true := by
    unfold isResourceName at hn
    split at hn
    · cases hn
    · next c cs heq =>
        rw [Bool.and_eq_true, List.all_eq_true] at hn
        intro x hx
        rw [heq] at hx
        rcases List.mem_cons.mp hx with rfl | hx
        · simp [isTagChar, hn.1]
        · exact hn.2 x hx
  have hbuild : ∀ c ∈ buildId.toList, isAlnum c = true := by
    simp only [isBuildId, Bool.and_eq_true, List.all_eq_true] at hb
    intro c hc
    have := hb.2 c hc
    simp only [Bool.or_eq_true, Bool.and_eq_true, decide_eq_true_eq, isAlnum, isLowerAlnum] at this ⊢
    rcases this with ⟨h₁, h₂⟩ | h
    · exact .inl (.inl ⟨h₁, Char.le_trans h₂ (by decide : 'f' ≤ 'z')⟩)
    · exact .inl (.inr h)
  have hlen : buildId.toList.length = 32 := by
    simp only [isBuildId, Bool.and_eq_true, beq_iff_eq] at hb
    exact hb.1
  unfold Pipeline.isImageTag
  rw [String.toList_append, String.toList_append] at hl ⊢
  cases hcs : buildId.toList with
  | nil => rw [hcs] at hlen; cases hlen
  | cons c cs =>
      rw [hcs] at hl hbuild
      simp only [List.cons_append, Bool.and_eq_true, decide_eq_true_eq]
      refine ⟨⟨?_, ?_⟩, ?_⟩
      · simp [hbuild c List.mem_cons_self]
      · simp only [List.cons_append, List.length_cons] at hl
        omega
      · rw [List.all_eq_true]
        intro x hx
        rcases List.mem_append.mp hx with hx | hx
        · rcases List.mem_append.mp hx with hx | hx
          · simp [hbuild x (List.mem_cons_of_mem _ hx)]
          · obtain rfl : x = '-' := by simpa using hx
            decide
        · exact hname x hx

/-- **The worker checks what the pipeline checks, but for the builds.**  Of a document that the
worker accepts for an isolated build, the step refuses what `validate_local_build_compose` would
refuse, and nothing else. -/
theorem pipeline_accepts_iff (S : SwarmSettings) (W : WorkspaceStore)
    (b : SourceCompose.BuildInput) (compose : Document) (hb : isBuildId b.buildId = true)
    (hi : b.isolated = true) (h : SourceCompose.validating S W b compose = .ok ()) :
    Pipeline.validateStep b.buildId compose = .ok () ↔
      ComposeContract.validateLocalBuildCompose compose = .ok () := by
  obtain ⟨services, hs, hok⟩ := validating_ok h hi
  rw [validateLocalBuildCompose_ok hs]
  cases compose with
  | map fields =>
      obtain ⟨hl, hne⟩ := composeServices_iff.mp hs
      rw [← validateServices_ok fun s hmem => ⟨(hok s hmem).1,
        isImageTag_of hb (hok s hmem).1 (hok s hmem).2.1, (hok s hmem).2.2⟩]
      unfold Pipeline.validateStep field
      dsimp only
      rw [hl]
      cases services with
      | nil => exact absurd rfl hne
      | cons s l => simp only [Option.getD_some, List.map_cons, hb, Bool.true_eq_false, if_false]
  | _ => cases hs

namespace Sample

def buildInput : SourceCompose.BuildInput where
  appid := "app"
  buildId := "00000000000000000000000000000000"
  workspaceSnapshot := none
  repositoryUrl := some "repository"
  environment := []
  isolated := true

/-- A store of nothing. -/
def workspace : WorkspaceStore := ⟨.parse "/workspace", .parse "/workspace", fun _ => .missing⟩

/-- One service, built from its source. -/
def sourceDocument : Document := .map [(.str "services", .map [(.str "web", .map [
  (.str "build", .map [(.str "context", .str "."), (.str "dockerfile", .str "Dockerfile")]),
  (.str "ports", .list [.str "80"])])])]

/-- One service, of an image. -/
def imageDocument : Document := .map [(.str "services", .map [(.str "web", .map [
  (.str "image", .str "nginx")])])]

theorem sourceDocument_pipeline :
    SourceCompose.validating swarm workspace buildInput sourceDocument = .ok () ∧
    (Pipeline.validateStep buildInput.buildId sourceDocument = .ok () ↔
      ComposeContract.validateLocalBuildCompose sourceDocument = .ok ()) :=
  have h : SourceCompose.validating swarm workspace buildInput sourceDocument = .ok () := by
    decide +kernel
  ⟨h, pipeline_accepts_iff swarm workspace buildInput sourceDocument (by decide) rfl h⟩

/-- A service without a build is refused only once Jenkins runs. -/
theorem pipeline_refuses_image : ¬ ∀ (S : SwarmSettings) (W : WorkspaceStore)
    (b : SourceCompose.BuildInput) (compose : Document), isBuildId b.buildId = true →
    b.isolated = true → SourceCompose.validating S W b compose = .ok () →
    Pipeline.validateStep b.buildId compose = .ok () := by
  intro h
  have := h swarm workspace buildInput imageDocument (by decide) rfl (by decide +kernel)
  revert this
  decide +kernel

end Sample

end Orchestrator
