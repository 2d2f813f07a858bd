import Orchestrator.Docker.Workspaces

/-!
# Docker — the source document of a build

What `WorkerRuntime` checks of the document of an application before it contacts GitLab or
Jenkins.

* `Placeholder`, `substitute`: `${VAR}` in the values of an environment.
* `resolveApplicationEnvironment`: the environments, expanded.
* `validateSourceCompose`: the fields of a document without its builds;
  `validateDeploymentCompose`: those of the document that is deployed.
* `BuildInput`, `validating`: the checks of a build in `VALIDATING`.
-/

namespace Orchestrator

def buildInputError {α : Type} (message : String) : Except Exc α := .error (exc .buildInput message)

/-- `except DockerServiceError as exc: raise BuildInputError(str(exc))`. -/
def asBuildInput {α : Type} : Except Exc α → Except Exc α
  | .ok a => .ok a
  | .error e => if e.kind = .dockerService then buildInputError e.message else .error e

theorem asBuildInput_ok {α : Type} {x : Except Exc α} {a : α} :
    asBuildInput x = .ok a ↔ x = .ok a := by
  cases x with
  | ok b => rfl
  | error e =>
      unfold asBuildInput
      dsimp only
      split <;> simp [buildInputError]

namespace SourceCompose

/-! ### Structure -/

/-- `_validate_compose_structure`. -/
def validateComposeStructure : Document → Except Exc Unit
  | .map compose => match field compose "services" with
      | .map [] => buildInputError "Build compose document must contain services"
      | .map services =>
          if services.all fun e => match e with
            | (.str _, .map _) => true
            | _ => false
          then .ok ()
          else buildInputError "Build compose services must be named mappings"
      | _ => buildInputError "Build compose document must contain services"
  | _ => buildInputError "Build compose document must be a mapping"

/-! ### Placeholders -/

/-- A match of `_COMPOSE_VARIABLE`. -/
inductive Placeholder where
  | escaped
  | variable_ (name operator default : String)
  deriving DecidableEq, Repr

namespace Placeholder

/-- The longest name a text starts with, and the rest. -/
def name (cs : List Char) : Option (String × List Char) :=
  match cs with
  | [] => none
  | c :: _ =>
      if (isAlnum c && !c.isDigit) || c == '_' then
        some (String.ofList (cs.takeWhile fun c => isAlnum c || c == '_'),
          cs.dropWhile fun c => isAlnum c || c == '_')
      else none

/-- The default after an operator, up to the closing brace. -/
def withDefault (name operator : String) (cs : List Char) : Option (Placeholder × List Char) :=
  match cs.dropWhile (· != '\x7d') with
  | [] => none
  | _ :: rest => some (.variable_ name operator (String.ofList (cs.takeWhile (· != '\x7d'))), rest)

/-- What stands after a dollar sign. -/
def parse : List Char → Option (Placeholder × List Char)
  | '$' :: rest => some (.escaped, rest)
  | '\x7b' :: cs => match name cs with
      | none => none
      | some (name, rest) => match rest with
          | '\x7d' :: rest => some (.variable_ name "" "", rest)
          | ':' :: '-' :: rest => withDefault name ":-" rest
          | ':' :: '?' :: rest => withDefault name ":?" rest
          | '-' :: rest => withDefault name "-" rest
          | '?' :: rest => withDefault name "?" rest
          | _ => none
  | cs => (name cs).map fun x => (.variable_ x.1 "" "", x.2)

/-- The hint of the document, at most 200 characters of it. -/
def hint (operator default : String) : String :=
  if (operator = "?" ∨ operator = ":?") ∧ strip default ≠ "" then
    let hint := strip default
    ": " ++ if 200 < hint.toList.length then takeText 200 hint ++ "…" else hint
  else ""

/-- `replace`, for the entry `key` of a service. -/
def resolve (service key : String) (environment : Environment) : Placeholder → Except Exc String
  | escaped => .ok "$"
  | variable_ name operator default =>
      let fail (reason : String) := buildInputError (s!"Compose service {service} environment " ++
        s!"{key} {reason} application variable {name}" ++ hint operator default)
      match environment.lookup name with
      | none =>
          if operator = "-" ∨ operator = ":-" then .ok default else fail "references missing"
      | some value =>
          if value = "" ∧ operator = ":-" then .ok default
          else if value = "" ∧ operator = ":?" then fail "requires a non-empty"
          else .ok value

end Placeholder

/-- `_COMPOSE_VARIABLE.sub(replace, text)`, of a text no longer than this. -/
def substitute (replace : Placeholder → Except Exc String) : Nat → List Char → Except Exc String
  | 0, _ | _, [] => .ok ""
  | n + 1, c :: cs =>
      match if c = '$' then Placeholder.parse cs else none with
      | some (p, rest) => do .ok ((← replace p) ++ (← substitute replace n rest))
      | none => do .ok (String.ofList [c] ++ (← substitute replace n cs))

/-- The environment of a service, expanded. -/
def resolveServiceEnvironment (environment : Environment) (service : Key) (definition : Fields) :
    Except Exc Fields :=
  match field definition "environment" with
  | .null => .ok definition
  | raw => do
      let entries ← asBuildInput (DockerSwarmAdapter.environment raw)
      let resolved ← entries.mapM fun e => do
        .ok (e.1, ← substitute (Placeholder.resolve service.text e.1 environment) e.2.toList.length
          e.2.toList)
      .ok (setField definition "environment"
        (.map (resolved.foldl (fun d e => setField d e.1 (.str e.2)) [])))

/-- `_resolve_application_environment`, of a document with named services. -/
def resolveApplicationEnvironment (environment : Environment) (compose : Fields) :
    Except Exc Fields := onServices (resolveServiceEnvironment environment) compose

/-! ### The fields of a document -/

/-- A service without its build. -/
def withoutBuild (definition : Fields) : Fields := definition.filter fun e => e.1 != .str "build"

/-- `_validate_source_compose`. -/
def validateSourceCompose (U : DockerUtils) (compose : Fields) : Except Exc Unit := do
  validateComposeStructure (.map compose)
  let runtime ← onServices (fun _ definition => .ok (withoutBuild definition)) compose
  asBuildInput (DockerSwarmAdapter.validateCompose U (.map runtime) false)

/-- A service has an image that is more than white space. -/
def definesImage : Document → Bool
  | .map definition => match field definition "image" with
      | .str image => strip image ≠ ""
      | _ => false
  | _ => false

/-- `_validate_deployment_compose`, without a source document. -/
def validateDeploymentCompose (U : DockerUtils) (compose : Document) : Except Exc Unit := do
  validateComposeStructure compose
  let services :=
    DockerSwarmAdapter.entriesOf (field (DockerSwarmAdapter.entriesOf compose) "services")
  if services.all fun e => definesImage e.2 then
    asBuildInput (DockerSwarmAdapter.validateCompose U compose true)
  else buildInputError "Jenkins deployment compose services must define images"

/-! ### A build in `VALIDATING` -/

/-- What the checks read of a build, of its application and of its manifest. -/
structure BuildInput where
  appid : String
  buildId : String
  workspaceSnapshot : Option String
  repositoryUrl : Option String
  /-- The decrypted environment of the application. -/
  environment : Environment
  isolated : Bool

/-- `_workspace_compose`. -/
def workspaceCompose (W : WorkspaceStore) (b : BuildInput) (compose : Document) :
    Except Exc Fields := do
  validateComposeStructure compose
  let fields := DockerSwarmAdapter.entriesOf compose
  match b.workspaceSnapshot with
  | none => .ok fields
  | some snapshot =>
      if b.isolated then W.resolveBuildCompose b.appid snapshot fields
      else W.resolveCompose b.appid snapshot fields

/-- The tags of an isolated build are short enough. -/
def validateTags (buildId : String) (services : Fields) : Except Exc Unit :=
  if services.any fun e => 128 < (buildId ++ "-" ++ e.1.text).toList.length then
    buildInputError "Build-exclusive image tags must fit Docker's 128-character limit"
  else .ok ()

/-- The checks of an isolated build. -/
def validateIsolated (S : SwarmSettings) (b : BuildInput) (runtime compose : Fields) :
    Except Exc Unit :=
  if b.isolated then do
    DockerSwarmAdapter.validateBuildCompose S S.host.workspaceHostRoot (.map runtime) b.environment
    validateTags b.buildId (DockerSwarmAdapter.entriesOf (field compose "services"))
  else .ok ()

/-- A build from git has a repository, if it builds anything. -/
def validateRepository (b : BuildInput) (compose : Fields) : Except Exc Unit := do
  let source ← WorkspaceStore.buildSource compose
  if source = "git" ∧ b.repositoryUrl.all (· == "") ∧
      (DockerSwarmAdapter.entriesOf (field compose "services")).any fun e => match e.2 with
        | .map definition => !(field definition "build").isNull
        | _ => false
  then buildInputError ("A repository_url is required for git builds; use " ++
    "x-orchestrator-build-source: workspace for uploaded sources")
  else .ok ()

/-- The checks of `_start_build` in `VALIDATING`. -/
def validating (S : SwarmSettings) (W : WorkspaceStore) (b : BuildInput) (compose : Document) :
    Except Exc Unit := do
  let runtime ← workspaceCompose W b compose
  let runtime ← resolveApplicationEnvironment b.environment runtime
  validateSourceCompose S.utils runtime
  let fields := DockerSwarmAdapter.entriesOf compose
  validateIsolated S b runtime fields
  validateRepository b fields

end SourceCompose

end Orchestrator
