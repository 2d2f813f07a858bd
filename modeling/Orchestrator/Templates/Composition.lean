import Orchestrator.Graphs.Search
import Orchestrator.Templates.Catalog

/-!
# Templates — composition

`TemplateCatalog.compose`: a Compose document for selected components.

* `validateSelection`, `normalizeServiceEnvironments`, `normalizeDependencies`: the arguments.
* `assertAcyclic`: the dependencies have no cycle.
* `renderVolumes`, `renderDependencies`, `internalConnectionEnvironment`, `renderService`: a service.
* `validateComposeDocument`: the check of the result.
* `compose`.
-/

namespace Orchestrator.Templates.TemplateCatalog
open Graphs

/-- What one component needs of another: nothing said, or a configuration with its condition. -/
abbrev DependencyConfig := Option Fields

/-- The dependencies of each component. -/
abbrev Dependencies := List (String × List (String × DependencyConfig))

def dependencyConditions : List String :=
  ["service_started", "service_healthy", "service_completed_successfully"]

variable (T : TemplateSettings) (c : TemplateCatalog)

/-! ### Arguments -/

/-- `_validate_selection`. -/
def validateSelection : Document → Except Exc (List String)
  | .list (item :: items) => match DockerSwarmAdapter.texts (item :: items) with
      | none => templateError "Component names must be strings"
      | some names =>
          let selected := names.map (canonicalComponent T c)
          if ¬ selected.Nodup then templateError "Duplicate components are not allowed"
          else
            let unknown := names.filter fun name =>
              canonicalComponent T c name ∉ c.components.map Prod.fst
            if unknown.isEmpty then .ok (selected.insertionSort (· ≤ ·))
            else templateError ("Unknown components: " ++
              joinTexts ", " (unknown.insertionSort (· ≤ ·)))
  | _ => templateError "At least one component is required"

/-- `_validate_appid`. -/
def validateNamespace : Option String → Except Exc (Option String)
  | none => .ok none
  | some appid => asTemplateError (do .ok (some (← externalNamespace (← validateAppid appid))))

/-- `_service_name`. -/
def serviceName (component : String) : Option String → String
  | some ns => boundedResourceName T.sha256 ns (some component)
  | none => component

/-- One entry of `_normalize_service_environments`. -/
def overrideEntry (selected : List String) (ns : Option String)
    (overrides : List (String × List (String × String))) (e : Key × Document) :
    Except Exc (List (String × List (String × String))) :=
  match e.1 with
  | .other _ => templateError "service_environment keys must be service names"
  | .str service =>
      let canonical := canonicalComponent T c service
      let component := if canonical ∈ selected then some canonical
        else selected.reverse.find? fun name => serviceName T name ns == service
      match component with
      | none => templateError "service_environment must reference selected components"
      | some name => do
          let values ← normalizeEnvironment s!"service environment for {service}" e.2
          .ok (Mapping.assign overrides name
            (Mapping.update ((overrides.lookup name).getD []) values))

/-- `_normalize_service_environments`. -/
def normalizeServiceEnvironments (selected : List String) (ns : Option String)
    (singular plural : Document) : Except Exc (List (String × List (String × String))) :=
  if singular.isNull = false ∧ plural.isNull = false then
    templateError "Use either service_environment or service_environments, not both"
  else match if singular.isNull then plural else singular with
    | .null => .ok []
    | .map overrides => overrides.foldlM (overrideEntry T c selected ns) []
    | _ => templateError "service_environment must be a mapping"

/-- A configuration, with its condition. -/
def normalizeCondition (config : Fields) : Except Exc DependencyConfig := do
  let condition := fieldD config "condition" (.str "service_started")
  if (← memberOf condition dependencyConditions) = false then
    templateError s!"Invalid dependency condition: {condition.text}"
  else .ok (some (setField config "condition" condition))

/-- `_normalize_dependency_config`. -/
def normalizeDependencyConfig : Document → Except Exc DependencyConfig
  | .null => .ok none
  | .str condition => normalizeCondition [(.str "condition", .str condition)]
  | .map config => normalizeCondition config
  | _ => templateError "Dependency configuration must be a condition or mapping"

/-- One dependency of `name`. -/
def dependencyItem (selected : List String) (name : String) (normalized : Dependencies)
    (item : Document × Document) : Except Exc Dependencies :=
  match item.1 with
  | .str dependency =>
      let dependency := canonicalComponent T c dependency
      if dependency ∉ selected then
        templateError "Dependencies must reference selected components"
      else if dependency ∈ ((normalized.lookup name).getD []).map Prod.fst then
        templateError "Duplicate dependencies are not allowed"
      else do
        let config ← normalizeDependencyConfig item.2
        .ok (normalized.map fun e => if e.1 = name then (e.1, e.2 ++ [(dependency, config)]) else e)
  | _ => templateError "Dependencies must reference selected components"

/-- A key of a mapping, as a value. -/
def keyDocument : Key → Document
  | .str s => .str s
  | .other t => .other t true none

/-- The dependencies that an entry lists, each with its configuration. -/
def dependencyItems : Document → Except Exc (List (Document × Document))
  | .list items => .ok (items.map fun d => (d, .null))
  | .map entries => .ok (entries.map fun e => (keyDocument e.1, e.2))
  | _ => templateError "Dependencies must be lists or mappings"

/-- One entry of the dependencies. -/
def dependencyEntry (selected : List String) (normalized : Dependencies) (e : Key × Document) :
    Except Exc Dependencies :=
  match e.1 with
  | .other _ => templateError "Dependencies must reference selected components"
  | .str name =>
      let name := canonicalComponent T c name
      if name ∉ selected then templateError "Dependencies must reference selected components"
      else do
        (← dependencyItems e.2).foldlM (dependencyItem T c selected name) normalized

/-- The entries of the dependencies, sorted by component and by dependency. -/
def normalizeEntries (selected : List String) (dependencies : Fields) : Except Exc Dependencies := do
  let normalized ← dependencies.foldlM (dependencyEntry T c selected)
    (selected.map fun name => (name, []))
  .ok (Mapping.sortKeys (normalized.map fun e => (e.1, Mapping.sortKeys e.2)))

/-- `_normalize_dependencies`. -/
def normalizeDependencies (selected : List String) : Document → Except Exc Dependencies
  | .null => normalizeEntries T c selected []
  | .map dependencies => normalizeEntries T c selected dependencies
  | _ => templateError "Dependencies must be a mapping"

/-- The dependencies of a component, without their configurations. -/
def requiredBy (dependencies : Dependencies) (name : String) : List String :=
  ((dependencies.lookup name).getD []).map Prod.fst

/-- `_assert_acyclic`; its `visit` calls itself, which is a `RecursionError` when too deep. -/
def assertAcyclic (selected : List String) (dependencies : Dependencies) : Except Exc Unit :=
  match search (requiredBy dependencies) T.depth selected with
  | .done _ => .ok ()
  | .cycle => templateError "Component dependencies contain a cycle"
  | .spent => .error (exc .runtimeError "maximum recursion depth exceeded")

/-! ### Services -/

/-- `value.replace("\x7bname\x7d", text)`. -/
def replacePlaceholder (value : String) (e : String × String) : String :=
  String.ofList (Replace.replace (("\x7b" ++ e.1 ++ "\x7d").toList) e.2.toList value.toList)

/-- What the placeholders of a template stand for. -/
def placeholders (appid ns component host : String) (port : Nat) : List (String × String) :=
  [("appid", appid), ("namespace", ns), ("component", component), ("host", host),
    ("port", toString port)]

/-- `_render_environment_values`. -/
def renderEnvironmentValues (values : List (String × String))
    (replacements : List (String × String)) : List (String × String) :=
  values.map fun e => (e.1, replacements.foldl replacePlaceholder e.2)

/-- `re.sub(r"[^A-Za-z0-9]", "_", name).upper()`. -/
def variablePrefix (name : String) : String :=
  String.ofList (name.toList.map fun ch => if isAlnum ch then ch.toUpper else '_')

/-- The connection of a component that says nothing of its own. -/
def defaultConnection (dependency : String) : List (String × String) :=
  [(variablePrefix dependency ++ "_HOST", "\x7bhost\x7d"),
    (variablePrefix dependency ++ "_PORT", "\x7bport\x7d")]

/-- `_internal_connection_environment`. -/
def internalConnectionEnvironment (appid ns : String) (dependencies : List String)
    (names : String → String) : List (String × String) :=
  dependencies.foldl (fun environment dependency =>
    match c.components.lookup dependency with
    | none => environment
    | some component =>
        let templates := if component.connection.isEmpty then defaultConnection dependency
          else component.connection
        Mapping.update environment (renderEnvironmentValues templates
          (placeholders appid ns dependency (names dependency) component.port))) []

/-- Whether a component has a health check. -/
def hasHealthcheck (name : String) : Bool :=
  match c.components.lookup name with
  | some component => !component.healthcheck.isEmpty
  | none => false

/-- The rendered configuration of one dependency. -/
def renderDependency (name : String) (names : String → String) (rendered : Fields)
    (e : String × DependencyConfig) : Except Exc Fields :=
  let config := e.2.getD [(.str "condition",
    .str (if hasHealthcheck c e.1 then "service_healthy" else "service_started"))]
  if (field config "condition").isText "service_healthy" ∧ hasHealthcheck c e.1 = false then
    templateError s!"Service {name} requires {e.1} to be healthy, but it has no healthcheck"
  else .ok (setField rendered (names e.1) (.map config))

/-- `_render_dependencies`. -/
def renderDependencies (name : String) (dependencies : List (String × DependencyConfig))
    (names : String → String) (conditions : Bool) : Except Exc (Option Document) :=
  if dependencies.isEmpty then .ok none
  else if conditions = false ∧ dependencies.all (fun e => e.2.isNone) then
    .ok (some (.list (dependencies.map fun e => .str (names e.1))))
  else do
    .ok (some (.map (← dependencies.foldlM (renderDependency c name names) [])))

/-- The alias of a volume of a template, and the name that is rendered for it. -/
def volumeName (name source : String) (ns : Option String) : Except Exc String := do
  let alias_ ← templateVolumeAlias T.sha256 name source
  match ns with
  | some ns => managedVolumeName T.sha256 ns alias_
  | none => .ok alias_

/-- The loop of `_render_volumes`. -/
def renderVolume (name : String) (ns : Option String) (state : List String × Fields)
    (volume : String × String) : Except Exc (List String × Fields) := do
  let rendered ← asTemplateError (volumeName T name volume.1 ns)
  .ok (state.1 ++ [rendered ++ ":" ++ volume.2],
    setField state.2 rendered
      (.map (if ns.isSome then [(.str "name", .str rendered)] else [])))

/-- `_render_volumes`: the mounts, and the volumes that are declared. -/
def renderVolumes (component : Component) (name : String) (ns : Option String) :
    Except Exc (List String × Fields) :=
  let workspace := if component.workingDir = some "/workspace" ∧
      component.volumes.all (fun v => v.2 != "/workspace") then [".:/workspace"] else []
  component.volumes.foldlM (renderVolume T name ns) (workspace, [])

/-- `d.update(e)`. -/
def updateFields (d e : Fields) : Fields := e.foldl (fun d x => setField d x.1.text x.2) d

/-- A field of a service, where there is something to say. -/
def optionalField (key : String) : Option Document → Fields
  | some value => [(.str key, value)]
  | none => []

/-- What `compose` renders every service with. -/
structure Rendering where
  appid : Option String
  ns : Option String
  globalEnvironment : List (String × String)
  overrides : List (String × List (String × String))
  dependencies : Dependencies
  conditions : Bool

/-- `service_names[name]`. -/
def Rendering.names (R : Rendering) (name : String) : String := serviceName T name R.ns

/-- The environment of a service. -/
def renderEnvironment (R : Rendering) (name : String) (component : Component) :
    List (String × String) :=
  let appid := R.appid.getD ""
  let ns := R.ns.getD ""
  let own := renderEnvironmentValues component.environment
    (placeholders appid ns name (R.names T name) component.port)
  let connected := Mapping.update own
    (internalConnectionEnvironment c appid ns (requiredBy R.dependencies name) (R.names T))
  let shared := Mapping.update connected R.globalEnvironment
  Mapping.sortKeys (Mapping.update shared ((R.overrides.lookup name).getD []))

/-- The labels of a service of an application. -/
def serviceLabels (R : Rendering) (name : String) : Option Document :=
  match R.ns with
  | some ns => some (.map [
      (.str "io.docker-jenkins-orchestrator.appid", .str (R.appid.getD "")),
      (.str "io.docker-jenkins-orchestrator.namespace", .str ns),
      (.str "io.docker-jenkins-orchestrator.component", .str name)])
  | none => none

/-- A text for each entry. -/
def textMap (d : List (String × String)) : Fields := d.map fun e => (.str e.1, .str e.2)

/-- The definition of a service, and the volumes that it declares. -/
def renderService (R : Rendering) (name : String) (component : Component) :
    Except Exc (Fields × Fields) := do
  let (mounts, declared) ← renderVolumes T component name R.ns
  let environment := renderEnvironment T c R name component
  let dependencies ← renderDependencies c name ((R.dependencies.lookup name).getD [])
    (R.names T) R.conditions
  let ports := component.ports.map toString
  .ok ([(.str "build", component.build), (.str "image", .str component.image),
      (.str "expose", .list (ports.map .str))] ++
    optionalField "ports" (if component.publishPorts then
      some (.list (ports.map fun p => .str (p ++ ":" ++ p))) else none) ++
    optionalField "working_dir" ((component.workingDir.filter (· != "")).map .str) ++
    optionalField "command" (if component.command.isNull then none else some component.command) ++
    optionalField "restart" ((component.restart.filter (· != "")).map .str) ++
    optionalField "volumes" (if mounts.isEmpty then none else some (.list (mounts.map .str))) ++
    optionalField "environment" (if environment.isEmpty then none
      else some (.map (textMap environment))) ++
    optionalField "depends_on" dependencies ++
    optionalField "healthcheck" (if component.healthcheck.isEmpty then none
      else some (.map component.healthcheck)) ++
    optionalField "labels" (serviceLabels R name), declared)

/-- One service, added to the services and the volumes. -/
def addService (R : Rendering) (state : Fields × Fields) (name : String) :
    Except Exc (Fields × Fields) :=
  match c.components.lookup name with
  | none => .error (exc .keyError name)
  | some component => do
      let (service, declared) ← renderService T c R name component
      .ok (setField state.1 (R.names T name) (.map service), updateFields state.2 declared)

/-! ### The document -/

/-- The check of a condition of a dependency. -/
def validateCondition (services : Fields) (name : String) (dependency : Key) (config : Fields) :
    Except Exc Unit := do
  let condition := fieldD config "condition" (.str "service_started")
  if (← memberOf condition dependencyConditions) = false then
    templateError s!"Service {name} has an invalid dependency condition"
  else if condition.isText "service_healthy" = false then .ok ()
  else match services.lookup dependency with
    | some (.map target) =>
        if (field target "healthcheck").truthy then .ok ()
        else templateError (s!"Service {name} requires {dependency.text} to be healthy, but it " ++
          "has no healthcheck")
    | _ => .error (exc .attributeError "object has no attribute 'get'")

/-- The check of `depends_on`. -/
def validateDependsOn (services : Fields) (name : String) : Document → Except Exc Unit
  | .null => .ok ()
  | .list items => match DockerSwarmAdapter.texts items with
      | none => templateError s!"Service {name} has an unknown dependency"
      | some names =>
          if names.any fun s => Key.str s ∉ services.map Prod.fst then
            templateError s!"Service {name} has an unknown dependency"
          else if ¬ names.Nodup then templateError s!"Service {name} has duplicate dependencies"
          else .ok ()
  | .map entries => checkEach entries fun e => match e.2 with
      | .map config =>
          if e.1 ∉ services.map Prod.fst then
            templateError s!"Service {name} has an unknown dependency"
          else validateCondition services name e.1 config
      | _ => templateError s!"Service {name} has an unknown dependency"
  | _ => templateError s!"Service {name} has invalid depends_on"

/-- The check of one service. -/
def validateComposeService (services : Fields) (e : Key × Document) : Except Exc Unit :=
  match e.1, e.2 with
  | .str name, .map service => match field service "image" with
      | .str image =>
          if image = "" then templateError s!"Service {name} must define an image"
          else validateDependsOn services name (field service "depends_on")
      | _ => templateError s!"Service {name} must define an image"
  | _, _ => templateError "Compose services must be named mappings"

/-- `validate_compose_document`. -/
def validateComposeDocument : Document → Except Exc Unit
  | .map document =>
      if (field document "version").isText "3.9" = false then
        templateError "Compose document version must be \"3.9\""
      else match field document "services" with
        | .map (service :: services) => do
            checkEach (service :: services) (validateComposeService (service :: services))
            asTemplateError (ComposeContract.validateLocalBuildCompose (.map document))
        | _ => templateError "Compose document must contain services"
  | _ => templateError "Compose document must be a mapping"

/-- The entries of a mapping in the order of their keys. -/
def sortFields (d : Fields) : Fields := d.insertionSort fun x y => x.1.text ≤ y.1.text

/-- The document of the services and the volumes. -/
def composeDocument (resourceNamespace : Option String) (services volumes : Fields) : Document :=
  .map (optionalField "name" (resourceNamespace.map .str) ++
    [(.str "version", .str "3.9"), (.str "services", .map services)] ++
    optionalField "volumes" (if volumes.isEmpty then none else some (.map (sortFields volumes))))

/-- `compose`. -/
def compose (components dependencies : Document) (appid : Option String)
    (environment serviceEnvironment serviceEnvironments : Document)
    (dependencyConditions : Bool) : Except Exc Document := do
  let selected ← validateSelection T c components
  let ns ← validateNamespace appid
  let globalEnvironment ← normalizeEnvironment "environment" environment
  let overrides ← normalizeServiceEnvironments T c selected ns serviceEnvironment
    serviceEnvironments
  let normalized ← normalizeDependencies T c selected dependencies
  assertAcyclic T selected normalized
  let R : Rendering :=
    ⟨appid, ns, globalEnvironment, overrides, normalized, dependencyConditions⟩
  let (services, volumes) ← selected.foldlM (addService T c R) ([], [])
  let document := composeDocument (ns.map fun ns => boundedResourceName T.sha256 ns) services volumes
  validateComposeDocument document
  .ok document

end Orchestrator.Templates.TemplateCatalog
