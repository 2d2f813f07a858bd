import Orchestrator.Docker.Pipeline
import Orchestrator.Models.Mappings
import Orchestrator.Text.Replace

/-!
# Templates — the catalog

`TemplateCatalog`, but for the documents it is read from and written to.

* `Component`: a definition that has been checked; `validateComponentBody`: the check.
* `TemplateCatalog`, `upsertComponent`, `removeComponent`, `loadComponents`: the catalog and what
  changes it.
* `Reachable`: the catalogs that these changes lead to.
-/

namespace Orchestrator

/-- What a catalog is used with: the digest, `str.lower`, and how many calls may be one in another
before the interpreter raises `RecursionError`. -/
structure TemplateSettings where
  sha256 : Sha256
  lower : String → String
  depth : Nat

/-- `raise TemplateError(message)`. -/
def templateError {α : Type} (message : String) : Except Exc α := .error (exc .valueError message)

/-- The error of a name or of a build, as one of the catalog. -/
def asTemplateError {α : Type} (x : Except Exc α) : Except Exc α :=
  match x with
  | .ok a => .ok a
  | .error e => templateError e.message

namespace Templates

/-! ### Components -/

/-- A normalised definition: it has an image and a port. -/
structure Component where
  images : List String
  build : Document
  ports : List Nat
  publishPorts : Bool
  environment : List (String × String)
  healthcheck : Fields
  connection : List (String × String)
  volumes : List (String × String)
  command : Document
  workingDir : Option String
  restart : Option String
  images_ne : images ≠ []
  ports_ne : ports ≠ []

namespace Component

/-- `component["images"][0]`. -/
def image (c : Component) : String := c.images.head c.images_ne

/-- `component["ports"][0]`. -/
def port (c : Component) : Nat := c.ports.head c.ports_ne

end Component

/-- `value is not None and isinstance(value, (str, int, float, bool))`. -/
def isScalar : Document → Bool
  | .bool _ | .int _ | .float _ | .str _ => true
  | _ => false

/-- An entry of an environment, as `_normalize_environment` reads it. -/
def environmentEntry (label : String) (e : Key × Document) : Except Exc (String × String) :=
  match e.1.str? with
  | none | some "" => templateError s!"{label} keys must be non-empty strings"
  | some key =>
      if isScalar e.2 then .ok (key, e.2.plainText)
      else templateError s!"{label} values must be scalar values"

/-- One step of its loop. -/
def normalizeEntry (label : String) (normalized : List (String × String)) (e : Key × Document) :
    Except Exc (List (String × String)) := do
  let (key, value) ← environmentEntry label e
  .ok (Mapping.assign normalized key value)

/-- `_normalize_environment`. -/
def normalizeEnvironment (label : String) : Document → Except Exc (List (String × String))
  | .null => .ok []
  | .map values => do .ok (Mapping.sortKeys (← values.foldlM (normalizeEntry label) []))
  | _ => templateError s!"{label} must be a mapping"

/-- `template_volume_alias`. -/
def templateVolumeAlias (H : Sha256) (component source : String) : Except Exc String :=
  if isResourceName component = false ∨ isResourceName source = false then
    namingError "template volume component and source must be Docker resource names"
  else .ok (volumeIdentityName H "tplvol-v1" component source)

/-- The texts of a list that is not empty. -/
def validateImages (name : String) (raw : Document) : Except Exc {l : List String // l ≠ []} :=
  match raw with
  | .list items => match DockerSwarmAdapter.texts items with
      | some (image :: images) =>
          if (image :: images).contains "" then
            templateError s!"Component {name} must define at least one image"
          else if (image :: images).any fun i => ":latest".toList.isSuffixOf i.toList then
            templateError s!"Component {name} must not use an unpinned latest image"
          else .ok ⟨image :: images, List.cons_ne_nil _ _⟩
      | _ => templateError s!"Component {name} must define at least one image"
  | _ => templateError s!"Component {name} must define at least one image"

/-- One port. -/
def validatePort (name : String) : Document → Except Exc Nat
  | .int n => if 1 ≤ n ∧ n ≤ 65535 then .ok n.toNat
      else templateError s!"Component {name} has an invalid port"
  | _ => templateError s!"Component {name} has an invalid port"

/-- The ports: of `ports`, or the one of `port`. -/
def validatePorts (name : String) (component : Fields) : Except Exc {l : List Nat // l ≠ []} :=
  let raw := if (field component "ports").isNull then .list [field component "port"]
    else field component "ports"
  match raw with
  | .list (item :: items) => do
      let port ← validatePort name item
      .ok ⟨port :: (← items.mapM (validatePort name)), List.cons_ne_nil _ _⟩
  | _ => templateError s!"Component {name} must define one or more ports"

/-- The entries of `connection.environment`. -/
def validateConnection (name : String) (component : Fields) :
    Except Exc (List (String × String)) :=
  match fieldD component "connection" (.map []) with
  | .map connection => match fieldD connection "environment" (.map []) with
      | .map entries => entries.mapM fun e => match e.1, e.2 with
          | .str key, .str value => .ok (key, value)
          | _, _ => templateError s!"Component {name} connection environment must contain strings"
      | _ => templateError s!"Component {name} connection environment must be a mapping"
  | _ => templateError s!"Component {name} connection must be a mapping"

/-- One volume: its source and its target. -/
def validateVolume (H : Sha256) (name : String) : Document → Except Exc (String × String)
  | .map volume => match field volume "source", field volume "target" with
      | .str source, .str target =>
          if source = "" ∨ startsWith target "/" = false then
            templateError s!"Component {name} volume requires source and absolute target"
          else match templateVolumeAlias H name source with
            | .ok _ => .ok (source, target)
            | .error _ =>
                templateError s!"Component {name} volume requires a valid named source"
      | _, _ => templateError s!"Component {name} volume requires source and absolute target"
  | _ => templateError s!"Component {name} volume must be a mapping"

def validateVolumes (H : Sha256) (name : String) (component : Fields) :
    Except Exc (List (String × String)) :=
  match fieldD component "volumes" (.list []) with
  | .list items => items.mapM (validateVolume H name)
  | _ => templateError s!"Component {name} volumes must be a list"

def validateHealthcheck (name : String) (component : Fields) : Except Exc Fields :=
  match field component "healthcheck" with
  | .null => .ok []
  | .map healthcheck => .ok healthcheck
  | _ => templateError s!"Component {name} healthcheck must be a mapping"

def validateCommand (name : String) (component : Fields) : Except Exc Document :=
  match field component "command" with
  | .null => .ok .null
  | .str s => .ok (.str s)
  | .list items => .ok (.list items)
  | _ => templateError s!"Component {name} command must be a string or list"

def validateWorkingDir (name : String) (component : Fields) : Except Exc (Option String) :=
  match field component "working_dir" with
  | .null => .ok none
  | .str s => if startsWith s "/" then .ok (some s)
      else templateError s!"Component {name} working_dir must be an absolute path"
  | _ => templateError s!"Component {name} working_dir must be an absolute path"

def validateRestart (name : String) (component : Fields) : Except Exc (Option String) :=
  match field component "restart" with
  | .null => .ok none
  | .str s => .ok (some s)
  | _ => templateError s!"Component {name} restart must be a string"

/-- `_validate_boolean`. -/
def validateBoolean (label : String) : Document → Except Exc Bool
  | .bool b => .ok b
  | _ => templateError s!"{label} must be a boolean"

/-- The build that a component without one has. -/
def defaultBuild : Document :=
  .map [(.str "context", .str "."), (.str "dockerfile", .str "Dockerfile")]

/-- `_validate_component`. -/
def validateComponentBody (H : Sha256) (name : String) : Document → Except Exc Component
  | .map component => do
      let images ← validateImages name (field component "images")
      let build := fieldD component "build" defaultBuild
      asTemplateError (ComposeContract.normalizeLocalBuild build name)
      let ports ← validatePorts name component
      let environment ← normalizeEnvironment s!"component {name} environment"
        (field component "environment")
      let healthcheck ← validateHealthcheck name component
      let connection ← validateConnection name component
      let volumes ← validateVolumes H name component
      let command ← validateCommand name component
      let workingDir ← validateWorkingDir name component
      let restart ← validateRestart name component
      let publishPorts ← validateBoolean s!"Component {name} publish_ports"
        (fieldD component "publish_ports" (.bool true))
      .ok {
        images := images.1, build, ports := ports.1, publishPorts, environment, healthcheck,
        connection, volumes, command, workingDir, restart,
        images_ne := images.2, ports_ne := ports.2 }
  | _ => templateError s!"Component {name} must be a mapping"

/-! ### The catalog -/

structure TemplateCatalog where
  components : List (String × Component)
  aliases : List (String × String)

namespace TemplateCatalog

/-- `_canonical_component`. -/
def canonicalComponent (T : TemplateSettings) (c : TemplateCatalog) (name : String) : String :=
  if name ∈ c.components.map Prod.fst then name
  else (c.aliases.lookup (T.lower name)).getD (T.lower name)

/-- `validate_component`. -/
def validateComponent (T : TemplateSettings) (name : String) (component : Document) :
    Except Exc Component :=
  if isAppid name = false then
    templateError ("Technology stack id must contain only letters, numbers, underscores, and " ++
      "hyphens")
  else validateComponentBody T.sha256 name component

/-- `upsert_component`. -/
def upsertComponent (T : TemplateSettings) (c : TemplateCatalog) (name : String)
    (component : Document) : Except Exc TemplateCatalog := do
  let normalized ← validateComponent T name component
  .ok { c with components := Mapping.assign c.components name normalized }

/-- `remove_component`. -/
def removeComponent (c : TemplateCatalog) (name : String) : TemplateCatalog :=
  { c with components := c.components.filter fun e => e.1 != name }

/-- `load_components`. -/
def loadComponents (T : TemplateSettings) (c : TemplateCatalog)
    (components : List (String × Document)) : Except Exc TemplateCatalog :=
  components.foldlM (fun c e => upsertComponent T c e.1 e.2) { c with components := [] }

/-- What the technology stacks make of a catalog: it is loaded from them, and changed with them. -/
inductive Reachable (T : TemplateSettings) : TemplateCatalog → Prop
  | load {c c' : TemplateCatalog} {components : List (String × Document)}
      (h : loadComponents T c components = .ok c') : Reachable T c'
  | upsert {c c' : TemplateCatalog} {name : String} {component : Document} (h : Reachable T c)
      (hu : upsertComponent T c name component = .ok c') : Reachable T c'
  | remove {c : TemplateCatalog} (name : String) (h : Reachable T c) :
      Reachable T (c.removeComponent name)

end TemplateCatalog

/-! ### A sample -/

/-- The definition of a component with an image and a port. -/
def plainDocument : Document :=
  .map [(.str "images", .list [.str "app:1"]), (.str "port", .int 80)]

def plainComponent : Component where
  images := ["app:1"]
  build := defaultBuild
  ports := [80]
  publishPorts := true
  environment := []
  healthcheck := []
  connection := []
  volumes := []
  command := .null
  workingDir := none
  restart := none
  images_ne := List.cons_ne_nil _ _
  ports_ne := List.cons_ne_nil _ _

end Templates

end Orchestrator
