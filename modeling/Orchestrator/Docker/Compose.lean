import Mathlib.Data.List.Sort
import Orchestrator.Models.Builds
import Orchestrator.Models.Decimals
import Orchestrator.Models.Fallible
import Orchestrator.Docker.Naming
import Orchestrator.Docker.Cleaner

/-!
# Docker — what a Compose document may say

The conversions of `DockerSwarmAdapter` that need no engine, and `validate_compose`, which makes
them all before a client is opened.

* `environment`, `labels`, `ports`, `command`, `mounts`, `shmMount`, `healthcheck`, `mode`,
  `restartPolicy`, `resources`: of one service definition.
* `validateComposeFeatures`, `deploymentOrder`, `validateTopLevel`, `validateCompose`.

`DockerUtils.parseBytes` is `docker.utils.parse_bytes`, which belongs to the SDK.
-/

namespace Orchestrator

structure DockerUtils where
  parseBytes : String → Except Exc Int

/-- `raise DockerServiceError(message)`. -/
def refuse {α : Type} (message : String) : Except Exc α := .error (exc .dockerService message)

/-- `raise TypeError`. -/
def typeError {α : Type} (message : String) : Except Exc α := .error (exc .typeError message)

/-- `None if raw is None else convert(raw)`. -/
def optional {α : Type} (raw : Document) (convert : Document → Except Exc α) :
    Except Exc (Option α) :=
  match raw with
  | .null => .ok none
  | raw => do .ok (some (← convert raw))

/-- `item in names`, of a set of texts. -/
def memberOf (x : Document) (names : List String) : Except Exc Bool :=
  if x.unhashable then typeError "unhashable type"
  else .ok (names.any fun s => x.isText s)

/-- The fields beyond `allowed`, sorted, are refused with a message that lists them; a list of
anything but texts cannot be joined. -/
def refuseBeyond (message : String) (fields : Fields) (allowed : List String) :
    Except Exc Unit :=
  let beyond := (fields.map Prod.fst).filter fun k => match k with
    | .str s => !allowed.contains s
    | .other _ => true
  if beyond.isEmpty then .ok ()
  else if beyond.any fun k => k.str?.isNone then typeError "expected str instance"
  else refuse (message ++ joinTexts ", " ((beyond.map Key.text).insertionSort (· ≤ ·)))

namespace DockerSwarmAdapter

/-! ### One field -/

/-- `_ENV_KEY_PATTERN.fullmatch(key)`. -/
def isEnvKey (key : String) : Bool :=
  match key.toList with
  | [] => false
  | c :: cs => ((isAlnum c && !c.isDigit) || c == '_') && cs.all fun c => isAlnum c || c == '_'

/-- `_environment`: the entries, each a name and a value. -/
def environment : Document → Except Exc (List (String × String))
  | .null => .ok []
  | .map entries =>
      if entries.all (fun e => e.1.str?.any isEnvKey) = false then
        refuse "Compose service environment is invalid"
      else
        ((entries.map fun e => (e.1.text, e.2)).insertionSort (fun e f => e.1 ≤ f.1)).mapM fun e =>
          if e.2.isNull then refuse "Compose service environment is invalid"
          else .ok (e.1, e.2.plainText)
  | .list items => items.mapM fun
      | .str item => match splitOnce '=' item with
          | some (key, value) =>
              if isEnvKey key then .ok (key, value)
              else refuse "Compose service environment is invalid"
          | none => refuse "Compose service environment is invalid"
      | _ => refuse "Compose service environment is invalid"
  | _ => refuse "Compose service environment is invalid"

/-- The entries of `_labels` that the document gives. -/
def givenLabels : Document → Except Exc Labels
  | .null => .ok []
  | .map entries => entries.mapM fun e => match e.1 with
      | .str key =>
          if key = "" ∨ e.2.isNull then refuse "Compose labels are invalid"
          else .ok (key, e.2.plainText)
      | .other _ => refuse "Compose labels are invalid"
  | _ => refuse "Compose labels must be a mapping"

/-- `_labels`. -/
def labels (appid composeName : String) (raw : Document) (ns : String) : Except Exc Labels := do
  let given ← givenLabels raw
  .ok (given.update
    [(appLabel, appid), (namespaceLabel, ns),
     ("io.docker-jenkins-orchestrator.compose-service", composeName)])

def portProtocols : List String := ["tcp", "udp", "sctp"]

/-- `_port_number`. -/
def portNumber (value : Document) : Except Exc Nat :=
  match value with
  | .bool _ => refuse "Compose service port is invalid"
  | value => do
      match ← value.toInt with
      | none => refuse "Compose service port is invalid"
      | some number =>
          if 1 ≤ number ∧ number ≤ 65535 then .ok number.toNat
          else refuse "Compose service port is invalid"

/-- `_short_port`. -/
def shortPort (raw : String) : Except Exc PublishedPort :=
  let value := strip raw
  if value = "" then refuse "Compose service port is invalid"
  else
    let (value, protocol) := (rsplit '/' value).getD (value, "tcp")
    if portProtocols.contains protocol = false then
      refuse "Compose service port protocol is invalid"
    else match split ':' value with
      | [target] => do .ok ⟨← portNumber (.str target), none, protocol, "ingress"⟩
      | [published, target] => do
          let published ← portNumber (.str published)
          .ok ⟨← portNumber (.str target), some published, protocol, "ingress"⟩
      | _ => refuse
          "Compose host-IP and port-range bindings are not supported for Swarm services"

/-- `_long_port`. -/
def longPort (raw : Fields) : Except Exc PublishedPort := do
  let target ← portNumber (field raw "target")
  let published ← optional (field raw "published") portNumber
  match fieldD raw "protocol" (.str "tcp"), fieldD raw "mode" (.str "ingress") with
  | .str protocol, .str mode =>
      if portProtocols.contains protocol = false ∨ ["ingress", "host"].contains mode = false then
        refuse "Compose service port is invalid"
      else if ((field raw "host_ip").isNull || (field raw "host_ip").isText "") = false then
        refuse "Compose host-IP bindings are not supported for Swarm services"
      else .ok ⟨target, published, protocol, mode⟩
  | _, _ => refuse "Compose service port is invalid"

/-- `_ports`. -/
def ports : Document → Except Exc (List PublishedPort)
  | .null => .ok []
  | .list items => items.mapM fun
      | .str item => shortPort item
      | .map item => longPort item
      | _ => refuse "Compose service port is invalid"
  | _ => refuse "Compose service ports must be a list"

/-- A command or a health test: a text, or a list of them. -/
inductive Command where
  | shell (text : String)
  | exec (words : List String)
  deriving DecidableEq, Repr

/-- The texts of a list of nothing else. -/
def texts (items : List Document) : Option (List String) :=
  items.mapM fun
    | .str s => some s
    | _ => none

/-- `_command`. -/
def command : Document → Except Exc Command
  | .str s => .ok (.shell s)
  | .list items => match texts items with
      | some words => .ok (.exec words)
      | none => refuse "Compose service command is invalid"
  | _ => refuse "Compose service command is invalid"

/-- The check of `working_dir`. -/
def workingDir : Document → Except Exc (Option String)
  | .null => .ok none
  | .str s => if startsWith s "/" then .ok (some s)
      else refuse "Compose working directory is invalid"
  | _ => refuse "Compose working directory is invalid"

/-- A mount of the short form. -/
def shortMount (sources : List (String × String)) (item : String) : Except Exc String :=
  let parts := split ':' item
  let head := parts.headD ""
  if parts.length = 2 ∨ parts.length = 3 then
    match sources.lookup head, startsWith head "/" with
    | some source, false => .ok (join ':' (source :: parts.tail))
    | _, _ =>
        if startsWith head "." || startsWith head "~" then
          refuse "Compose relative bind volume paths are not supported for Swarm services"
        else .ok item
  else .ok item

/-- A mount of the long form. -/
def longMount (sources : List (String × String)) (item : Fields) : Except Exc String :=
  match field item "source", field item "target" with
  | .str source, .str target =>
      if source = "" ∨ startsWith target "/" = false then
        refuse "Compose service volume is invalid"
      else do
        let kind := fieldD item "type" (.str "volume")
        if (← memberOf kind ["volume", "bind"]) = false then
          refuse "Compose service volume type is invalid"
        else if kind.isText "bind" ∧ startsWith source "/" = false then
          refuse "Compose relative bind volume paths are not supported for Swarm services"
        else
          let readOnly := field item "read_only"
          if (readOnly.isNull || readOnly.isBool true || readOnly.isBool false) = false then
            refuse "Compose service volume read_only flag is invalid"
          else
            let source := if kind.isText "volume" then (sources.lookup source).getD source
              else source
            .ok (join ':' [source, target, if readOnly.isTrue then "ro" else "rw"])
  | _, _ => refuse "Compose service volume is invalid"

/-- `_mounts`. -/
def mounts (raw : Document) (sources : List (String × String) := []) :
    Except Exc (List String) :=
  match raw with
  | .null => .ok []
  | .list items => items.mapM fun
      | .str item => if item = "" then refuse "Compose service volume is invalid"
          else shortMount sources item
      | .map item => longMount sources item
      | _ => refuse "Compose service volume is invalid"
  | _ => refuse "Compose service volumes must be a list"

/-- A size in bytes: `parse_bytes(raw) if isinstance(raw, str) else int(raw)`, positive. -/
def positiveBytes (U : DockerUtils) (message : String) (raw : Document) : Except Exc Int := do
  let size ← match raw with
    | .str s => match U.parseBytes s with
        | .ok n => .ok n
        | .error e =>
            if e.kind = .typeError ∨ e.kind = .valueError then refuse message else .error e
    | raw => do match ← raw.toInt with
        | some n => .ok n
        | none => refuse message
  if size ≤ 0 then refuse message else .ok size

/-- `_shm_mount`: the size of the mount. -/
def shmMount (U : DockerUtils) (raw : Document) : Except Exc Int :=
  positiveBytes U "Compose shm_size is invalid" raw

/-! ### Health checks -/

/-- The units of a duration, in nanoseconds; of two that fit, the first is taken. -/
def durationUnits : List (String × Int) :=
  [("ns", 1), ("us", 1000), ("ms", 1000000), ("s", 1000000000), ("m", 60000000000),
   ("h", 3600000000000)]

/-- `_DURATION_PART.match`: the value of the part, and what follows it. -/
def durationPart (s : List Char) : Option (Decimal × List Char) :=
  match takeDigits s with
  | ([], _) => none
  | (whole, rest) =>
      let fraction := match rest with
        | '.' :: cs => match takeDigits cs with
            | ([], _) => ([], rest)
            | (digits, after) => (digits, after)
        | _ => ([], rest)
      (durationUnits.find? fun u => u.1.toList.isPrefixOf fraction.2).map fun u =>
        ((Decimal.number (ofDigits (whole ++ fraction.1)) (-fraction.1.length)).mul
          (.number u.2 0), fraction.2.drop u.1.toList.length)

/-- The parts of a duration, added up; each takes at least one character. -/
def durationParts : Nat → Decimal → List Char → Option Decimal
  | _, total, [] => some total
  | 0, _, _ => none
  | n + 1, total, s =>
      match durationPart s with
      | none => none
      | some (value, rest) => durationParts n (total.add value) rest

/-- `_duration_ns`. -/
def durationNs (raw : Document) : Except Exc Int := do
  let value ← match raw with
    | .int n => .ok n
    | .str s =>
        let text := (strip s).toList
        if text.isEmpty then refuse "Compose healthcheck duration is invalid"
        else match durationParts text.length (.number 0 0) text with
          | some total => total.toInt
          | none => refuse "Compose healthcheck duration is invalid"
    | _ => refuse "Compose healthcheck duration is invalid"
  if value < 0 then refuse "Compose healthcheck duration is invalid" else .ok value

/-- What `_healthcheck` hands to Docker. -/
structure Healthcheck where
  test : List String
  interval : Option Int := none
  timeout : Option Int := none
  startPeriod : Option Int := none
  retries : Option Int := none
  deriving DecidableEq, Repr

/-- The test of a health check. -/
def healthTest : Document → Except Exc (List String)
  | .str s => .ok ["CMD-SHELL", s]
  | .list items => match texts items with
      | some (word :: words) => .ok (word :: words)
      | _ => refuse "Compose healthcheck test is invalid"
  | _ => refuse "Compose healthcheck test is invalid"

/-- The retries of a health check. -/
def healthRetries : Document → Except Exc Int
  | .int n => if n < 0 then refuse "Compose healthcheck retries are invalid" else .ok n
  | _ => refuse "Compose healthcheck retries are invalid"

/-- `_healthcheck`. -/
def healthcheck : Document → Except Exc (Option Healthcheck)
  | .null => .ok none
  | .map raw =>
      if (field raw "disable").isTrue then .ok (some { test := ["NONE"] })
      else if ((field raw "disable").isNull || (field raw "disable").isBool false) = false then
        refuse "Compose healthcheck disable flag is invalid"
      else if (field raw "test").isNull then .ok none
      else do
        let test ← healthTest (field raw "test")
        let interval ← optional (field raw "interval") durationNs
        let timeout ← optional (field raw "timeout") durationNs
        let startPeriod ← optional (field raw "start_period") durationNs
        let retries ← optional (field raw "retries") healthRetries
        if fieldsWithin raw ["test", "disable", "interval", "timeout", "start_period", "retries"] then
          .ok (some { test, interval, timeout, startPeriod, retries })
        else refuse "Compose healthcheck contains unsupported fields"
  | _ => refuse "Compose healthcheck is invalid"

/-! ### Placement and resources -/

inductive ServiceMode where
  | global
  | replicated (replicas : Int)
  deriving DecidableEq, Repr

/-- `_mode`. -/
def mode : Document → Except Exc (Option ServiceMode)
  | .null => .ok none
  | .map deploy =>
      let mode := fieldD deploy "mode" (.str "replicated")
      if mode.isText "global" then .ok (some .global)
      else if mode.isText "replicated" = false then refuse "Compose deploy mode is invalid"
      else match fieldD deploy "replicas" (.int 1) with
        | .int n => if n < 0 then refuse "Compose service replica count is invalid"
            else .ok (some (.replicated n))
        | _ => refuse "Compose service replica count is invalid"
  | _ => refuse "Compose deploy settings are invalid"

/-- `raw_deploy.get(key) if isinstance(raw_deploy, Mapping) else None`. -/
def deployField (deploy : Document) (key : String) : Document :=
  match deploy with
  | .map fields => field fields key
  | _ => .null

/-- The restart values of Compose, with the conditions of Swarm. -/
def restartConditions : List (String × String) :=
  [("no", "none"), ("always", "any"), ("unless-stopped", "any"), ("on-failure", "on-failure")]

/-- `_restart_policy`. -/
def restartPolicy (restart deploy : Document) : Except Exc (Option String) :=
  match deployField deploy "restart_policy" with
  | .null => match restart with
      | .null => .ok none
      | .str s => match restartConditions.lookup s with
          | some condition => .ok (some condition)
          | none => refuse "Compose restart policy is invalid"
      | _ => refuse "Compose restart policy is invalid"
  | .map policy => do
      let condition := fieldD policy "condition" (.str "any")
      if ← memberOf condition ["none", "on-failure", "any"] then .ok (some condition.text)
      else refuse "Compose restart policy is invalid"
  | _ => refuse "Compose restart policy is invalid"

/-- `_cpu_nano`. -/
def cpuNano (raw : Document) : Except Exc Int :=
  match raw with
  | .bool _ => refuse "Compose CPU resource is invalid"
  | raw => match parseDecimal raw.text with
      | none => refuse "Compose CPU resource is invalid"
      | some value => match (value.mul (.number 1000000000 0)).toInt with
          | .error e => if e.kind = .valueError then refuse "Compose CPU resource is invalid"
              else .error e
          | .ok nanos => if value.nonpositive ∨ nanos ≤ 0 then
                refuse "Compose CPU resource is invalid"
              else .ok nanos

/-- `_memory_bytes`. -/
def memoryBytes (U : DockerUtils) (raw : Document) : Except Exc Int :=
  match raw with
  | .bool _ => refuse "Compose memory resource is invalid"
  | raw => positiveBytes U "Compose memory resource is invalid" raw

/-- The check of one section of the resources. -/
def validateSection (U : DockerUtils) (serviceName sectionName : String) :
    Document → Except Exc Unit
  | .null => .ok ()
  | .map values => do
      refuseBeyond (s!"Compose {sectionName} resources for {serviceName} " ++
        "use unsupported fields: ") values ["cpus", "memory"]
      checkEach values fun e => do
        if e.1 = .str "cpus" then let _ ← cpuNano e.2
        else let _ ← memoryBytes U e.2
  | _ => refuse s!"Compose {sectionName} resources for {serviceName} are invalid"

/-- `_validate_resources`. -/
def validateResources (U : DockerUtils) (serviceName : String) : Document → Except Exc Unit
  | .map raw => do
      refuseBeyond s!"Compose resources for {serviceName} use unsupported fields: " raw
        ["limits", "reservations"]
      validateSection U serviceName "limits" (field raw "limits")
      validateSection U serviceName "reservations" (field raw "reservations")
  | _ => refuse s!"Compose resources for {serviceName} are invalid"

/-- What a section of the resources comes to, in nanoseconds of CPU and in bytes. -/
structure ResourceAmounts where
  nanoCpus : Option Int := none
  memoryBytes : Option Int := none
  deriving DecidableEq, Repr

/-- `convert(values[key]) if key in values`. -/
def present {α : Type} (values : Fields) (key : String) (convert : Document → Except Exc α) :
    Except Exc (Option α) :=
  match values.lookup (.str key) with
  | none => .ok none
  | some raw => do .ok (some (← convert raw))

def sectionAmounts (U : DockerUtils) : Document → Except Exc ResourceAmounts
  | .map values => do
      .ok {
        nanoCpus := ← present values "cpus" cpuNano
        memoryBytes := ← present values "memory" (memoryBytes U) }
  | _ => .ok {}

/-- `_resources`: the limits and the reservations. -/
def resources (U : DockerUtils) (deploy : Document) :
    Except Exc (Option (ResourceAmounts × ResourceAmounts)) :=
  match deployField deploy "resources" with
  | .null => .ok none
  | .map raw => do
      validateResources U "service" (.map raw)
      let limits ← sectionAmounts U (field raw "limits")
      .ok (some (limits, ← sectionAmounts U (field raw "reservations")))
  | raw => do
      validateResources U "service" raw
      .ok none

/-! ### A document -/

def supportedServiceFields : List String :=
  ["image", "command", "environment", "ports", "volumes", "shm_size", "working_dir", "labels",
   "restart", "healthcheck", "deploy", "depends_on", "expose"]

def rejectedServiceFields : List String :=
  ["build", "container_name", "configs", "devices", "dns", "dns_opt", "dns_search", "entrypoint",
   "extra_hosts", "gpus", "init", "ipc", "links", "logging", "network_mode", "networks", "pid",
   "privileged", "profiles", "read_only", "runtime", "secrets", "stop_grace_period",
   "stop_signal", "sysctls", "tmpfs", "tty", "ulimits", "user", "working_dir_host"]

def supportedDeployFields : List String := ["mode", "replicas", "restart_policy"]

def dependencyConditions : List String := ["service_started", "service_healthy"]

def supportedTopLevelFields : List String := ["version", "name", "services", "volumes"]

/-- The services of a document. -/
abbrev Services := List (String × Fields)

/-- `_compose_services`. -/
def composeServices : Document → Except Exc Services
  | .map compose => match field compose "services" with
      | .map [] => refuse "Compose document must contain services"
      | .map services =>
          match services.mapM fun
            | (.str name, .map definition) => some (name, definition)
            | _ => none with
          | some services => .ok services
          | none => refuse "Compose services must be named mappings"
      | _ => refuse "Compose document must contain services"
  | _ => refuse "Compose document must be a mapping"

/-- The name of a service field that is no part of a Swarm service. -/
def rejectedField (key : Key) : Except Exc (Option String) :=
  match key with
  | .other _ => .error (exc .attributeError "object has no attribute 'startswith'")
  | .str s =>
      .ok (if rejectedServiceFields.contains s ||
        !(supportedServiceFields.contains s || startsWith s "x-") then some s else none)

/-- The check of one dependency. -/
def validateDependency (services : Services) (name : String) (e : Key × Document) :
    Except Exc Unit :=
  match e.1.str?, services.lookup e.1.text with
  | none, _ => refuse s!"Compose service {name} has an invalid dependency name"
  | some "", _ => refuse s!"Compose service {name} has an invalid dependency name"
  | some dependency, none =>
      refuse s!"Compose service {name} depends on unknown service {dependency}"
  | some dependency, some target =>
      match e.2 with
      | .null => .ok ()
      | .map config => do
          refuseBeyond s!"Compose dependency {name}->{dependency} uses unsupported fields: " config
            ["condition"]
          let condition := fieldD config "condition" (.str "service_started")
          if (← memberOf condition dependencyConditions) = false then
            refuse (s!"Compose dependency {name}->{dependency} uses unsupported condition " ++
              condition.text)
          else if condition.isText "service_healthy" ∧ (field target "healthcheck").truthy = false
          then refuse (s!"Compose dependency {name}->{dependency} requires service_healthy " ++
            "but has no healthcheck")
          else .ok ()
      | _ => refuse s!"Compose dependency {name}->{dependency} is invalid"

/-- The entries of `depends_on`; those of a list have nothing to say. -/
def dependencyEntries (name : String) : Document → Except Exc Fields
  | .null => .ok []
  | .list items => match texts items with
      | some names =>
          if names.contains "" then
            refuse s!"Compose service {name} has an invalid dependency name"
          else .ok (names.map fun s => (.str s, .map []))
      | none => refuse s!"Compose service {name} has an invalid dependency name"
  | .map entries => .ok entries
  | _ => refuse s!"Compose depends_on for {name} is invalid"

/-- The check of the fields of `deploy`. -/
def validateDeploy (U : DockerUtils) (name : String) : Document → Except Exc Unit
  | .null => .ok ()
  | .map deploy => do
      refuseBeyond s!"Compose deploy settings for {name} use unsupported fields: " deploy
        ("resources" :: supportedDeployFields)
      match field deploy "restart_policy" with
      | .map policy =>
          refuseBeyond s!"Compose restart policy for {name} uses unsupported fields: " policy
            ["condition"]
      | _ => .ok ()
      if (field deploy "resources").isNull then .ok ()
      else validateResources U name (field deploy "resources")
  | _ => refuse s!"Compose deploy settings for {name} are invalid"

/-- The conversions of one service definition, all made and dropped. -/
def validateConversions (U : DockerUtils) (name ns : String) (definition : Fields) :
    Except Exc Unit := do
  let _ ← environment (field definition "environment")
  let _ ← labels "validation" name (field definition "labels") ns
  let _ ← ports (field definition "ports")
  let _ ← optional (field definition "command") command
  let _ ← workingDir (field definition "working_dir")
  let _ ← mounts (field definition "volumes")
  let _ ← optional (field definition "shm_size") (shmMount U)
  let _ ← healthcheck (field definition "healthcheck")
  let _ ← mode (field definition "deploy")
  let _ ← restartPolicy (field definition "restart") (field definition "deploy")
  let _ ← resources U (field definition "deploy")

/-- The check of the names of the fields of a service. -/
def validateFields (name : String) (definition : Fields) : Except Exc Unit := do
  if hasField definition "env_file" then
    refuse s!"Compose service {name} uses env_file; resolve it into environment before deployment"
  else do
    let rejected ← definition.mapM fun e => rejectedField e.1
    if (rejected.filterMap id).isEmpty then .ok ()
    else refuse (s!"Compose service {name} uses unsupported fields: " ++
      joinTexts ", " ((rejected.filterMap id).insertionSort (· ≤ ·)))

/-- The checks of `_validate_compose_features` of one service. -/
def validateService (U : DockerUtils) (services : Services) (name : String)
    (definition : Fields) : Except Exc Unit := do
  validateConversions U name "validation" definition
  validateFields name definition
  validateDeploy U name (field definition "deploy")
  checkEach (← dependencyEntries name (field definition "depends_on"))
    (validateDependency services name)

/-- `_validate_compose_features`. -/
def validateComposeFeatures (U : DockerUtils) (services : Services) : Except Exc Unit :=
  checkEach services fun s => validateService U services s.1 s.2

/-- The dependencies of a service, as `_deployment_order` reads them. -/
def dependencies (name : String) : Document → Except Exc (List String)
  | .null => .ok []
  | .list items => match texts items with
      | some names => if names.contains "" then
            refuse s!"Compose service {name} has an invalid dependency name"
          else .ok names
      | none => refuse s!"Compose service {name} has an invalid dependency name"
  | .map entries =>
      if entries.all (fun e => e.1.str?.any (· != "")) then .ok (entries.map fun e => e.1.text)
      else refuse s!"Compose service {name} has an invalid dependency name"
  | _ => refuse s!"Compose depends_on for {name} is invalid"

/-- The rounds of `_deployment_order`: each takes what has nothing left to wait for. -/
def orderRounds : Nat → List (String × List String) → Except Exc (List String)
  | _, [] => .ok []
  | 0, _ => refuse "Compose depends_on contains a cycle"
  | n + 1, remaining =>
      let ready := ((remaining.filter fun e => e.2.isEmpty).map Prod.fst).insertionSort (· ≤ ·)
      if ready.isEmpty then refuse "Compose depends_on contains a cycle"
      else do
        let rest := (remaining.filter fun e => !ready.contains e.1).map fun e =>
          (e.1, e.2.filter fun s => !ready.contains s)
        .ok (ready ++ (← orderRounds n rest))

/-- `_deployment_order`. -/
def deploymentOrder (services : Services) : Except Exc (List String) := do
  let remaining ← services.mapM fun s => do
    .ok (s.1, ← dependencies s.1 (field s.2 "depends_on"))
  orderRounds remaining.length remaining

/-- The entries that `p` selects, and those under other keys, are all there are. -/
theorem filter_keys_perm {β : Type} {l : List (String × β)} (hl : (l.map Prod.fst).Nodup)
    (p : String × β → Bool) :
    ((l.filter p).map Prod.fst ++ (l.filter fun e => !((l.filter p).map Prod.fst).contains e.1).map
      Prod.fst).Perm (l.map Prod.fst) := by
  have h : (l.filter fun e => !((l.filter p).map Prod.fst).contains e.1) = l.filter fun e => !p e := by
    refine List.filter_congr fun e he => ?_
    congr 1
    rw [Bool.eq_iff_iff, List.contains_iff_mem, List.mem_map]
    constructor
    · rintro ⟨x, hx, hxe⟩
      obtain ⟨hx, hp⟩ := List.mem_filter.mp hx
      rwa [← List.inj_on_of_nodup_map hl hx he hxe]
    · exact fun hp => ⟨e, List.mem_filter.mpr ⟨he, hp⟩, rfl⟩
  rw [h, ← List.map_append]
  exact (List.filter_append_perm p l).map _

/-- Everything is taken in one of the rounds. -/
theorem orderRounds_perm {n : Nat} {remaining : List (String × List String)} {order : List String}
    (hn : (remaining.map Prod.fst).Nodup) (h : orderRounds n remaining = .ok order) :
    order.Perm (remaining.map Prod.fst) := by
  induction n generalizing remaining order with
  | zero => cases remaining <;> cases h; exact .refl _
  | succ n ih =>
      cases remaining with
      | nil => cases h; exact .refl _
      | cons e rest =>
          generalize hl : e :: rest = l at *
          rw [← hl, orderRounds, hl] at h
          · dsimp only at h
            split at h
            · cases h
            set ready := ((l.filter fun e => e.2.isEmpty).map Prod.fst).insertionSort (· ≤ ·)
              with hready
            set left := (l.filter fun e => !ready.contains e.1).map fun e =>
              (e.1, e.2.filter fun s => !ready.contains s) with hleft
            have hp : ready.Perm ((l.filter fun e => e.2.isEmpty).map Prod.fst) :=
              List.perm_insertionSort _ _
            have hk : left.map Prod.fst = (l.filter fun e => !ready.contains e.1).map Prod.fst := by
              rw [hleft, List.map_map]; rfl
            obtain ⟨order', hr, h⟩ := bind_ok h
            cases h
            have hrest := ih (by rw [hk]; exact hn.sublist (List.filter_sublist.map _)) hr
            rw [hk] at hrest
            refine (hp.append hrest).trans ?_
            have hc : (fun e : String × List String => !ready.contains e.1) = fun e =>
                !((l.filter fun e => e.2.isEmpty).map Prod.fst).contains e.1 := by
              funext e
              rw [hp.contains_eq]
            rw [hc]
            exact filter_keys_perm hn _
          · rintro ⟨⟩

/-- Every service is deployed once. -/
theorem deploymentOrder_perm {services : Services} {order : List String}
    (hn : (services.map Prod.fst).Nodup) (h : deploymentOrder services = .ok order) :
    order.Perm (services.map Prod.fst) := by
  obtain ⟨remaining, hr, h⟩ := bind_ok h
  have hk : remaining.map Prod.fst = services.map Prod.fst := by
    rw [← List.forall₂_eq_eq_eq, List.forall₂_map_left_iff, List.forall₂_map_right_iff]
    refine (mapM_ok hr).flip.imp fun e s he => ?_
    obtain ⟨names, -, he⟩ := bind_ok he
    cases he
    rfl
  rw [← hk]
  exact orderRounds_perm (hk ▸ hn) h

/-- The check of one volume of the document. -/
def validateVolume (e : Key × Document) : Except Exc Unit :=
  match e.1 with
  | .other _ => refuse "Compose volume name is invalid"
  | .str name =>
      if name = "" then refuse "Compose volume name is invalid"
      else match e.2 with
        | .null => .ok ()
        | .map definition => do
            refuseBeyond s!"Compose volume {name} uses unsupported fields: " definition
              ["name", "external"]
            match definition.lookup (.str "name") with
            | none => .ok ()
            | some (.str s) => if strip s = "" then
                refuse s!"Compose volume {name} has an invalid name" else .ok ()
            | some _ => refuse s!"Compose volume {name} has an invalid name"
            match definition.lookup (.str "external") with
            | none | some (.bool _) => .ok ()
            | some _ => refuse s!"Compose volume {name} has an invalid external flag"
        | _ => refuse s!"Compose volume {name} is invalid"

/-- `_validate_top_level`. -/
def validateTopLevel : Document → Except Exc Unit
  | .map compose => do
      let unsupported := (compose.map fun e => e.1.text).filter fun s =>
        !(supportedTopLevelFields.contains s || startsWith s "x-")
      if unsupported.isEmpty then .ok ()
      else refuse ("Compose document uses unsupported top-level fields: " ++
        joinTexts ", " (unsupported.insertionSort (· ≤ ·)))
      match field compose "volumes" with
      | .null => .ok ()
      | .map volumes => checkEach volumes validateVolume
      | _ => refuse "Compose top-level volumes must be a mapping"
  | _ => refuse "Compose document must be a mapping"

/-- `_validate_service_name`. -/
def validateServiceName (name : String) : Except Exc Unit :=
  if isResourceName name then .ok () else refuse "Compose service name is invalid"

/-- `_validate_service_image`. -/
def validateServiceImage (name : String) (definition : Fields) : Except Exc Unit :=
  match field definition "image" with
  | .str image => if strip image = "" then refuse s!"Compose service {name} must define an image"
      else .ok ()
  | _ => refuse s!"Compose service {name} must define an image"

/-- `validate_compose`. -/
def validateCompose (U : DockerUtils) (compose : Document) (requireImages : Bool := true) :
    Except Exc Unit := do
  validateTopLevel compose
  let services ← composeServices compose
  validateComposeFeatures U services
  let _ ← deploymentOrder services
  checkEach services fun s => do
    validateServiceName s.1
    if requireImages then validateServiceImage s.1 s.2

end DockerSwarmAdapter

end Orchestrator
