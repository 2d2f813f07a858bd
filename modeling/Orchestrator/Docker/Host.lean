import Orchestrator.Docker.Engine
import Orchestrator.Docker.Naming
import Orchestrator.Interleaving.Interpretation
import Orchestrator.Services.Cleanup

/-!
# Docker — what a worker calls

One call for each request to an engine, to Harbor, to the port allocations and to the workspace
directories, beside the calls of the services.

* `HostOp`, `HostOp.Ret`: the calls and their results.
* `Host`: the world they act on: the repository, the engines by client, the allocated ports, the
  tags in the registry, the directories, and what a cleanup runner keeps in its objects.
* `Host.Acts`: what a call may answer, and what it does.  Where a call can raise, it may have
  taken effect or not.
* `onHost`: a program of the services, as one of these.
-/

namespace Orchestrator
open Interleaving

/-! ### Ports -/

/-- A document of `port_allocations`. -/
structure PortAllocation where
  target : String
  protocol : String
  port : Nat
  buildId : BuildId
  serviceName : String
  deriving DecidableEq, Repr

namespace PortAllocation

/-- Both are about the same port. -/
def samePort (a x : PortAllocation) : Bool :=
  x.target == a.target && x.protocol == a.protocol && x.port == a.port

end PortAllocation

abbrev PortAllocations := List PortAllocation

namespace PortAllocations

def reservePort (l : PortAllocations) (a : PortAllocation) : Bool × PortAllocations :=
  match l.find? a.samePort with
  | some previous => (previous.buildId == a.buildId && previous.serviceName == a.serviceName, l)
  | none => (true, l ++ [a])

def releasePort (l : PortAllocations) (target protocol : String) (port : Nat) (b : BuildId) :
    Bool × PortAllocations :=
  let identity : PortAllocation := ⟨target, protocol, port, b, ""⟩
  match l.find? identity.samePort with
  | none => (true, l)
  | some owner =>
      if owner.buildId ≠ b then (false, l)
      else (true, l.filter fun x => !(identity.samePort x && x.buildId == b))

def listBuildPorts (l : PortAllocations) (b : BuildId) : List PortAllocation :=
  l.filter (·.buildId == b)

end PortAllocations

/-! ### Harbor -/

/-- A tag of an artifact.  Harbor has no repository with a colon in its name. -/
structure RegistryTag where
  repository : String
  tag : String
  digest : String
  colon : ':' ∉ repository.toList

/-- The answer to a request for an artifact. -/
structure HarborResponse where
  statusCode : Nat
  digest : Option String := none
  tags : List String := []

/-! ### Calls -/

/-- The engine a client talks to. -/
abbrev Client := String

/-- What a cleanup runner has at hand between its calls: the owner of its tracker, and the
attributes of its `DockerBuildCleaner`. -/
structure RunnerState where
  owner : Option Uuid := none
  client : Client := ""
  target : String := ""
  nodeId : Option String := none
  clients : List (String × Client) := []
  deriving DecidableEq, Repr

inductive HostOp where
  | repo (op : Op)
  | docker (c : Client) (op : DockerOp)
  /-- `client_factory(endpoint)`. -/
  | connect (endpoint : Option String)
  | listBuildPorts (b : BuildId)
  | reservePort (a : PortAllocation)
  | releasePort (target protocol : String) (port : Nat) (b : BuildId)
  | getArtifact (repository tag : String)
  | deleteTag (repository digest tag : String)
  /-- Whether the directory exists; raises where there is a symbolic link. -/
  | inspectDirectory (path : PurePath)
  | removeTree (path : PurePath)
  | attributes
  | assign (state : RunnerState)
  /-- `time.monotonic() >= deadline`. -/
  | deadlinePassed
  /-- Seen by an observer only: whether a step of the runner has failed. -/
  | outcome (step : Op) (failed : Bool)

@[reducible] def HostOp.Ret : HostOp → Type
  | repo op => op.Ret
  | docker _ op => op.Ret
  | connect _ => Except DockerError Client
  | listBuildPorts _ => List PortAllocation
  | reservePort _ | releasePort .. => Except Exc Bool
  | getArtifact .. => Except Exc HarborResponse
  | deleteTag .. => Except Exc Nat
  | inspectDirectory _ => Except Exc Bool
  | removeTree _ => Except Exc Unit
  | attributes => RunnerState
  | assign _ | outcome .. => Unit
  | deadlinePassed => Bool

/-- Responses are sane where those of the services are. -/
def HostOp.Sane : (op : HostOp) → op.Ret → Prop
  | repo op, r => op.Sane r
  | _, _ => True

abbrev hostApi : Interface := ⟨HostOp, HostOp.Ret, Exc, HostOp.Sane⟩

abbrev D := Prog hostApi

abbrev ask (op : HostOp) : D op.Ret := Prog.send (I := hostApi) op

/-- `raise kind(message)`. -/
def abort {α : Type} (kind : ExcKind) (message : String) : D α := .raise (exc kind message)

/-- The exception of the Docker SDK. -/
def DockerError.exc : DockerError → Exc
  | notFound => Orchestrator.exc .notFound "404 Client Error"
  | failed explanation => Orchestrator.exc .runtimeError explanation

/-- One request, whose failure is raised. -/
def request {α : Type} (p : D (Except DockerError α)) : D α :=
  p.bind fun
    | .ok a => .ret a
    | .error e => .raise e.exc

/-- One call, whose failure is raised. -/
def insist {α : Type} (p : D (Except Exc α)) : D α := p.bind (Prog.ofExcept (I := hostApi))

/-- A program of the services. -/
def onHost {α : Type} (p : P α) : D α :=
  Prog.interpret (I := api) (J := hostApi) id (fun op => ask (.repo op)) p

/-! ### The world -/

structure Host where
  world : World
  engines : Client → Engine
  ports : PortAllocations
  registry : List RegistryTag
  directories : List PurePath
  state : RunnerState

/-- A call of the services can fail in the database, after it has taken effect or before. -/
def Op.MayFail : (op : Op) → op.Ret → Prop
  | putBuildResource .., r | ensureBuildResources _, r | guard .., r => r.isOk = false
  | _, _ => False

/-- What a call of the services may answer, and what it does. -/
def World.Performs (w : World) (op : Op) (r : op.Ret) (w' : World) : Prop :=
  (∃ t a, exec t op a w = some (r, w')) ∨
  op.MayFail r ∧ (w' = w ∨ ∃ t a r', exec t op a w = some (r', w'))

namespace Host

/-- What a call may answer, and what it does. -/
def Acts (s : Host) : (op : HostOp) → op.Ret → Host → Prop
  | .repo op, r, s' => ∃ w, s.world.Performs op r w ∧ s' = { s with world := w }
  | .docker c op, r, s' => ∃ g, (s.engines c).Acts op r g ∧
      s' = { s with engines := Function.update s.engines c g }
  | .connect _, _, s' => s' = s
  | .listBuildPorts b, r, s' => s' = s ∧ r = s.ports.listBuildPorts b
  | .reservePort a, r, s' =>
      (s' = { s with ports := (s.ports.reservePort a).2 } ∧
        ∀ x, r = .ok x → x = (s.ports.reservePort a).1) ∨ (r.isOk = false ∧ s' = s)
  | .releasePort target protocol port b, r, s' =>
      (s' = { s with ports := (s.ports.releasePort target protocol port b).2 } ∧
        ∀ x, r = .ok x → x = (s.ports.releasePort target protocol port b).1) ∨
      (r.isOk = false ∧ s' = s)
  | .getArtifact repository tag, r, s' => s' = s ∧ ∀ x, r = .ok x → x.statusCode = 200 →
      ∃ y ∈ s.registry, y.repository = repository ∧ y.tag = tag ∧ x.digest = some y.digest
  | .deleteTag repository digest tag, r, s' =>
      s' = { s with registry := s.registry.filter fun y =>
        !(y.repository == repository && y.digest == digest && y.tag == tag) } ∨
      ((∀ x, r = .ok x → x ≠ 200) ∧ s' = s)
  | .inspectDirectory path, r, s' => s' = s ∧ ∀ x, r = .ok x → x = decide (path ∈ s.directories)
  | .removeTree path, r, s' =>
      s' = { s with directories := s.directories.filter fun d => !d.isRelativeTo path } ∨
      (r.isOk = false ∧ s' = s)
  | .attributes, r, s' => s' = s ∧ r = s.state
  | .assign state, _, s' => s' = { s with state }
  | .deadlinePassed, _, s' => s' = s
  | .outcome _ _, _, s' => s' = s

end Host

end Orchestrator
