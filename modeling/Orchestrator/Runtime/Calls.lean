import Orchestrator.Interleaving.Machine
import Orchestrator.Repository.InMemory
import Orchestrator.Text.Addresses

/-!
# Runtime — the calls of the services

Everything the services do that another process can see: one call for each repository method,
for each `ResourceTracker.guard`, and for each request to Jenkins, GitLab, Docker, Harbor, the
broker, the agents and the file system.

* `Op`, `Op.Ret`: the calls and their responses.
* `Script`: what the Docker code does with a tracker while it works.
* `World`, `exec`: the repository, the clock, and what a call does to them.
* `Stimulus`: what happens between the calls: time passes, and the heartbeats of the leases.

A reply of an external party is any value of its type.  A call that reaches one carries the
build it is made for where the request itself does not name it.
-/

namespace Orchestrator
open Interleaving

/-! ### Jenkins -/

structure JenkinsBuildRequest where
  appid : String
  repositoryUrl : String
  gitRef : String
  compose : Compose
  imageRepository : String
  workspaceArchiveUrl : String
  workspaceArchiveSha256 : String
  buildId : Option BuildId

/-- A queue item.  `_normalise_queue_url` ends every URL with a slash. -/
structure JenkinsQueueItem where
  queueUrl : String
  buildNumber : Option Nat := none
  cancelled : Bool := false
  queueUrl_ne : queueUrl ≠ ""

inductive JenkinsBuildState where
  | building | succeeded | failed | cancelled | unknown
  deriving DecidableEq, Repr

structure JenkinsBuild where
  number : Nat
  building : Bool
  result : Option String

namespace JenkinsBuild

def state (x : JenkinsBuild) : JenkinsBuildState :=
  if x.building then .building
  else match x.result with
    | some r =>
        if r = "SUCCESS" then .succeeded
        else if r = "ABORTED" then .cancelled
        else if r = "FAILURE" ∨ r = "UNSTABLE" ∨ r = "NOT_BUILT" then .failed
        else .unknown
    | none => .unknown

def terminal (x : JenkinsBuild) : Bool := !x.building && x.state != .unknown

end JenkinsBuild

structure JenkinsResultArtifact where
  buildId : Option BuildId
  actualCommit : Option String
  images : List String
  imageDigests : List (String × String)
  compose : Compose

structure BuilderImage where
  reference : Option String
  localRemoved : Option Bool
  nativeId : Option String

structure JenkinsResourceArtifact where
  buildId : Option BuildId
  verificationComplete : Option Bool
  workspaceRemoved : Option Bool
  builderTarget : Option String
  planCreated : Option Bool
  images : Option (List BuilderImage)

/-! ### Docker -/

/-- `ServiceDeployment`. -/
structure ServiceDeployment where
  serviceId : String
  composeName : String
  serviceName : String
  image : String
  endpoint : Option String
  ports : List PublishedPort
  deriving DecidableEq, Repr

/-- The arguments of `ResourceTracker.record`. -/
structure RecordArgs where
  kind : ResourceKind
  name : String
  target : String := "docker"
  nativeId : Option String := none
  state : ResourceState := .planned
  managed : Bool := true
  metadata : Option Metadata := none
  error : Option String := none

inductive TrackerAction where
  | record (r : RecordArgs)
  | update (r : BuildResource) (state : ResourceState) (error : Option String)
  | guard

/-- What a Docker operation does with its tracker, one action after another, depending on which
of them raise. -/
inductive Script (α : Type) where
  | done (r : Except Exc α)
  | act (a : TrackerAction) (k : Option Exc → Script α)

/-- The Docker and Harbor operations that are given a tracker. -/
inductive DockerCall where
  | deployBuild (appid : String) (b : BuildId) (compose : Compose)
  | discover (m : BuildResources)
  | waitContainersStopped (m : BuildResources)
  | assertDirectoryUnused (appid : String) (b : BuildId)
  | remove (m : BuildResources) (r : BuildResource)
  | verifyEmpty (m : BuildResources)
  | removeBuildTag (name repository : String) (b : BuildId) (digest : Option String)

@[reducible] def DockerCall.Result : DockerCall → Type
  | deployBuild .. => List ServiceDeployment
  | removeBuildTag .. => String
  | _ => Unit

/-! ### Agents, probes, workspaces -/

/-- `_HOST_NAME.fullmatch(host)`. -/
def isHostName (host : String) : Bool :=
  match host.toList with
  | [] => false
  | c :: cs =>
      (c.isAlphanum || c == '_') && cs.all fun d => d.isAlphanum || "_.-".toList.contains d

def probeSchemes : List String := ["http", "https", "grpc", "grpcs"]

def isPort (port : Nat) : Bool := 1 ≤ port && port ≤ 65535

/-- `ProbeEndpoint.__post_init__`. -/
def probeEndpointChecks (serviceName host : String) (port : Nat) (scheme : String)
    (targetPort : Option Nat) : Except Exc Unit :=
  if serviceName = "" ∨ 256 < serviceName.length then
    .error (exc .valueError "Probe endpoint service name is invalid")
  else if 253 < host.length ∨ !(Addresses.isAddress host.toList || isHostName host) then
    .error (exc .valueError "Probe endpoint host is invalid")
  else if !isPort port then .error (exc .valueError "Probe endpoint port is invalid")
  else if !probeSchemes.contains scheme then
    .error (exc .valueError "Probe endpoint scheme is invalid")
  else if targetPort.any (!isPort ·) then
    .error (exc .valueError "Probe endpoint target port is invalid")
  else .ok ()

/-- An address the controller has selected. -/
structure ProbeEndpoint where
  serviceName : String
  host : String
  port : Nat
  scheme : String
  targetPort : Option Nat
  valid : probeEndpointChecks serviceName host port scheme targetPort = .ok ()
  deriving DecidableEq

/-- `ProbeEndpoint(...)`. -/
def ProbeEndpoint.make (serviceName host : String) (port : Nat) (scheme : String)
    (targetPort : Option Nat) : Except Exc ProbeEndpoint :=
  match h : probeEndpointChecks serviceName host port scheme targetPort with
  | .ok () => .ok ⟨serviceName, host, port, scheme, targetPort, h⟩
  | .error e => .error e

/-- The JSON object of the static agent. -/
structure StaticOutput where
  routeFound : Option Bool
  patchAvailable : Option Bool
  diffList : Option (List String)
  reportText : Option String
  probePayload : Option Json

/-- The JSON object of the debug agent; `retry_payload` may be missing, or null. -/
structure DebugOutput where
  reportText : Option String
  retryPayload : Option (Option Json)

/-- What `WorkspaceStore.snapshot` returns. -/
structure Snapshot where
  fileCount : Nat
  archiveSha256 : String

structure AppFields where
  repositoryUrl : Change String := .keep
  gitRef : Change String := .keep
  environmentCiphertext : Change (Option String) := .keep
  compose : Change (Option Compose) := .keep
  requireRoute : Change (Option String) := .keep
  composeSourceFile : Change (Option String) := .keep
  composeSourceCommit : Change (Option String) := .keep

@[simps] def UserAppRecord.modelCopy (a : UserAppRecord) (f : AppFields) : UserAppRecord where
  appid := a.appid
  repositoryUrl := f.repositoryUrl.apply a.repositoryUrl
  gitRef := f.gitRef.apply a.gitRef
  environmentCiphertext := f.environmentCiphertext.apply a.environmentCiphertext
  compose := f.compose.apply a.compose
  requireRoute := f.requireRoute.apply a.requireRoute
  composeSourceFile := f.composeSourceFile.apply a.composeSourceFile
  composeSourceCommit := f.composeSourceCommit.apply a.composeSourceCommit

/-! ### Calls -/

inductive Op where
  | uuid4
  | utcNow
  | getApp (appid : String)
  | updateApp (appid : String) (f : AppFields)
  | getAgentRole (key : RoleKey)
  | saveAgentRole (role : AgentRole) (expectedVersion : Option Nat)
  | getRouteCheck (c : CheckId)
  | findRouteCheck (appId commitId requireRoute : String) (version : Nat)
  | ensureRouteCheck (c : RouteCheckResult)
  | updateRouteCheck (c : CheckId) (f : RouteCheckFields) (e : RouteCheckExpectation)
  | deleteRouteCheck (appId commitId requireRoute : String) (version : Nat)
  | listPendingRouteChecks
  | getBuild (b : BuildId)
  | createBuild (j : BuildJob)
  | updateBuild (b : BuildId) (f : BuildFields)
  | transitionBuild (b : BuildId) (expected : List BuildStatus) (status : BuildStatus)
      (f : BuildFields)
  | listActiveBuilds
  | listPendingDynamicBuilds
  | ensureBuildResources (m : BuildResources)
  | getBuildResources (b : BuildId)
  | putBuildResource (b : BuildId) (r : BuildResource) (owner : Option Uuid)
  | updateBuildResources (b : BuildId) (f : ResourceFields) (e : ResourceExpectation)
  | claimBuildLease (b : BuildId) (owner : Uuid) (expiresAt : DateTime)
      (statuses : List CleanupStatus)
  | releaseBuildLease (b : BuildId) (owner : Uuid)
  | listCleanupResources
  | guard (b : BuildId) (owner : Option Uuid)
  | saveService (r : DeploymentService)
  | listServices (appid : String)
  | saveUserImage (i : UserImage)
  | listUserImages (appid : String)
  | appendEvent (e : AppEvent)
  | createAlert (a : Alert)
  | dispatchBuild (b : BuildId)
  | dispatchBuildCleanup (b : BuildId)
  | dispatchDynamicCheck (b : BuildId) (run : Option Uuid)
  | dispatchStaticCheck (c : CheckId) (generation : Nat)
  | schedulePoll (b : BuildId) (attempt : Nat)
  | scheduleStart (b : BuildId)
  | validateRepositoryRef (url ref : String)
  | discoverCompose (url commit : String)
  | checkoutCommit (url commit : String)
  | runStaticAgent (role : AgentRole) (c : CheckId)
  | inspectCheckout (commit : String)
  | snapshot (appid : String) (b : BuildId)
  | resolveCompose (isolated : Bool) (appid : String) (snapshot : BuildId) (compose : Compose)
  | deleteBuildSnapshot (appid : String) (b : BuildId) (name : String)
  | triggerBuild (b : BuildId) (r : JenkinsBuildRequest)
  | getQueueItem (url : String)
  | getJenkinsBuild (number : Nat)
  | getResultArtifact (number : Nat)
  | getResourceArtifact (number : Nat)
  | getFailureDiagnostic (number : Nat)
  | deploy (b : BuildId) (appid : String) (compose : Compose)
  | docker (c : DockerCall)
  | openDocker
  | connectPort (b : BuildId) (host : String) (service : String) (port : Nat)
  | runProbe (b : BuildId) (payload : Json) (endpoints : List ProbeEndpoint)
  | collectLogs (b : BuildId)
  | runDebugAgent (b : BuildId) (role : AgentRole)

@[reducible] def Op.Ret : Op → Type
  | uuid4 => Uuid
  | utcNow => DateTime
  | getApp _ | updateApp .. => Option UserAppRecord
  | getAgentRole _ | saveAgentRole .. => Option AgentRole
  | getRouteCheck _ | findRouteCheck .. | updateRouteCheck .. => Option RouteCheckResult
  | ensureRouteCheck _ => RouteCheckResult × Bool
  | deleteRouteCheck .. => Bool
  | listPendingRouteChecks => List RouteCheckResult
  | getBuild _ | updateBuild .. | transitionBuild .. => Option BuildJob
  | listActiveBuilds | listPendingDynamicBuilds => List BuildJob
  | ensureBuildResources _ | putBuildResource .. => Except Exc BuildResources
  | getBuildResources _ | updateBuildResources .. | claimBuildLease .. => Option BuildResources
  | listCleanupResources => List BuildResources
  | listServices _ => List DeploymentService
  | listUserImages _ => List UserImage
  | createBuild _ | releaseBuildLease .. | saveService _ | saveUserImage _ | appendEvent _
  | createAlert _ => Unit
  | guard .. | dispatchBuildCleanup _ | dispatchDynamicCheck .. | schedulePoll ..
  | scheduleStart _ | checkoutCommit .. | deleteBuildSnapshot .. | openDocker
  | connectPort .. => Except Exc Unit
  | dispatchBuild _ | dispatchStaticCheck .. | validateRepositoryRef .. => Except Exc String
  | discoverCompose .. => Except Exc (String × Compose)
  | runStaticAgent .. => Except Exc StaticOutput
  | inspectCheckout _ => Except Exc (String × Bool)
  | snapshot .. => Except Exc Snapshot
  | resolveCompose .. => Except Exc Compose
  | triggerBuild .. | getQueueItem _ => Except Exc JenkinsQueueItem
  | getJenkinsBuild _ => Except Exc JenkinsBuild
  | getResultArtifact _ => Except Exc JenkinsResultArtifact
  | getResourceArtifact _ => Except Exc JenkinsResourceArtifact
  | getFailureDiagnostic _ => Except Exc String
  | deploy .. => Except Exc (List ServiceDeployment)
  | docker c => Script c.Result
  | runProbe .. => Except Exc ProbeReport
  | collectLogs _ => Except Exc Json
  | runDebugAgent .. => Except Exc DebugOutput

/-- What every response satisfies: a record is found under its own key. -/
def Op.Sane : (op : Op) → op.Ret → Prop
  | getBuild b, r | updateBuild b _, r => ∀ j, r = some j → j.buildId = b
  | transitionBuild b _ status _, r => ∀ j, r = some j → j.buildId = b ∧ j.status = status
  | getBuildResources b, r | updateBuildResources b _ _, r | claimBuildLease b _ _ _, r =>
      ∀ m, r = some m → m.buildId = b
  | ensureBuildResources m₀, r => ∀ m, r = .ok m → m.buildId = m₀.buildId
  | getRouteCheck c, r | updateRouteCheck c _ _, r => ∀ row, r = some row → row.checkId = c
  | findRouteCheck a c q v, r => ∀ row, r = some row →
      row.appId = a ∧ row.commitId = c ∧ row.requireRoute = q ∧ row.staticAgentRoleVersion = v
  | _, _ => True

abbrev api : Interface := ⟨Op, Op.Ret, Exc, Op.Sane⟩

abbrev P := Prog api

/-- One call. -/
abbrev call (op : Op) : P op.Ret := Prog.send (I := api) op

/-- One call whose failure is raised. -/
def orRaise {α : Type} (p : P (Except Exc α)) : P α := p.bind (Prog.ofExcept (I := api))

/-- `raise kind(message)`. -/
def fault {α : Type} (kind : ExcKind) (message : String) : P α := .raise (exc kind message)

/-! ### The world -/

structure World where
  repo : Repository
  clock : Int
  /-- How many identifiers each thread has drawn. -/
  draws : Nat → Nat

/-- `ResourceTracker.guard`, on the manifest it reads. -/
def guardOutcome (m : Option BuildResources) (owner : Option Uuid) (now : DateTime) :
    Except Exc Unit :=
  match m with
  | none => .error (exc .resourceConflict "Build resource state is unavailable")
  | some m => match owner with
    | none => .ok ()
    | some o =>
        if m.leaseOwner ≠ some o ∨ leaseExpired m.leaseExpiresAt now = true then
          .error (exc .resourceConflict "Build resource lease lost")
        else .ok ()

/-- The replies of the external parties, should they be asked. -/
abbrev Answers := (op : Op) → op.Ret

namespace World

def now (w : World) : DateTime := .now w.clock

/-- `w` with another repository, and the response of the call that changed it. -/
def reply {α : Type} (w : World) (r : α × Repository) : Option (α × World) :=
  some (r.1, { w with repo := r.2 })

end World

open InMemoryRepository in
/-- What call `op` of thread `t` does. -/
def exec (t : Nat) : (op : Op) → Answers → World → Option (op.Ret × World)
  | .uuid4, _, w =>
      some (⟨t, w.draws t⟩, { w with draws := Function.update w.draws t (w.draws t + 1) })
  | .utcNow, _, w => some (w.now, w)
  | .getApp a, _, w => some (getApp w.repo a, w)
  | .updateApp a f, _, w => match w.repo.apps.lookup a with
      | none => some (none, w)
      | some app => w.reply (some (app.modelCopy f), saveApp w.repo (app.modelCopy f))
  | .getAgentRole k, _, w => some (getAgentRole w.repo k, w)
  | .saveAgentRole r v, _, w => w.reply (saveAgentRole w.repo r v)
  | .getRouteCheck c, _, w => some (getRouteCheck w.repo c, w)
  | .findRouteCheck a c r v, _, w => some (findRouteCheck w.repo a c r v, w)
  | .ensureRouteCheck c, _, w => w.reply (ensureRouteCheck w.repo c)
  | .updateRouteCheck c f e, _, w => w.reply (updateRouteCheck w.repo c f e)
  | .deleteRouteCheck a c r v, _, w => w.reply (deleteRouteCheck w.repo a c r v)
  | .listPendingRouteChecks, _, w => some (listPendingRouteChecks w.repo, w)
  | .getBuild b, _, w => some (getBuild w.repo b, w)
  | .createBuild j, _, w => w.reply ((), createBuild w.repo j)
  | .updateBuild b f, _, w => w.reply (updateBuild w.repo b f)
  | .transitionBuild b l s f, _, w => w.reply (transitionBuild w.repo b l s f)
  | .listActiveBuilds, _, w => some (listActiveBuilds w.repo, w)
  | .listPendingDynamicBuilds, _, w => some (listPendingDynamicBuilds w.repo, w)
  | .ensureBuildResources m, _, w => w.reply (ensureBuildResources w.repo m)
  | .getBuildResources b, _, w => some (getBuildResources w.repo b, w)
  | .putBuildResource b r o, _, w => w.reply (putBuildResource w.repo w.now b r o)
  | .updateBuildResources b f e, _, w => w.reply (updateBuildResources w.repo w.now b f e)
  | .claimBuildLease b o e l, _, w => w.reply (claimBuildLease w.repo w.now b o e l)
  | .releaseBuildLease b o, _, w => w.reply ((), releaseBuildLease w.repo b o)
  | .listCleanupResources, _, w => some (listCleanupResources w.repo, w)
  | .guard b o, _, w => some (guardOutcome (getBuildResources w.repo b) o w.now, w)
  | .saveService r, _, w => w.reply ((), saveService w.repo r)
  | .listServices a, _, w => some (listServices w.repo a, w)
  | .saveUserImage i, _, w => w.reply ((), saveUserImage w.repo i)
  | .listUserImages a, _, w => some (listUserImages w.repo a, w)
  | .appendEvent e, _, w => w.reply ((), appendEvent w.repo e)
  | .createAlert a, _, w => w.reply ((), createAlert w.repo a)
  | op, a, w => some (a op, w)

/-- What happens between the calls. -/
inductive Stimulus where
  /-- The clock moves on, by microseconds. -/
  | tick (d : Nat)
  /-- A heartbeat of `build_lease` renews the lease of some owner. -/
  | renew (b : BuildId) (owner : Uuid) (expiresAt : DateTime)
  /-- A heartbeat of a static check renews its lease. -/
  | renewCheck (c : CheckId) (generation : Nat) (token : Uuid) (expiresAt : DateTime)

def disturb : Stimulus → World → Option World
  | .tick d, w => some { w with clock := w.clock + d }
  | .renew b o e, w =>
      some { w with repo := (InMemoryRepository.renewBuildLease w.repo w.now b o e).2 }
  | .renewCheck c g t e, w =>
      some { w with repo := (InMemoryRepository.updateRouteCheck w.repo c
        { staticLeaseExpiresAt := .set (some e) }
        { generation := .eq g, staticRunToken := .eq (some t), staticStatus := .eq .running }).2 }

end Orchestrator
