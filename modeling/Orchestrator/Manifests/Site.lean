import Orchestrator.Docker.Observing
import Orchestrator.Docker.SourceCompose
import Orchestrator.Discipline.Sessions
import Orchestrator.Interleaving.Rely

/-!
# Manifests — the system with its Docker code

The machine of `Runtime.Tasks` takes a Docker operation for one call.  Here the threads run the
code of these operations as well, request by request, and with it every repository step they make
with their tracker.

* `carry`: the calls of the services, with the operations on Docker, Harbor and the workspace
  directories carried out.
* `Site`: the repository, and what each thread has at hand; engines, ports, registry and
  directories answer as they like.
* `site Z`: the machine; `repoLog`: what happened to the repository.
-/

namespace Orchestrator
open Interleaving

/-- The settings, and how documents and deployments are read on either side of the adapter. -/
structure SiteSettings where
  swarm : SwarmSettings
  document : Compose → Document
  /-- What the services read of a document. -/
  read : Document → Compose
  deployed : DockerSwarmAdapter.SwarmDeployment → List ServiceDeployment

namespace SiteSettings
variable (Z : SiteSettings)

/-- `_resolve_application_environment`. -/
def resolveApplicationEnvironment (c : Compose) (environment : Environment) : Except Exc Compose :=
  match Z.document c with
  | .map fields => do
      let resolved ← SourceCompose.resolveApplicationEnvironment environment fields
      return Z.read (.map resolved)
  | document => .ok (Z.read document)

/-- `_validate_source_compose`. -/
def validateSourceCompose (c : Compose) : Except Exc Unit := do
  SourceCompose.validateComposeStructure (Z.document c)
  SourceCompose.validateSourceCompose Z.swarm.utils (DockerSwarmAdapter.entriesOf (Z.document c))

/-- The settings of the services: the checks of documents are those of the adapter. -/
abbrev services : Settings :=
  { Z.swarm.host.services with
    resolveApplicationEnvironment := Z.resolveApplicationEnvironment
    validateSourceCompose := Z.validateSourceCompose
    validateBuildCompose := fun c environment =>
      DockerSwarmAdapter.validateBuildCompose Z.swarm Z.swarm.host.workspaceHostRoot (Z.document c)
        environment
    validateDeploymentCompose := fun c =>
      SourceCompose.validateDeploymentCompose Z.swarm.utils (Z.document c) }

end SiteSettings

/-- The build of an operation. -/
def DockerCall.build : DockerCall → BuildId
  | .deployBuild _ b _ | .assertDirectoryUnused _ b | .removeBuildTag _ _ b _ => b
  | .discover m | .waitContainersStopped m | .remove m _ | .verifyEmpty m => m.buildId

/-- The calls of the services, on the host; a deployment without a tracker stays one call. -/
def carry (Z : SiteSettings) : (op : Op) → D op.Ret
  | .docker (.deployBuild appid b compose) => do
      let self ← ask .attributes
      let result ← (DockerSwarmAdapter.deployBuild Z.swarm appid ⟨b, self.owner⟩
        (Z.document compose)).attempt
      return .done (result.map Z.deployed)
  | .docker c => do
      let self ← ask .attributes
      let result ← (perform Z.swarm.host ⟨c.build, self.owner⟩ c).attempt
      return .done result
  | .openDocker => (DockerBuildCleaner.init Z.swarm.host).attempt
  | .deleteBuildSnapshot appid b name =>
      (WorkspaceStore.deleteBuildSnapshot Z.swarm.host appid b name).attempt
  | op => ask (.repo op)

/-! ### The world -/

structure Site where
  world : World
  /-- The owner of the tracker a thread works with: that of the last lease it was granted. -/
  owners : Nat → Option Uuid
  /-- The attributes of its `DockerBuildCleaner`. -/
  cleaners : Nat → RunnerState

/-- The replies of what is not in the repository. -/
abbrev Replies := (op : HostOp) → op.Ret

/-- The owner of a lease that is granted. -/
def Op.granted : (op : Op) → op.Ret → Option Uuid
  | claimBuildLease _ o _ _, some _ => some o
  | _, _ => none

namespace Site

def exec (t : Nat) : (op : HostOp) → Replies → Site → Option (op.Ret × Site)
  | .repo op, a, s => match Orchestrator.exec t op (fun op => a (.repo op)) s.world with
      | some (r, w) => some (r, { s with
          world := w
          owners := match op.granted r with
            | some o => Function.update s.owners t (some o)
            | none => s.owners })
      | none => none
  | .attributes, _, s => some ({ s.cleaners t with owner := s.owners t }, s)
  | .assign self, _, s => some ((), { s with cleaners := Function.update s.cleaners t self })
  | op, a, s => some (a op, s)

def disturb (x : Stimulus) (s : Site) : Option Site :=
  (Orchestrator.disturb x s.world).map fun w => { s with world := w }

/-- What a call does to the repository, and to what the thread has at hand. -/
theorem exec_cases {t : Nat} {op : HostOp} {a : Replies} {s s' : Site} {r : op.Ret}
    (h : exec t op a s = some (r, s')) :
    (∃ op' r', op = .repo op' ∧ HEq r r' ∧
      Orchestrator.exec t op' (fun op => a (.repo op)) s.world = some (r', s'.world) ∧
      s'.owners = match op'.granted r' with
        | some o => Function.update s.owners t (some o)
        | none => s.owners) ∨
    ((∀ op', op ≠ .repo op') ∧ s'.world = s.world ∧ s'.owners = s.owners) := by
  cases op with
  | repo op =>
      simp only [exec] at h
      split at h
      · next r' w hr =>
          cases h
          exact .inl ⟨op, _, rfl, HEq.rfl, hr, rfl⟩
      · cases h
  | _ =>
      cases h
      exact .inr ⟨by simp, rfl, rfl⟩

end Site

/-- The API and the workers, with their Docker code, over one repository. -/
@[reducible] def site (Z : SiteSettings) : Machine hostApi where
  World := Site
  Answer := Replies
  Stimulus := Stimulus
  Task := Task
  body T := Prog.interpret (I := api) (J := hostApi) id (carry Z) (T.body Z.services)
  exec := Site.exec
  disturb := Site.disturb
  Good s := s.world.Keyed
  good_exec {t op a s r s'} hs h := by
    rcases Site.exec_cases h with ⟨op, r, rfl, hr, he, -⟩ | ⟨hop, hw, -⟩
    · cases hr
      exact exec_sane hs he
    · refine ⟨?_, hw ▸ hs⟩
      cases op with
      | repo op => exact absurd rfl (hop op)
      | _ => trivial
  good_disturb {x s s'} hs h := by
    obtain ⟨w, hw, rfl⟩ := Option.map_eq_some_iff.mp h
    exact hs.disturb hw

variable {Z : SiteSettings}

/-- What an event is to the repository. -/
def repoEvent : Event (site Z) → Option (Event (orchestrator Z.services))
  | .call t (.repo op) r => some (.call t op r)
  | .call _ _ _ => none
  | .start t T => some (.start t T)
  | .env x => some (.env x)

/-- What happened to the repository. -/
def repoLog (l : List (Event (site Z))) : List (Event (orchestrator Z.services)) :=
  l.filterMap repoEvent

@[simp] theorem repoLog_nil : repoLog ([] : List (Event (site Z))) = [] := rfl

@[simp] theorem repoLog_repo (t : Nat) (op : Op) (r : op.Ret) (l : List (Event (site Z))) :
    repoLog (.call t (.repo op) r :: l) = .call t op r :: repoLog l := rfl

theorem repoLog_other (t : Nat) {op : HostOp} (h : ∀ op', op ≠ .repo op') (r : op.Ret)
    (l : List (Event (site Z))) : repoLog (.call t op r :: l) = repoLog l := by
  cases op with
  | repo op => exact absurd rfl (h op)
  | _ => rfl

@[simp] theorem repoLog_start (t : Nat) (T : Task) (l : List (Event (site Z))) :
    repoLog (.start t T :: l) = .start t T :: repoLog l := rfl

@[simp] theorem repoLog_env (x : Stimulus) (l : List (Event (site Z))) :
    repoLog (.env x :: l) = .env x :: repoLog l := rfl

/-- The configurations the system starts in. -/
structure SiteBoot (c : Config (site Z)) : Prop where
  threads : ∀ t, c.threads t = none
  log : c.log = []
  repo : c.world.world.repo.Pristine
  owners : ∀ t, c.world.owners t = none

theorem SiteBoot.good {c : Config (site Z)} (h : SiteBoot c) : (site Z).Good c.world :=
  h.repo.keyed

end Orchestrator
