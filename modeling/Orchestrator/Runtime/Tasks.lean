import Orchestrator.Runtime.Effects
import Orchestrator.Services.Applications
import Orchestrator.Services.QueueBuild
import Orchestrator.Services.Worker

/-!
# Runtime — requests and deliveries

`Task`: what starts a thread, an API request or one delivery of a worker task.  A delivery may
come twice, late, or not at all, so a task may start in any configuration.  `orchestrator S` is
the machine of all of them over one repository.
-/

namespace Orchestrator
open Interleaving

inductive Task where
  | queueBuild (appid : String) (gitRef : Option String)
  | manifest (b : BuildId)
  | requestCleanup (b : BuildId)
  | submitDynamic (appid : String) (b : BuildId)
  | submitStatic (appid : String) (commit : Option String) (force : Bool)
  | deleteRouteCheck (appid commit : String)
  | startRoles
  | updateRole (key : RoleKey) (update : AgentRoleUpdate)
  | updateApp (appid : String) (request : AppFields)
  | syncApp (appid : String)
  | startBuild (b : BuildId) (taskId : Option String)
  | pollBuild (b : BuildId) (attempt : Nat) (taskId : Option String)
  | dynamicRouteCheck (b : BuildId) (run : Option Uuid)
  | staticRouteCheck (c : CheckId) (generation : Option Nat)
  | cleanupBuild (b : BuildId)
  | recoverBuilds
  | recoverCleanups
  | recoverRouteChecks

/-- `POST /apps/{appid}/route-checks`: the application is read, then submitted. -/
def submitStatic (S : Settings) (appid : String) (commit : Option String) (force : Bool) :
    P Unit := do
  match ← call (.getApp appid) with
  | none => fault .notFound "App not found"
  | some app =>
      let _ ← RouteCheckService.submit S app commit force
      return ()

def Task.body (S : Settings) : Task → P Unit
  | queueBuild appid gitRef => BuildService.queueBuild S appid gitRef
  | manifest b => do
      let _ ← Orchestrator.manifest S b
      return ()
  | requestCleanup b => do
      let _ ← Orchestrator.requestCleanup S b
      return ()
  | submitDynamic appid b => do
      let _ ← DynamicCheckService.submit appid b
      return ()
  | submitStatic appid commit force => Orchestrator.submitStatic S appid commit force
  | deleteRouteCheck appid commit => do
      let _ ← RouteCheckService.deleteLatest appid commit
      return ()
  | startRoles => AgentRoleService.init
  | updateRole key update => do
      let _ ← AgentRoleService.update S key update
      return ()
  | updateApp appid request => Orchestrator.updateApp S appid request
  | syncApp appid => do
      let _ ← Orchestrator.syncApp S appid
      return ()
  | startBuild b taskId => WorkerRuntime.startBuild S b taskId
  | pollBuild b attempt taskId => WorkerRuntime.pollBuild S b attempt taskId
  | dynamicRouteCheck b run => WorkerRuntime.dynamicRouteCheck S b run
  | staticRouteCheck c generation => RouteCheckService.executeStatic S c generation
  | cleanupBuild b => WorkerRuntime.cleanupBuild S b
  | recoverBuilds => WorkerRuntime.recoverBuilds S
  | recoverCleanups => Orchestrator.recoverCleanups
  | recoverRouteChecks => do
      RouteCheckService.recover
      DynamicCheckService.recover S

/-- The API and the workers over one repository. -/
@[reducible] def orchestrator (S : Settings) : Machine api where
  World := World
  Answer := Answers
  Stimulus := Stimulus
  Task := Task
  body := Task.body S
  exec := exec
  disturb := disturb
  Good := World.Keyed
  good_exec hw h := exec_sane hw h
  good_disturb hw h := hw.disturb h

/-- A repository with applications and agent roles, and nothing else yet. -/
structure Repository.Pristine (s : Repository) : Prop where
  routeChecks : s.routeChecks = ∅
  builds : s.builds = ∅
  buildResources : s.buildResources = ∅
  services : s.services = ∅
  userImages : s.userImages = []
  alerts : s.alerts = ∅

/-- The configurations the system starts in. -/
structure Boot {S : Settings} (c : Config (orchestrator S)) : Prop where
  threads : ∀ t, c.threads t = none
  log : c.log = []
  repo : c.world.repo.Pristine

theorem Repository.Pristine.keyed {w : World} (h : w.repo.Pristine) : w.Keyed where
  builds := by rw [h.builds]; exact Table.keyed_empty
  manifests := by rw [h.buildResources]; exact Table.keyed_empty
  rows := by rw [h.routeChecks]; exact Table.keyed_empty

theorem Boot.good {S : Settings} {c : Config (orchestrator S)} (h : Boot c) :
    (orchestrator S).Good c.world := h.repo.keyed

end Orchestrator
