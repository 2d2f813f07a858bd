import Orchestrator.Runtime.Tasks

/-!
# Discipline — the deeds of a task

A `Deed b o k op` says that call `op` is one of the things the code does to build `b` in the name
of owner `o`, and which kind of thing it is.  A footprint is a list of kinds; what a monitor
makes of a call depends on its kind alone.

* `Op.quiet`: calls that write no application, role, build, manifest, row or service record, and
  start nothing.
* `Kind`, `Deed`: the shapes of all the other calls.
* `Doing b o ks`: a deed on `b` for `o` of a kind in `ks`; `Does ks`: of any build and owner.
-/

namespace Orchestrator
open Interleaving

/-- Reads, requests that start no execution and deploy nothing, and the records of events and
images. -/
def Op.quiet : Op → Bool
  | updateApp .. | saveAgentRole ..
  | ensureRouteCheck _ | updateRouteCheck .. | deleteRouteCheck .. | createBuild _
  | updateBuild .. | transitionBuild .. | ensureBuildResources _ | putBuildResource ..
  | updateBuildResources .. | claimBuildLease .. | releaseBuildLease .. | guard ..
  | saveService _ | createAlert _ | triggerBuild .. | deploy .. | connectPort ..
  | docker _ => false
  | _ => true

/-! ### Field shapes -/

/-- What a transition writes is not mentioned. -/
structure BuildFields.Unstaged (f : BuildFields) : Prop where
  stage : f.stage.Untouched
  stageHistory : f.stageHistory.Untouched
  error : f.error.Untouched

/-- The fields some kind of deed is about are not mentioned. -/
structure BuildFields.Plain (f : BuildFields) : Prop where
  inputsReady : f.inputsReady.Untouched
  gitCommitSha : f.gitCommitSha.Untouched
  jenkinsQueueUrl : f.jenkinsQueueUrl.Untouched
  serviceIds : f.serviceIds.Untouched
  dynamicCheckPassed : f.dynamicCheckPassed.Untouched
  dynamicStatus : f.dynamicStatus.Untouched
  teardownRequired : f.teardownRequired.Untouched
  teardownStatus : f.teardownStatus.Untouched

/-- The fields of a transition to `target`: the stage it enters, at the end of the history, and
an error if it is a failure. -/
structure BuildFields.Moving (target : BuildStatus) (f : BuildFields) : Prop extends
    BuildFields.Plain f where
  stage : f.stage = .set (some target.value)
  stageHistory : ∃ h, f.stageHistory = .set h ∧ h.getLast? = some target.value ∧ h.length ≤ 32
  error : if target = .failed then ∃ message, f.error = .set (some message)
    else f.error.Untouched

/-- A write of the dynamic check; it may ask for the teardown, not call it off. -/
structure BuildFields.Dynamic (f : BuildFields) : Prop where
  inputsReady : f.inputsReady.Untouched
  gitCommitSha : f.gitCommitSha.Untouched
  jenkinsQueueUrl : f.jenkinsQueueUrl.Untouched
  serviceIds : f.serviceIds.Untouched
  teardown : f.teardownRequired = .keep ∧ f.teardownStatus = .keep ∨
    f.teardownRequired = .set true ∧ f.teardownStatus = .set (some .pending)

/-- A write of the teardown: that it runs, or a status and what that asks for. -/
structure BuildFields.Tearing (f : BuildFields) : Prop where
  inputsReady : f.inputsReady.Untouched
  gitCommitSha : f.gitCommitSha.Untouched
  jenkinsQueueUrl : f.jenkinsQueueUrl.Untouched
  serviceIds : f.serviceIds.Untouched
  dynamicCheckPassed : f.dynamicCheckPassed.Untouched
  dynamicStatus : f.dynamicStatus.Untouched
  teardown : f.teardownStatus = .set (some .running) ∧ f.teardownRequired = .keep ∨
    ∃ s, f.teardownStatus = .set (some s) ∧ f.teardownRequired = .set (s ≠ .succeeded)

/-- The result of the static check is not mentioned. -/
structure RouteCheckFields.Dynamic (f : RouteCheckFields) : Prop where
  generation : f.generation.Untouched
  staticStatus : f.staticStatus.Untouched
  staticCheckPassed : f.staticCheckPassed.Untouched
  probePayload : f.probePayload.Untouched
  diffList : f.diffList.Untouched
  staticReportText : f.staticReportText.Untouched

/-- The result of the dynamic check, the run it is of, and the generation are not mentioned. -/
structure RouteCheckFields.Silent (f : RouteCheckFields) : Prop where
  generation : f.generation.Untouched
  dynamicBuildId : f.dynamicBuildId.Untouched
  dynamicRunId : f.dynamicRunId.Untouched
  dynamicStatus : f.dynamicStatus.Untouched
  dynamicCheckPassed : f.dynamicCheckPassed.Untouched
  dynamicReportText : f.dynamicReportText.Untouched
  probeResult : f.probeResult.Untouched

/-- A result of the static check. -/
structure RouteCheckFields.Result (f : RouteCheckFields) : Prop extends
    RouteCheckFields.Silent f where
  result : f.staticStatus = .set .succeeded ∧ f.staticCheckPassed = .set (some true) ∨
    f.staticStatus = .set .failed ∧ f.staticCheckPassed = .set (some false)

/-- A row no execution has taken, and no run has claimed. -/
structure RouteCheckResult.New (c : RouteCheckResult) : Prop where
  generation : c.generation = 1
  staticStatus : c.staticStatus = .queued
  staticCheckPassed : c.staticCheckPassed = none
  dynamicStatus : c.dynamicStatus = .pending
  dynamicCheckPassed : c.dynamicCheckPassed = none
  dynamicReportText : c.dynamicReportText = none
  probeResult : c.probeResult = none

/-- A build that was just queued. -/
structure BuildJob.New (j : BuildJob) : Prop where
  status : j.status = .queued
  stage : j.stage = some BuildStatus.queued.value
  stageHistory : j.stageHistory = [BuildStatus.queued.value]
  error : j.error = none
  teardownRequired : j.teardownRequired = false
  teardownStatus : j.teardownStatus = none

/-- A manifest no operation has touched. -/
structure BuildResources.Blank (m : BuildResources) : Prop where
  cleanupStatus : m.cleanupStatus = .notStarted
  cleanupGeneration : m.cleanupGeneration = 0
  jenkinsTriggerPending : m.jenkinsTriggerPending = false
  leaseOwner : m.leaseOwner = none
  leaseExpiresAt : m.leaseExpiresAt = none
  resources : m.resources.Distinct

/-- The fields of the final write of a cleanup. -/
structure ResourceFields.Concluding (f : ResourceFields) : Prop where
  cleanupStatus : f.cleanupStatus = .set .succeeded ∨ f.cleanupStatus = .set .partialFailed
  ownershipVersion : f.ownershipVersion.Untouched
  namespace_ : f.namespace_.Untouched
  repositoryUrl : f.repositoryUrl.Untouched
  environmentCiphertext : f.environmentCiphertext.Untouched
  jenkinsTriggerPending : f.jenkinsTriggerPending.Untouched
  resources : f.resources.Untouched
  cleanupGeneration : f.cleanupGeneration.Untouched
  leaseExpiresAt : f.leaseExpiresAt.Untouched

/-- A Docker operation on `b` that deploys nothing. -/
def DockerCall.Tends (b : BuildId) : DockerCall → Prop
  | .deployBuild .. => False
  | .discover m | .waitContainersStopped m | .remove m _ | .verifyEmpty m => m.buildId = b
  | .assertDirectoryUnused _ b' | .removeBuildTag _ _ b' _ => b' = b

/-! ### Deeds -/

inductive Kind where
  | quiet | claim (l : List CleanupStatus) | release | guard | put | pending | trigger
  | plain | ready | commit | queueUrl | serviceIds | dynamic | tear | move | deliver | fail | recheck
  | record | cleaned | deploy | deployBuild | connect
  | accept | undispatch | running | conclude | legacy
  | create | insert | alert | row | ensureRow | takeRow | resultRow | resetRow | deleteRow
  | app | role
  deriving DecidableEq

/-- What the code does to build `b` in the name of `o`, by kind. -/
inductive Deed (b : BuildId) (o : Option Uuid) : Kind → Op → Prop where
  | quiet {op : Op} (h : op.quiet = true) : Deed b o .quiet op
  | guard : Deed b o .guard (.guard b o)
  | put (x : BuildResource) : Deed b o .put (.putBuildResource b x o)
  | pending (p : Bool) : Deed b o .pending
      (.updateBuildResources b { jenkinsTriggerPending := .set p } { leaseOwner := .eq o })
  | trigger (r : JenkinsBuildRequest) : Deed b o .trigger (.triggerBuild b r)
  | plain {f : BuildFields} (h : f.Plain)
      (hs : f.Unstaged) : Deed b o .plain (.updateBuild b f)
  | ready : Deed b o .ready (.updateBuild b { inputsReady := .set true })
  | commit (sha : String) : Deed b o .commit
      (.updateBuild b { gitCommitSha := .set (some sha) })
  | queueUrl (url : String) (h : url ≠ "") : Deed b o .queueUrl
      (.updateBuild b { jenkinsQueueUrl := .set (some url) })
  | serviceIds (ids : List String) : Deed b o .serviceIds
      (.updateBuild b { serviceIds := .set ids })
  | dynamic {f : BuildFields} (h : f.Dynamic) (hs : f.Unstaged) : Deed b o .dynamic (.updateBuild b f)
  | tear {f : BuildFields} (h : f.Tearing)
      (hs : f.Unstaged) : Deed b o .tear (.updateBuild b f)
  | move {s target : BuildStatus} {f : BuildFields} (hs : target ∈ allowedBuildTransitions s)
      (ht : target ≠ .succeeded) (hf : target ≠ .failed) (h : f.Moving target) :
      Deed b o .move (.transitionBuild b [s] target f)
  | deliver {s : BuildStatus} {f : BuildFields} (hs : .succeeded ∈ allowedBuildTransitions s)
      (h : f.Moving .succeeded) : Deed b o .deliver (.transitionBuild b [s] .succeeded f)
  | fail {s : BuildStatus} {f : BuildFields} (hs : .failed ∈ allowedBuildTransitions s)
      (h : f.Moving .failed) : Deed b o .fail (.transitionBuild b [s] .failed f)
  | alert {a : Alert} (h : a.buildId = some b) : Deed b o .alert (.createAlert a)
  | recheck {s : BuildStatus} (run : Uuid) (role : AgentRole)
      (hs : s = .deploying ∨ s = .succeeded) :
      Deed b o .recheck (.transitionBuild b [s] .deploying
        (DynamicCheckService.recheckFields run role))
  | record {r : DeploymentService} (h : r.buildId = b) : Deed b o .record (.saveService r)
  | cleaned {r : DeploymentService} (h : r.buildId = b) :
      Deed b o .cleaned (.saveService { r with status := "cleaned" })
  | deploy (appid : String) (c : Compose) : Deed b o .deploy (.deploy b appid c)
  | deployBuild (appid : String) (c : Compose) :
      Deed b o .deployBuild (.docker (.deployBuild appid b c))
  | tend {c : DockerCall} (h : c.Tends b) : Deed b o .put (.docker c)
  | connect (host service : String) (port : Nat) :
      Deed b o .connect (.connectPort b host service port)
  | accept (current : BuildResources) : Deed b o .accept
      (.updateBuildResources b (queuedFields current)
        { leaseOwner := .eq o, cleanupStatus := .eq current.cleanupStatus })
  | undispatch (generation : Nat) : Deed b o .undispatch
      (.updateBuildResources b undispatchedFields
        { cleanupStatus := .eq .queued, cleanupGeneration := .eq generation })
  | running : Deed b o .running
      (.updateBuildResources b { cleanupStatus := .set .running, lastError := .set none }
        { leaseOwner := .eq o })
  | abandon (e : Exc) : Deed b o .conclude
      (.updateBuildResources b (abandonedFields e) { leaseOwner := .eq o })
  | conclude {f : ResourceFields} (h : f.Concluding) : Deed b o .conclude
      (.updateBuildResources b f { leaseOwner := .eq o, cleanupStatus := .eq .running })
  | legacy {m : BuildResources} (hb : m.buildId = b) (hv : m.ownershipVersion = 0)
      (h : m.Blank) : Deed b o .legacy (.ensureBuildResources m)
  | create {j : BuildJob} (hb : j.buildId = b) (hj : j.New) : Deed b o .create (.createBuild j)
  | insert {m : BuildResources} (hb : m.buildId = b) (hv : m.ownershipVersion = 1)
      (h : m.Blank) : Deed b o .insert (.ensureBuildResources m)
  | row {c : CheckId} {f : RouteCheckFields} (h : f.Dynamic) (e : RouteCheckExpectation) :
      Deed b o .row (.updateRouteCheck c f e)
  | ensureRow {c : RouteCheckResult} (h : c.New) : Deed b o .ensureRow (.ensureRouteCheck c)
  | resetRow (c : CheckId) {row : RouteCheckResult} (h : row.New) (generation : Nat) :
      Deed b o .resetRow (.updateRouteCheck c (RouteCheckService.resetFields row generation)
        { generation := .eq generation })
  | takeRow (c : CheckId) (token : Uuid) (until_ : DateTime) {s : StaticStatus}
      (hs : s = .queued ∨ s = .running) (generation : Nat) (old : Option Uuid)
      (expiry : Option DateTime) :
      Deed b o .takeRow (.updateRouteCheck c
        { staticStatus := .set .running, staticRunToken := .set (some token)
          staticLeaseExpiresAt := .set (some until_) }
        { generation := .eq generation, staticStatus := .eq s, staticRunToken := .eq old
          staticLeaseExpiresAt := .eq expiry })
  | resultRow (c : CheckId) {f : RouteCheckFields} (h : f.Result) (generation : Nat)
      (token : Uuid) :
      Deed b o .resultRow (.updateRouteCheck c f
        { generation := .eq generation, staticRunToken := .eq (some token)
          staticStatus := .eq .running })
  | deleteRow (appId commitId requireRoute : String) (version : Nat) :
      Deed b o .deleteRow (.deleteRouteCheck appId commitId requireRoute version)
  | app (appid : String) (f : AppFields) : Deed b o .app (.updateApp appid f)
  | role (r : AgentRole) (v : Option Nat) : Deed b o .role (.saveAgentRole r v)
  | claim (l : List CleanupStatus) (u : Uuid) (e : DateTime) :
      Deed b o (.claim l) (.claimBuildLease b u e l)
  | release (u : Uuid) : Deed b o .release (.releaseBuildLease b u)

/-- A deed on `b`, in the name of `o`, of a kind in `ks`. -/
def Doing (b : BuildId) (o : Option Uuid) (ks : List Kind) (op : Op) : Prop :=
  ∃ k ∈ ks, Deed b o k op

/-- A deed of a kind in `ks`, on any build and in any name. -/
def Does (ks : List Kind) (op : Op) : Prop := ∃ b o, Doing b o ks op

/-- Kind `k` is written out in the list `ks`. -/
class Kind.Listed (k : Kind) (ks : List Kind) : Prop where
  mem : k ∈ ks

instance (k : Kind) (ks : List Kind) : k.Listed (k :: ks) := ⟨List.mem_cons_self⟩

instance (k k' : Kind) (ks : List Kind) [h : k.Listed ks] : k.Listed (k' :: ks) :=
  ⟨List.mem_cons_of_mem k' h.mem⟩

instance (k : Kind) (K L : List Kind) [h : k.Listed K] : k.Listed (K ++ L) :=
  ⟨List.mem_append_left L h.mem⟩

instance (k : Kind) (K L : List Kind) [h : k.Listed L] : k.Listed (K ++ L) :=
  ⟨List.mem_append_right K h.mem⟩

theorem Doing.of {b : BuildId} {o : Option Uuid} {k : Kind} {op : Op} {ks : List Kind}
    [hk : k.Listed ks] (h : Deed b o k op) : Doing b o ks op := ⟨k, hk.mem, h⟩

section
variable {α : Type} {b : BuildId} {o : Option Uuid} {K L : List Kind} {p : P α}

theorem Doing.mono {op : Op} (h : Doing b o K op) (hk : K ⊆ L) : Doing b o L op :=
  let ⟨k, hm, hd⟩ := h
  ⟨k, hk hm, hd⟩

/-- A program that does less does no more. -/
theorem uses_mono (h : p.Uses (Doing b o K)) (hk : K ⊆ L) : p.Uses (Doing b o L) :=
  h.mono fun _ hop => hop.mono hk

theorem uses_does (h : p.Uses (Doing b o K)) : p.Uses (Does K) :=
  h.mono fun _ hop => ⟨b, o, hop⟩

/-- `Does` with more kinds. -/
theorem Does.mono {op : Op} (h : Does K op) (hk : K ⊆ L) : Does L op :=
  let ⟨b, o, hd⟩ := h
  ⟨b, o, hd.mono hk⟩

theorem uses_does_mono (h : p.Uses (Does K)) (hk : K ⊆ L) : p.Uses (Does L) :=
  h.mono fun _ hop => hop.mono hk

/-- What holds of every call of the kinds holds of a program that keeps to them. -/
theorem of_doing {G : {α : Type} → P α → Prop} (hG : Prog.Compositional (I := api) G)
    (free : ∀ op, Does L op → G (call op)) (h : p.Uses (Doing b o K)) (hk : K ⊆ L) : G p :=
  hG.of_uses free (uses_does (uses_mono h hk))

theorem uses_one {F : Op → Prop} {op : Op} (h : F op) : (call op).Uses F :=
  ⟨h, fun _ _ => trivial⟩

/-- A lease, and what its body does with it and without it. -/
theorem buildLease_uses {F : Op → Prop} {l : List CleanupStatus}
    {body : Option ResourceTracker → P α} (quiet : ∀ {op}, op.quiet = true → F op)
    (claim : ∀ u e, F (.claimBuildLease b u e l)) (release : ∀ u, F (.releaseBuildLease b u))
    (hnone : (body none).Uses F) (hsome : ∀ u, (body (some ⟨b, some u⟩)).Uses F) :
    (buildLease b l body).Uses F := by
  refine .call (quiet rfl) fun u _ => .call (quiet rfl) fun now _ => ?_
  refine .call (claim u _) fun r _ => ?_
  cases r with
  | none => exact hnone
  | some m => exact .ensuring (hsome u) (uses_one (release u))

theorem buildLease_does {l : List CleanupStatus} {body : Option ResourceTracker → P α}
    (hk : [.quiet, .claim l, .release] ⊆ K) (hnone : (body none).Uses (Does K))
    (hsome : ∀ u, (body (some ⟨b, some u⟩)).Uses (Does K)) :
    (buildLease b l body).Uses (Does K) :=
  buildLease_uses (fun h => ⟨b, none, ⟨_, hk (by simp), .quiet h⟩⟩)
    (fun u _ => ⟨b, none, ⟨_, hk (by simp), .claim l u _⟩⟩)
    (fun u => ⟨b, none, ⟨_, hk (by simp), .release u⟩⟩) hnone hsome

/-- A lease has the properties that sequencing keeps, when its body and the claim have them. -/
theorem buildLease_of {G : {α : Type} → P α → Prop} (hG : Prog.Compositional (I := api) G)
    {l : List CleanupStatus} {body : Option ResourceTracker → P α}
    (free : ∀ op, Does [.quiet, .claim l, .release] op → G (call op)) (hnone : G (body none))
    (hsome : ∀ u, G (body (some ⟨b, some u⟩))) : G (buildLease b l body) := by
  refine hG.bind (free _ ⟨b, none, .of (.quiet rfl)⟩) fun u => ?_
  refine hG.bind (free _ ⟨b, none, .of (.quiet rfl)⟩) fun now => ?_
  refine hG.bind (free _ ⟨b, none, .of (.claim l u _)⟩) fun r => ?_
  cases r with
  | none => exact hnone
  | some m => exact hG.ensuring (hsome u) (free _ ⟨b, none, .of (.release u)⟩)

theorem uses_orRaise {F : Op → Prop} {p : P (Except Exc α)} (h : p.Uses F) :
    (orRaise p).Uses F :=
  h.bind fun r => Prog.uses_ofExcept (I := api) r

/-- What it takes for a lease and its body to obey a monitor. -/
theorem obeys_buildLease {M : Monitor api} {l : List CleanupStatus}
    {body : Option ResourceTracker → P α} {Q : Except Exc α → M.View → Prop} {v : M.View} :
    (buildLease b l body).Obeys M Q v ↔
      M.allows v .uuid4 ∧ ∀ u : Uuid, M.allows (M.observe v .uuid4 u) .utcNow ∧ ∀ now : DateTime,
        let v := M.observe (M.observe v .uuid4 u) .utcNow now
        let claim := Op.claimBuildLease b u (now.addSeconds 120) l
        M.allows v claim ∧ (body none).Obeys M Q (M.observe v claim none) ∧
          ∀ m : BuildResources, m.buildId = b →
            (body (some ⟨b, some u⟩)).Obeys M (fun r v => M.allows v (.releaseBuildLease b u) ∧
              Q r (M.observe v (.releaseBuildLease b u) ())) (M.observe v claim (some m)) := by
  have release (u : Uuid) (p : P α) (v : M.View) :
      (p.ensuring (call (.releaseBuildLease b u))).Obeys M Q v ↔
        p.Obeys M (fun r v => M.allows v (.releaseBuildLease b u) ∧
          Q r (M.observe v (.releaseBuildLease b u) ())) v := by
    simp only [Prog.obeys_ensuring]
    refine ⟨fun h => h.mono fun r v hv => ⟨hv.1, hv.2 () trivial⟩,
      fun h => h.mono fun r v hv => ⟨hv.1, fun _ _ => hv.2⟩⟩
  simp only [buildLease, Prog.bind_eq, Prog.obeys_bind]
  constructor
  · rintro ⟨h₁, h⟩
    refine ⟨h₁, fun u => ⟨(h u trivial).1, fun now => ?_⟩⟩
    obtain ⟨h₂, h₃⟩ := (h u trivial).2 now trivial
    exact ⟨h₂, h₃ none (by rintro _ ⟨⟩), fun m hm => (release u _ _).mp
      (h₃ (some m) (by rintro _ ⟨⟩; exact hm))⟩
  · rintro ⟨h₁, h⟩
    refine ⟨h₁, fun u _ => ⟨(h u).1, fun now _ => ?_⟩⟩
    obtain ⟨h₂, h₃, h₄⟩ := (h u).2 now
    refine ⟨h₂, fun r hr => ?_⟩
    cases r with
    | none => exact h₃
    | some m => exact (release u _ _).mpr (h₄ m (hr m rfl))

end

end Orchestrator
