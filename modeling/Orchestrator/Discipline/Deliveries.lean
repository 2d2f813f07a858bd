import Orchestrator.Discipline.Checking

/-!
# Discipline — deliveries

The footprints of the worker's operations and of `queue_build`.
-/

namespace Orchestrator
open Interleaving

variable (S : Settings)

namespace WorkerRuntime

section
variable (b : BuildId) (o : Option Uuid)

/-- Reading the application of a build is quiet. -/
theorem application_uses (build : BuildJob) :
    (application build).Uses (Doing b o [.quiet]) := by
  refine .call (.of (.quiet rfl)) fun app _ => ?_
  cases app with
  | none => trivial
  | some app =>
      refine .call (.of (.quiet rfl)) fun m _ => ?_
      cases m with
      | none => trivial
      | some m => dsimp only; split <;> trivial

/-- So is asking whether a build is isolated. -/
theorem isolated_uses (build : BuildJob) : (isolated build).Uses (Doing b o [.quiet]) :=
  .call (.of (.quiet rfl)) fun _ _ => trivial

/-- And reading the snapshot of its workspace. -/
theorem workspaceCompose_uses (build : BuildJob) (compose : Compose) :
    (workspaceCompose build compose).Uses (Doing b o [.quiet]) := by
  unfold workspaceCompose
  split
  · trivial
  split
  · trivial
  · refine .bind (isolated_uses b o build) fun isolated => ?_
    exact uses_orRaise (uses_one (.of (.quiet rfl)))

/-- The checks of a document write nothing. -/
theorem checkCompose_uses (build : BuildJob) (app : UserAppRecord) (compose : Compose) :
    (checkCompose S build app compose).Uses (Doing b o [.quiet]) := by
  have pure_ {α : Type} (r : Except Exc α) :=
    Prog.uses_ofExcept (I := api) (F := Doing b o [.quiet]) r
  refine .bind (workspaceCompose_uses b o build compose) fun runtime => ?_
  refine .bind (pure_ _) fun environment => .bind (pure_ _) fun runtime => ?_
  refine .bind (pure_ _) fun _ => .bind (isolated_uses b o build) fun isolated => ?_
  have source : Prog.Uses (I := api) (Doing b o [.quiet]) (do
      let source ← Prog.ofExcept (buildSource compose)
      if source = "git" ∧ app.repositoryUrl = "" ∧ compose.services.any (·.2.build) then
        fault .buildInput ("A repository_url is required for git builds; " ++
          "use x-orchestrator-build-source: workspace for uploaded sources")
      else return source : P String) := by
    refine .bind (pure_ _) fun source => ?_
    split <;> trivial
  dsimp only
  split
  · refine .bind (pure_ _) fun _ => ?_
    split
    · exact .bind trivial fun _ => source
    · exact source
  · exact source

end

/-! ### Starting a build -/

/-- An update does the deed of its write. -/
theorem updateOr_uses {b : BuildId} {o : Option Uuid} {ks : List Kind} {build : BuildJob}
    {f : BuildFields} (h : Doing b o ks (.updateBuild build.buildId f)) :
    (updateOr build f).Uses (Doing b o ks) := .call h fun _ _ => trivial

/-- What an update returns is the build it is of. -/
theorem updateOr_yields (build : BuildJob) (f : BuildFields) :
    (updateOr build f).Yields (·.buildId = build.buildId) := by
  refine .call fun r hr => ?_
  cases r with
  | none => rfl
  | some j => exact hr j rfl

section
variable (tr : ResourceTracker)

/-- The commit is pinned by one write under the lease. -/
theorem pinnedRef_uses {build : BuildJob} (hb : build.buildId = tr.buildId)
    (app : UserAppRecord) (source : String) : (pinnedRef S build app source tr).Uses
      (Doing tr.buildId tr.owner [.quiet, .guard, .commit]) := by
  unfold pinnedRef
  split
  · refine .bind (uses_orRaise (uses_one (.of (.quiet rfl)))) fun sha => ?_
    refine .bind (uses_mono tr.guard_uses (by simp)) fun _ => ?_
    refine .bind (updateOr_uses (hb ▸ .of (.commit sha))) fun build => ?_
    exact .bind (uses_mono (recordEvent_uses _ _ _ _ _ _ _) (by simp)) fun _ => trivial
  · trivial

/-- The build stays the same. -/
theorem pinnedRef_yields (build : BuildJob) (app : UserAppRecord) (source : String) :
    (pinnedRef S build app source tr).Yields (·.1.buildId = build.buildId) := by
  unfold pinnedRef
  split
  · exact .after fun sha => .after fun _ => (updateOr_yields build _).bind fun build hb =>
      .after fun _ => hb
  · rfl

/-- The inputs are checked, pinned, and the build moves on. -/
theorem validateInputs_uses {build : BuildJob} (hb : build.buildId = tr.buildId)
    (app : UserAppRecord) (compose : Compose) : (validateInputs S build app compose tr).Uses
      (Doing tr.buildId tr.owner [.quiet, .guard, .commit, .move]) := by
  refine .bind (uses_mono (checkCompose_uses S _ _ build app compose) (by simp)) fun source => ?_
  refine .bind (uses_mono (recordEvent_uses _ _ _ _ _ _ _) (by simp)) fun _ => ?_
  refine .bind_of (uses_mono (pinnedRef_uses S tr hb app source) (by simp))
    (pinnedRef_yields S tr build app source) fun x hx => ?_
  obtain ⟨build', ref⟩ := x
  refine .bind (uses_mono tr.guard_uses (by simp)) fun _ => ?_
  exact .bind (BuildService.move_uses _ (hx.trans hb) (by simp) (by simp)
    (by constructor <;> trivial) rfl trivial) fun _ => trivial

/-- The build stays the same, in its next status. -/
theorem validateInputs_yields (build : BuildJob) (app : UserAppRecord) (compose : Compose) :
    (validateInputs S build app compose tr).Yields (·.1.buildId = build.buildId) := by
  refine .after fun source => .after fun _ => (pinnedRef_yields S tr build app source).bind
    fun x hx => .after fun _ => (BuildService.transition_yields _ _ _).bind fun j hj => ?_
  exact hj.1.trans hx

/-- A build whose inputs are checked already is not checked again. -/
theorem validated_uses {build : BuildJob} (hb : build.buildId = tr.buildId)
    (app : UserAppRecord) (compose : Option Compose) : (validated S build app compose tr).Uses
      (Doing tr.buildId tr.owner [.quiet, .guard, .commit, .move]) := by
  unfold validated
  split
  · split
    · trivial
    · exact validateInputs_uses S tr hb app _
  · trivial

theorem validated_yields (build : BuildJob) (app : UserAppRecord) (compose : Option Compose) :
    (validated S build app compose tr).Yields (·.1.buildId = build.buildId) := by
  unfold validated
  split
  · split
    · trivial
    · exact validateInputs_yields S tr build app _
  · rfl

/-- Making up the request writes nothing. -/
theorem jenkinsRequest_uses (b : BuildId) (o : Option Uuid) (build : BuildJob)
    (app : UserAppRecord) (compose : Compose) (ref : String) :
    (jenkinsRequest S build app compose ref).Uses (Doing b o [.quiet]) := by
  refine .bind (Prog.uses_ofExcept (I := api) _) fun imageRepository => ?_
  refine .bind (Prog.uses_ofExcept (I := api) _) fun url => ?_
  refine .bind (isolated_uses b o build) fun isolated => ?_
  exact .bind (Prog.uses_ofExcept (I := api) _) fun _ => trivial

/-- Nor does the gate. -/
theorem gate_uses (b b' : BuildId) (o : Option Uuid) : (gate b).Uses (Doing b' o [.quiet]) := by
  refine .call (.of (.quiet rfl)) fun r _ => ?_
  refine .bind (by cases r <;> trivial) fun current => ?_
  refine .call (.of (.quiet rfl)) fun app _ => ?_
  cases app with
  | none => trivial
  | some app => exact RouteCheckService.verifyBuildGate_uses b' o current app

/-- The mark of a trigger is one write of the manifest. -/
theorem setTriggerPending_uses (pending : Bool) :
    (setTriggerPending tr.buildId pending tr).Uses (Doing tr.buildId tr.owner [.pending]) :=
  .call (.of (.pending pending)) fun _ _ => trivial

/-- The kinds of deeds of a trigger. -/
abbrev triggerKinds : List Kind := [.quiet, .guard, .put, .pending, .trigger, .queueUrl]

/-- Between the two writes of the mark, the execution is started, once. -/
theorem triggerJenkins_uses {build : BuildJob} (hb : build.buildId = tr.buildId)
    (r : JenkinsBuildRequest) :
    (triggerJenkins build r tr).Uses
      (Doing tr.buildId tr.owner [.quiet, .guard, .pending, .trigger, .queueUrl]) := by
  have pending (p : Bool) := uses_mono (setTriggerPending_uses tr p)
    (L := [.quiet, .guard, .pending, .trigger, .queueUrl]) (by simp)
  have guard := uses_mono tr.guard_uses
    (L := [.quiet, .guard, .pending, .trigger, .queueUrl]) (by simp)
  unfold triggerJenkins
  rw [hb]
  refine .bind (pending true) fun _ => ?_
  refine .bind (.tryCatch (uses_orRaise (uses_one (.of (.trigger r)))) fun e => ?_) fun queued => ?_
  · split
    · exact .bind guard fun _ => .bind (pending false) fun _ => trivial
    · trivial
  refine .bind guard fun _ => ?_
  refine .bind (updateOr_uses (hb ▸ .of (.queueUrl _ queued.queueUrl_ne))) fun build => ?_
  exact .bind (pending false) fun _ => trivial

/-- A started execution is of the build. -/
theorem triggerJenkins_yields (build : BuildJob) (r : JenkinsBuildRequest) :
    (triggerJenkins build r tr).Yields (·.buildId = build.buildId) :=
  .after fun _ => .after fun _ => .after fun _ => (updateOr_yields build _).bind fun _ hb =>
    .after fun _ => hb

theorem trigger_yields (build : BuildJob) (app : UserAppRecord) (compose : Option Compose)
    (ref : String) : (trigger S build app compose ref tr).Yields
      (·.buildId = build.buildId) := by
  refine .after fun _ => .after fun m => ?_
  split
  · trivial
  cases compose with
  | none => trivial
  | some compose =>
      exact .after fun _ => .after fun r => .after fun _ => .after fun _ => .after fun _ =>
        (triggerJenkins_yields tr build r).bind fun _ hb => .after fun _ => hb

/-- The kinds of deeds of the steps of `_start_build`. -/
abbrev stepKinds : List Kind := [.plain, .commit, .move] ++ triggerKinds

/-- A poll is scheduled under the lease. -/
theorem schedulePoll_uses (b : BuildId) (attempt : Nat) : (schedulePoll b attempt tr).Uses
    (Doing tr.buildId tr.owner [.quiet, .guard]) :=
  .bind (uses_mono tr.guard_uses (by simp)) fun _ => uses_orRaise (uses_one (.of (.quiet rfl)))

/-- The row of a failed delivery tells its report. -/
theorem failRow_uses (current : BuildJob) (report : String) :
    (failRow current report tr).Uses (Doing tr.buildId tr.owner [.quiet, .guard, .row]) := by
  have h := rowKeeping_uses tr (K := [.quiet, .guard, .row]) (by simp)
  refine .bind (h.frozenRow current) fun row => ?_
  cases row with
  | none => trivial
  | some row =>
      dsimp only
      split
      · trivial
      · refine .bind h.guarded fun _ => .bind (h.row _ _ _ ?_) fun _ => trivial
        constructor <;> trivial

/-- A failed delivery asks for a teardown. -/
theorem failedDeliveryFields_dynamic (report : String) :
    (failedDeliveryFields report).Dynamic :=
  ⟨trivial, trivial, trivial, trivial, .inr ⟨rfl, rfl⟩⟩

/-- The kinds of deeds of a failed delivery. -/
abbrev failKinds : List Kind := [.quiet, .guard, .dynamic, .row, .fail, .alert]

/-- The kinds of deeds of `_start_build`. -/
abbrev startKinds : List Kind := stepKinds ++ failKinds

section
variable {G : {α : Type} → P α → Prop} {tr : ResourceTracker} {K : List Kind}

/-- A failed delivery writes the check, fails the build and tells the row. -/
theorem failDelivery_of (h : Failing G tr.buildId tr.owner failKinds) (e : Exc)
    (fallback : String) : G (failDelivery S tr.buildId e fallback tr) := by
  have hG := h.compositional
  refine hG.bind (h.of_uses tr.guard_uses (by simp)) fun _ => ?_
  refine hG.bind (h.of_uses (BuildService.getBuild_uses _ _) (by simp)) fun current => ?_
  dsimp only
  split
  · refine hG.bind (h.free (k := .dynamic) (by simp) (by simp) (by simp)
      (.dynamic (failedDeliveryFields_dynamic _) (by constructor <;> trivial))) fun _ => ?_
    refine hG.bind (h.fail _ _) fun _ => ?_
    exact h.of_uses (failRow_uses tr current _) (by simp)
  · exact hG.bind (h.fail _ _) fun _ => hG.ret _

end

/-- The images of the artifact, checked where the build is isolated, and registered. -/
def registered (build : BuildJob) (source compose : Compose) (artifact : JenkinsResultArtifact)
    (tr : ResourceTracker) : P BuildJob := do
  let isolated ← isolated build
  let build ← (if isolated then checkIsolatedArtifact S build source compose artifact tr
    else .ret build : P BuildJob)
  Prog.forEach artifact.images (registerImage build artifact tr)
  return build

/-- The checks of an artifact save its commit and nothing else. -/
theorem checkIsolatedArtifact_uses {build : BuildJob} (hb : build.buildId = tr.buildId)
    (source deployment : Compose) (artifact : JenkinsResultArtifact) :
    (checkIsolatedArtifact S build source deployment artifact tr).Uses
      (Doing tr.buildId tr.owner [.guard, .commit]) := by
  refine .bind (Prog.uses_ofExcept (I := api) _) fun commit => ?_
  refine .bind ?_ fun build => ?_
  · split
    · refine .bind (uses_mono tr.guard_uses (by simp)) fun _ => ?_
      exact updateOr_uses (hb ▸ .of (.commit _))
    · trivial
  refine .bind (Prog.uses_ofExcept (I := api) _) fun repository => ?_
  exact .bind (Prog.uses_ofExcept (I := api) _) fun _ => trivial

/-- The build stays the same. -/
theorem checkIsolatedArtifact_yields (build : BuildJob) (source deployment : Compose)
    (artifact : JenkinsResultArtifact) :
    (checkIsolatedArtifact S build source deployment artifact tr).Yields
      (·.buildId = build.buildId) := by
  refine .after fun commit => .bind (Q := (·.buildId = build.buildId)) ?_ fun build' hb => ?_
  · split
    · exact .after fun _ => updateOr_yields build _
    · rfl
  · exact .after fun _ => .after fun _ => hb

/-- An image of an isolated build is put into the manifest. -/
theorem registerImage_uses (build : BuildJob) (artifact : JenkinsResultArtifact)
    (reference : String) : (registerImage build artifact tr reference).Uses
      (Doing tr.buildId tr.owner [.quiet, .put]) := by
  refine .bind (uses_mono (isolated_uses _ _ build) (by simp)) fun isolated => ?_
  split
  · exact .bind (tr.record_uses _) fun _ => uses_one (.of (.quiet rfl))
  · exact uses_one (.of (.quiet rfl))

/-- The artifact is checked, and then its images are registered. -/
theorem registered_uses {build : BuildJob} (hb : build.buildId = tr.buildId)
    (source compose : Compose) (artifact : JenkinsResultArtifact) :
    (registered S build source compose artifact tr).Uses
      (Doing tr.buildId tr.owner [.quiet, .guard, .commit, .put]) := by
  refine .bind (uses_mono (isolated_uses _ _ build) (by simp)) fun isolated => ?_
  refine .bind ?_ fun build' => ?_
  · split
    · exact uses_mono (checkIsolatedArtifact_uses S tr hb source compose artifact) (by simp)
    · trivial
  · exact .bind (.forEach fun r => uses_mono (registerImage_uses tr build' artifact r) (by simp))
      fun _ => trivial

/-- The build stays the same. -/
theorem registered_yields (build : BuildJob) (source compose : Compose)
    (artifact : JenkinsResultArtifact) :
    (registered S build source compose artifact tr).Yields (·.buildId = build.buildId) := by
  refine .after fun isolated => .bind (Q := (·.buildId = build.buildId)) ?_ fun build' hb => ?_
  · split
    · exact checkIsolatedArtifact_yields S tr build source compose artifact
    · rfl
  · exact .after fun _ => hb

/-- A deployment is one request to Docker, with its script. -/
theorem deployBuild_uses (appid : String) (compose : Compose) :
    (tr.docker (.deployBuild appid tr.buildId compose)).Uses
      (Doing tr.buildId tr.owner [.quiet, .deployBuild, .put, .guard]) :=
  .call (.of (.deployBuild ..)) fun s _ => uses_mono (tr.follow_uses s) (by simp)

/-- What is done under the tracker `tr`, but for writes of the aggregate row and of resources, and
the functions with such writes have the property `G`. -/
structure Delivering (G : {α : Type} → P α → Prop) (tr : ResourceTracker) (ks : List Kind) :
    Prop where
  compositional : Prog.Compositional (I := api) G
  free : ∀ {k op}, k ∈ ks → k ≠ .fail → k ≠ .alert → k ≠ .row → k ≠ .put → k ≠ .deployBuild →
    Deed tr.buildId tr.owner k op → G (call op)
  fail : ∀ message site, G (BuildService.fail tr.buildId message site)
  execute : G (DynamicCheckService.execute S tr.buildId tr.guard)
  failDelivery : ∀ e fallback, G (failDelivery S tr.buildId e fallback tr)
  record : .put ∈ ks → ∀ r : RecordArgs, r.metadata = none → G (tr.record r)
  registered : .put ∈ ks → ∀ {build : BuildJob}, build.buildId = tr.buildId →
    ∀ source compose artifact, G (registered S build source compose artifact tr)
  deployBuild : .deployBuild ∈ ks → ∀ appid compose,
    G (tr.docker (.deployBuild appid tr.buildId compose))

namespace Delivering
variable {S} {tr} {G : {α : Type} → P α → Prop} {K L : List Kind}

/-- A footprint of free deeds has the property. -/
theorem of_uses {α : Type} {p : P α} (h : Delivering S G tr L)
    (hp : p.Uses (Doing tr.buildId tr.owner K))
    (hk : ∀ k ∈ K, k ∈ L ∧ k ≠ .fail ∧ k ≠ .alert ∧ k ≠ .row ∧ k ≠ .put ∧ k ≠ .deployBuild) :
    G p :=
  h.compositional.of_uses (fun _ ⟨k, hm, hd⟩ =>
    let ⟨hl, hf, ha, hr, hp, hb⟩ := hk k hm
    h.free hl hf ha hr hp hb hd) hp

/-- Fewer kinds of deeds ask for less. -/
theorem lesser (h : Delivering S G tr L) (hk : K ⊆ L) : Delivering S G tr K :=
  ⟨h.compositional, fun hm => h.free (hk hm), h.fail, h.execute, h.failDelivery,
    fun hm => h.record (hk hm), fun hm => h.registered (hk hm), fun hm => h.deployBuild (hk hm)⟩

/-- A quiet call has the property, where quiet deeds are free. -/
theorem quiet (h : Delivering S G tr L) {op : Op} (hq : op.quiet = true) (hk : .quiet ∈ L) :
    G (call op) := h.free hk (by simp) (by simp) (by simp) (by simp) (by simp) (.quiet hq)

theorem request (h : Delivering S G tr L) {α : Type} {p : P (Except Exc α)} (hp : G p) :
    G (orRaise p) := h.compositional.bind hp fun r => h.compositional.ofExcept r

/-- Where writes of resources have the property as well. -/
theorem of_free (hG : Prog.Compositional (I := api) G)
    (free : ∀ {k op}, k ∈ K → k ≠ .fail → k ≠ .alert → k ≠ .row → Deed tr.buildId tr.owner k op →
      G (call op))
    (fail : ∀ message site, G (BuildService.fail tr.buildId message site))
    (execute : G (DynamicCheckService.execute S tr.buildId tr.guard))
    (failDelivery : ∀ e fallback, G (WorkerRuntime.failDelivery S tr.buildId e fallback tr))
    (hk : [.quiet, .guard] ⊆ K) (hp : .put ∈ K → .commit ∈ K) (hb : .deployBuild ∈ K → .put ∈ K) :
    Delivering S G tr K where
  compositional := hG
  free hm hf ha hr _ _ := free hm hf ha hr
  fail
  execute
  failDelivery
  record hm r _ := by
    refine hG.of_uses (fun op ⟨k, hk', hd⟩ => ?_) (tr.record_uses r)
    rcases List.mem_pair.mp hk' with rfl | rfl
    · exact free (hk (by simp)) (by simp) (by simp) (by simp) hd
    · exact free hm (by simp) (by simp) (by simp) hd
  registered hm build hbuild source compose artifact := by
    refine hG.of_uses (fun op ⟨k, hk', hd⟩ => ?_)
      (registered_uses S tr hbuild source compose artifact)
    simp only [List.mem_cons, List.not_mem_nil, or_false] at hk'
    rcases hk' with rfl | rfl | rfl | rfl
    · exact free (hk (by simp)) (by simp) (by simp) (by simp) hd
    · exact free (hk (by simp)) (by simp) (by simp) (by simp) hd
    · exact free (hp hm) (by simp) (by simp) (by simp) hd
    · exact free hm (by simp) (by simp) (by simp) hd
  deployBuild hm appid compose := by
    refine hG.of_uses (fun op ⟨k, hk', hd⟩ => ?_) (deployBuild_uses tr appid compose)
    simp only [List.mem_cons, List.not_mem_nil, or_false] at hk'
    rcases hk' with rfl | rfl | rfl | rfl
    · exact free (hk (by simp)) (by simp) (by simp) (by simp) hd
    · exact free hm (by simp) (by simp) (by simp) hd
    · exact free (hb hm) (by simp) (by simp) (by simp) hd
    · exact free (hk (by simp)) (by simp) (by simp) (by simp) hd

/-- What is known of failures and of the check gives the rest. -/
theorem of_failing (h : Failing G tr.buildId tr.owner K) (hk : failKinds ++ checkKinds ⊆ K)
    (hp : .put ∈ K → .commit ∈ K) (hd : .deployBuild ∈ K → .put ∈ K) : Delivering S G tr K :=
  of_free h.compositional (fun hm hf ha _ => h.free hm hf ha) h.fail
    ((h.checking fun _ hm => hk (List.mem_append_right _ hm)).execute S)
    (failDelivery_of S (h.lesser fun _ hm => hk (List.mem_append_left _ hm)))
    (fun _ hm => hk (by simp at hm ⊢; tauto)) hp hd

/-- A footprint that allows all of this is such a property. -/
theorem uses (tr : ResourceTracker) (hk : failKinds ++ checkKinds ⊆ K)
    (hp : .put ∈ K → .commit ∈ K) (hd : .deployBuild ∈ K → .put ∈ K) :
    Delivering S (fun {_} p => p.Uses (Doing tr.buildId tr.owner K)) tr K :=
  of_failing (.uses _ _ fun _ hm => hk (by simp at hm ⊢; tauto)) hk hp hd

end Delivering

section
variable {G : {α : Type} → P α → Prop}

/-- The images to come are recorded as planned. -/
theorem recordPlannedImages_of (h : Delivering S G tr triggerKinds) (build : BuildJob)
    (app : UserAppRecord) (compose : Compose) : G (recordPlannedImages S build app compose tr) := by
  have hG := h.compositional
  refine hG.bind (h.of_uses (isolated_uses _ _ build) (by simp)) fun isolated => ?_
  split
  · refine hG.forEach fun s => hG.bind (hG.ofExcept _) fun repository => ?_
    exact hG.bind (h.record (by simp) _ rfl) fun _ => hG.ret _
  · exact hG.ret _

/-- A trigger records its images and starts the execution. -/
theorem trigger_of (h : Delivering S G tr triggerKinds) {build : BuildJob}
    (hb : build.buildId = tr.buildId) (app : UserAppRecord) (compose : Option Compose)
    (ref : String) : G (trigger S build app compose ref tr) := by
  have hG := h.compositional
  have guard := h.of_uses tr.guard_uses (by simp)
  refine hG.bind guard fun _ => ?_
  refine hG.bind (h.of_uses (currentManifest_uses _ _ _) (by simp)) fun m => ?_
  split
  · exact hG.raise _
  cases compose with
  | none => exact hG.raise _
  | some compose =>
      refine hG.bind (recordPlannedImages_of S tr h build app compose) fun _ => ?_
      refine hG.bind (h.of_uses (jenkinsRequest_uses S _ _ build app compose ref) (by simp))
        fun r => ?_
      refine hG.bind guard fun _ => hG.bind (h.of_uses (gate_uses _ _ _) (by simp)) fun _ => ?_
      refine hG.bind guard fun _ => ?_
      refine hG.bind (h.of_uses (triggerJenkins_uses tr hb r) (by simp)) fun build => ?_
      exact hG.bind (h.of_uses (recordEvent_uses _ _ _ _ _ _ _) (by simp)) fun _ => hG.ret _

/-- The steps of a start: inputs, gate, trigger, poll. -/
theorem startSteps_of (h : Delivering S G tr stepKinds) {build : BuildJob}
    (hb : build.buildId = tr.buildId) (taskId : Option String) (app : UserAppRecord) :
    G (startSteps S build taskId app tr) := by
  have hG := h.compositional
  have guard := h.of_uses tr.guard_uses (by simp)
  have move {build : BuildJob} (hb : build.buildId = tr.buildId) {target : BuildStatus}
      (ht : target ≠ .succeeded ∧ target ≠ .failed) : G (BuildService.transition build.buildId
        target) :=
    h.of_uses (BuildService.move_uses tr.owner (K := [.quiet, .move]) (f := {}) hb ht (by simp)
      (by constructor <;> trivial) rfl trivial) (by simp)
  have moved {build : BuildJob} (hb : build.buildId = tr.buildId) (target : BuildStatus) :=
    (BuildService.transition_yields build.buildId target {}).mono
      (R := (·.buildId = tr.buildId)) fun _ h => h.1.trans hb
  -- Each step goes on with a build of this identifier.
  refine hG.bind guard fun _ => ?_
  refine hG.bind_of (Q := (·.buildId = tr.buildId)) ?_ ?_ fun build hb => ?_
  · split
    · exact h.of_uses (K := [.plain]) (updateOr_uses
        (hb ▸ .of (.plain (by constructor <;> trivial) (by constructor <;> trivial)))) (by simp)
    · exact hG.ret _
  · split
    · exact (updateOr_yields build _).mono fun _ h => h.trans hb
    · exact hb
  refine hG.bind_of (Q := (·.buildId = tr.buildId)) ?_ ?_ fun build hb => ?_
  · split
    · exact move hb (by simp)
    · exact hG.ret _
  · split
    · exact moved hb _
    · exact hb
  refine hG.bind_of (h.of_uses (validated_uses S tr hb app _) (by simp))
    (validated_yields S tr build app _) fun x hx => ?_
  obtain ⟨build', ref⟩ := x
  have hb : build'.buildId = tr.buildId := hx.trans hb
  refine hG.bind_of (Q := (·.buildId = tr.buildId)) ?_ ?_ fun build hb => ?_
  · split
    · exact trigger_of S tr (h.lesser (by simp)) hb app _ ref
    · exact hG.ret _
  · split
    · exact (trigger_yields S tr build' app _ ref).mono fun _ h => h.trans hb
    · exact hb
  refine hG.bind_of (Q := (·.buildId = tr.buildId)) ?_ ?_ fun build hb => ?_
  · split
    · exact hG.bind guard fun _ => move hb (by simp)
    · exact hG.ret _
  · split
    · exact .after fun _ => moved hb _
    · exact hb
  split
  · exact h.of_uses (schedulePoll_uses tr _ _) (by simp)
  · exact hG.ret _

/-- A step that raises fails the delivery. -/
theorem startBody_of (h : Delivering S G tr startKinds) (taskId : Option String) :
    G (startBody S tr.buildId taskId tr) := by
  have hG := h.compositional
  refine hG.bind_of (h.of_uses (BuildService.getBuild_uses _ _) (by simp))
    (BuildService.getBuild_yields _) fun build hb => ?_
  split
  · exact hG.ret _
  · refine hG.bind (h.of_uses (application_uses _ _ build) (by simp)) fun app => ?_
    exact hG.tryCatch (startSteps_of S tr (h.lesser (by simp)) hb taskId app) fun e =>
      h.failDelivery e _

end

/-- What `_start_build` does. -/
theorem startBody_uses (taskId : Option String) : (startBody S tr.buildId taskId tr).Uses
    (Doing tr.buildId tr.owner startKinds) :=
  startBody_of S tr (.uses tr (by simp) (by simp) (by simp)) taskId

/-! ### Deployment -/

/-- Looking for open ports records nothing. -/
theorem probePublicPorts_uses (deployment : List ServiceDeployment) :
    (probePublicPorts S tr.buildId deployment).Uses
      (Doing tr.buildId tr.owner [.connect]) := by
  unfold probePublicPorts
  split
  · trivial
  · trivial
  · refine .forEach fun s => .forEach fun p => ?_
    split
    · split
      · exact uses_orRaise (uses_one (.of (.connect ..)))
      · trivial
    · trivial

/-- Making up the document to deploy writes nothing. -/
theorem deploymentCompose_uses (b : BuildId) (o : Option Uuid) (build : BuildJob)
    (app : UserAppRecord) (source : Option Compose) (artifact : JenkinsResultArtifact) :
    (deploymentCompose S build app source artifact).Uses (Doing b o [.quiet]) := by
  unfold deploymentCompose
  split
  · trivial
  · refine .bind (Prog.uses_ofExcept (I := api) _) fun _ => ?_
    refine .bind (workspaceCompose_uses _ _ build _) fun compose => ?_
    refine .bind (Prog.uses_ofExcept (I := api) _) fun environment => ?_
    refine .bind (Prog.uses_ofExcept (I := api) _) fun compose => ?_
    exact .bind (Prog.uses_ofExcept (I := api) _) fun _ => trivial

/-- The kinds of deeds of a delivery. -/
abbrev deliverKinds : List Kind := .deliver :: checkKinds

/-- The kinds of deeds of a deployment. -/
abbrev deployKinds : List Kind :=
  [.put, .move, .commit, .record, .serviceIds, .deploy, .deployBuild, .connect] ++ deliverKinds

section
variable {G : {α : Type} → P α → Prop}

/-- The check is run, and its outcome is delivered or fails the build. -/
theorem completeDynamicDeployment_of (h : Delivering S G tr deliverKinds) :
    G (completeDynamicDeployment S tr.buildId tr) := by
  have hG := h.compositional
  have guard := h.of_uses tr.guard_uses (by simp)
  refine hG.bind guard fun _ => ?_
  refine hG.bind (h.execute) fun checked => hG.bind guard fun _ => ?_
  refine hG.bind (h.of_uses (BuildService.getBuild_uses _ _) (by simp)) fun current => ?_
  split
  · exact hG.ret _
  split
  · exact hG.ret _
  · refine hG.bind (h.of_uses (BuildService.transition_uses _ _ (BuildService.transitionFields_moving
      (f := {}) (by constructor <;> trivial) (.inl rfl) trivial))
      (by simp [BuildService.moveKind])) fun succeeded => ?_
    exact h.of_uses (recordEvent_uses _ _ _ _ _ _ _) (by simp)

/-- Services are deployed, saved and looked at, and then checked. -/
theorem rollOut_of (h : Delivering S G tr deployKinds) {build : BuildJob}
    (hb : build.buildId = tr.buildId) (compose : Compose) : G (rollOut S build compose tr) := by
  have hG := h.compositional
  have guard := h.of_uses tr.guard_uses (by simp)
  unfold rollOut
  rw [hb]
  refine hG.bind (h.of_uses (isolated_uses _ _ build) (by simp)) fun isolated => ?_
  refine hG.bind ?_ fun deployment => hG.bind guard fun _ => ?_
  · split
    · exact h.deployBuild (by simp) _ _
    · exact h.of_uses (K := [.deploy]) (uses_orRaise (uses_one (.of (.deploy ..)))) (by simp)
  dsimp only
  refine hG.bind (h.of_uses (K := [.guard, .record]) (.forEach_mem fun r hr => ?_) (by simp)) fun _ =>
    hG.bind guard fun _ => ?_
  · obtain ⟨s, -, rfl⟩ := List.mem_map.mp hr
    exact .bind (uses_mono tr.guard_uses (by simp)) fun _ => uses_one (.of (.record rfl))
  refine hG.bind_of (h.of_uses (K := [.serviceIds]) (updateOr_uses (hb ▸ .of (.serviceIds _))) (by simp))
    (updateOr_yields build _) fun build' hb' => ?_
  rw [hb'.trans hb]
  refine hG.bind (h.of_uses (probePublicPorts_uses S tr deployment) (by simp)) fun _ => ?_
  exact completeDynamicDeployment_of S tr (h.lesser (by simp))

/-- What follows the registration of the images. -/
def afterImages (build : BuildJob) (compose : Compose) (images : List String)
    (tr : ResourceTracker) : P Unit := do
  if build.status = .building then
    let build ← BuildService.transition build.buildId .deploying { images := .set images }
    recordEvent build.appid (some build.buildId) "build.images_registered"
      "Jenkins build images registered"
    rollOut S build compose tr
  else if build.status = .deploying then rollOut S build compose tr
  else
    let _ ← BuildService.getBuild build.buildId
    return ()

/-- A deployment is the registration of its images and what follows. -/
theorem completeDeployment_eq (build : BuildJob) (number : Nat) :
    completeDeployment S build number tr = (do
      let artifact ← orRaise (call (.getResultArtifact number))
      let app ← application build
      let (source, compose) ← deploymentCompose S build app
        (match build.composeSnapshot with
        | some c => some c
        | none => app.compose) artifact
      tr.guard
      let build ← registered S build source compose artifact tr
      afterImages S build compose artifact.images tr) := by
  unfold completeDeployment
  simp only [Prog.bind_eq]
  refine congrArg _ (funext fun artifact => congrArg _ (funext fun app =>
    congrArg _ (funext fun deployment => ?_)))
  obtain ⟨source, compose⟩ := deployment
  simp only [registered, afterImages, Prog.bind_eq, Prog.bind_assoc, Prog.pure_eq, Prog.ret_bind]

/-- An execution that has succeeded is deployed. -/
theorem completeDeployment_of (h : Delivering S G tr deployKinds) {build : BuildJob}
    (hb : build.buildId = tr.buildId) (number : Nat) :
    G (completeDeployment S build number tr) := by
  have hG := h.compositional
  rw [completeDeployment_eq]
  refine hG.bind (h.request (h.quiet rfl (by simp))) fun artifact => ?_
  refine hG.bind (h.of_uses (application_uses _ _ build) (by simp)) fun app => ?_
  refine hG.bind (h.of_uses (deploymentCompose_uses S _ _ build app _ artifact) (by simp)) fun x => ?_
  obtain ⟨source, compose⟩ := x
  refine hG.bind (h.of_uses tr.guard_uses (by simp)) fun _ => ?_
  refine hG.bind_of (h.registered (by simp) hb source compose artifact)
    (registered_yields S tr build source compose artifact) fun build' hb' => ?_
  have hb' : build'.buildId = tr.buildId := hb'.trans hb
  unfold afterImages
  split
  · refine hG.bind_of (h.of_uses (K := [.quiet, .move])
      (BuildService.move_uses _ hb' (by simp) (by simp) (by constructor <;> trivial) rfl trivial)
      (by simp))
      (BuildService.transition_yields _ _ _) fun build hb => ?_
    refine hG.bind (h.of_uses (recordEvent_uses _ _ _ _ _ _ _) (by simp)) fun _ => ?_
    exact rollOut_of S tr h (hb.1.trans hb') compose
  split
  · exact rollOut_of S tr h hb' compose
  · rw [hb']
    exact hG.bind (h.of_uses (BuildService.getBuild_uses _ _) (by simp)) fun _ => hG.ret _

/-- A deployment that was interrupted is taken up. -/
theorem resumeDeployment_of (h : Delivering S G tr deployKinds) {build : BuildJob}
    (hb : build.buildId = tr.buildId) : G (resumeDeployment S build tr) := by
  have hG := h.compositional
  refine hG.bind (h.quiet rfl (by simp)) fun services => ?_
  dsimp only
  split
  · refine hG.bind_of (Q := (·.buildId = tr.buildId)) ?_ ?_ fun build' hb' => ?_
    · split
      · refine hG.bind (h.of_uses tr.guard_uses (by simp)) fun _ => ?_
        exact h.of_uses (K := [.serviceIds]) (updateOr_uses (hb ▸ .of (.serviceIds _))) (by simp)
      · exact hG.ret _
    · split
      · exact .after fun _ => (updateOr_yields build _).mono fun _ h => h.trans hb
      · exact hb
    · rw [hb']
      exact completeDynamicDeployment_of S tr (h.lesser (by simp))
  split
  · exact hG.raise _
  · exact completeDeployment_of S tr h hb _

end

/-! ### Polling -/

/-- Reading the console of a failed execution is quiet. -/
theorem jenkinsFailure_uses (b : BuildId) (o : Option Uuid) (build : BuildJob) (number : Nat)
    (result : Option String) :
    (jenkinsFailure S build number result).Uses (Doing b o [.quiet]) := by
  refine .bind (Prog.Uses.attempt ?_) fun r => ?_
  · refine .bind (application_uses _ _ build) fun app => ?_
    refine .bind (Prog.uses_ofExcept (I := api) _) fun _ => ?_
    exact uses_orRaise (uses_one (.of (.quiet rfl)))
  · cases r <;> trivial

/-- The kinds of deeds of `_poll_build`. -/
abbrev pollKinds : List Kind := deployKinds ++ startKinds

section
variable {G : {α : Type} → P α → Prop}

/-- An execution goes on, has failed, or is deployed. -/
theorem pollExecution_of (h : Delivering S G tr pollKinds) {build : BuildJob}
    (hb : build.buildId = tr.buildId) (attempt number : Nat) :
    G (pollExecution S build attempt number tr) := by
  have hG := h.compositional
  refine hG.bind (h.request (h.quiet rfl (by simp))) fun current => ?_
  refine hG.bind (h.of_uses tr.guard_uses (by simp)) fun _ => ?_
  refine hG.bind (h.quiet rfl (by simp)) fun now => ?_
  refine hG.bind (h.free (k := .plain) (by simp) (by simp) (by simp) (by simp) (by simp)
    (by simp) (hb ▸ .plain (by constructor <;> trivial) (by constructor <;> trivial))) fun _ => ?_
  split
  · exact h.of_uses (schedulePoll_uses tr _ _) (by simp)
  · exact h.of_uses (schedulePoll_uses tr _ _) (by simp)
  · exact completeDeployment_of S tr (h.lesser (by simp)) hb _
  · exact hG.bind (h.of_uses (jenkinsFailure_uses S _ _ build _ _) (by simp)) fun _ => hG.raise _
  · exact hG.bind (h.of_uses (jenkinsFailure_uses S _ _ build _ _) (by simp)) fun _ => hG.raise _

/-- A poll finds the execution of the build first. -/
theorem pollSteps_of (h : Delivering S G tr pollKinds) {build : BuildJob}
    (hb : build.buildId = tr.buildId) (attempt : Nat) : G (pollSteps S build attempt tr) := by
  have hG := h.compositional
  unfold pollSteps
  split
  · exact resumeDeployment_of S tr (h.lesser (by simp)) hb
  split
  · exact hG.raise _
  split
  · exact pollExecution_of S tr h hb attempt _
  · refine hG.bind (h.request (h.quiet rfl (by simp))) fun queue => ?_
    refine hG.bind (h.of_uses tr.guard_uses (by simp)) fun _ => ?_
    split
    · exact hG.raise _
    refine hG.bind (h.quiet rfl (by simp)) fun now => ?_
    split
    · refine hG.bind (h.free (k := .plain) (by simp) (by simp) (by simp) (by simp) (by simp)
        (by simp) (hb ▸ .plain (by constructor <;> trivial) (by constructor <;> trivial))) fun _ => ?_
      exact h.of_uses (schedulePoll_uses tr _ _) (by simp)
    · refine hG.bind_of (h.of_uses (K := [.plain]) (updateOr_uses
        (hb ▸ .of (.plain (by constructor <;> trivial) (by constructor <;> trivial)))) (by simp))
        (updateOr_yields build _) fun build' hb' => ?_
      refine hG.bind (h.of_uses (recordEvent_uses _ _ _ _ _ _ _) (by simp)) fun _ => ?_
      exact pollExecution_of S tr h (hb'.trans hb) attempt _

/-- A poll of a build by its status. -/
theorem pollBody_of (h : Delivering S G tr pollKinds) (attempt : Nat)
    (taskId : Option String) : G (pollBody S tr.buildId attempt taskId tr) := by
  have hG := h.compositional
  have start := startBody_of S tr (h.lesser (by simp)) taskId
  have steps {build : BuildJob} (hb : build.buildId = tr.buildId) :
      G ((pollSteps S build attempt tr).tryCatch fun e =>
        failDelivery S tr.buildId e "Build polling or deployment failed" tr) :=
    hG.tryCatch (pollSteps_of S tr h hb attempt) fun e => h.failDelivery e _
  refine hG.bind_of (h.of_uses (BuildService.getBuild_uses _ _) (by simp))
    (BuildService.getBuild_yields _) fun build hb => ?_
  split
  · exact hG.ret _
  refine hG.bind (h.of_uses tr.guard_uses (by simp)) fun _ => ?_
  split
  · exact hG.bind (h.fail _ _) fun _ => hG.ret _
  split
  · exact start
  · exact start
  · exact start
  · exact steps hb

/-- A check that is asked for again is completed like a deployment. -/
theorem dynamicBody_of (h : Delivering S G tr deliverKinds) (run : Option Uuid) :
    G (dynamicBody S tr.buildId run tr) := by
  have hG := h.compositional
  refine hG.bind (h.of_uses (BuildService.getBuild_uses _ _) (by simp)) fun current => ?_
  split
  · exact hG.ret _
  split
  · exact hG.ret _
  · exact hG.tryCatch (completeDynamicDeployment_of S tr h) fun e =>
      h.failDelivery e _

/-- A build whose inputs never came fails. -/
theorem failUnprepared_of (h : Failing G tr.buildId tr.owner [.quiet, .guard, .fail, .alert]) :
    G (failUnprepared tr.buildId (some tr)) := by
  have hG := h.compositional
  refine hG.bind (h.of_uses (BuildService.getBuild_uses _ _) (by simp)) fun current => ?_
  dsimp only
  split
  · exact hG.ret _
  · refine hG.bind (h.of_uses tr.guard_uses (by simp)) fun _ => hG.bind (h.fail _ _) fun _ => hG.ret _

end

/-- What `_poll_build` does. -/
theorem pollBody_uses (attempt : Nat) (taskId : Option String) :
    (pollBody S tr.buildId attempt taskId tr).Uses (Doing tr.buildId tr.owner pollKinds) :=
  pollBody_of S tr (.uses tr (by simp) (by simp) (by simp)) attempt taskId

theorem dynamicBody_uses (run : Option Uuid) : (dynamicBody S tr.buildId run tr).Uses
    (Doing tr.buildId tr.owner deliverKinds) :=
  dynamicBody_of S tr (.uses tr (by simp) (by simp) (by simp)) run

theorem failUnprepared_uses : (failUnprepared tr.buildId (some tr)).Uses
    (Doing tr.buildId tr.owner [.quiet, .guard, .fail, .alert]) :=
  failUnprepared_of tr (.uses _ _ (by simp))

/-- An operation under a lease is guarded before, and after an error. -/
theorem underLease_of {G : {α : Type} → P α → Prop} (hG : Prog.Compositional (I := api) G)
    (free : ∀ {k op}, k ∈ [Kind.quiet, .guard] → Deed tr.buildId tr.owner k op →
      G (call op)) {operation : ResourceTracker → P Unit} (h : G (operation tr)) :
    G (underLease tr.buildId operation (some tr)) := by
  have of_uses {α : Type} {p : P α} {ks : List Kind} (hp : p.Uses (Doing tr.buildId tr.owner ks))
      (hk : ks ⊆ [.quiet, .guard]) : G p :=
    hG.of_uses (fun _ ⟨_, hm, hd⟩ => free (hk hm) hd) hp
  have guard := of_uses tr.guard_uses (by simp)
  refine hG.tryCatch (hG.bind guard fun _ => h) fun e => ?_
  split
  · refine hG.bind (hG.attempt guard) fun r => ?_
    cases r with
    | error _ =>
        exact hG.bind (of_uses (BuildService.getBuild_uses _ _) (by simp)) fun _ => hG.ret _
    | ok _ => exact hG.raise _
  · exact hG.raise _

theorem underLease_uses {operation : ResourceTracker → P Unit} {ks : List Kind}
    (h : (operation tr).Uses (Doing tr.buildId tr.owner ks)) (hq : .quiet ∈ ks)
    (hg : .guard ∈ ks) :
    (underLease tr.buildId operation (some tr)).Uses (Doing tr.buildId tr.owner ks) :=
  underLease_of tr (Prog.uses_compositional (I := api) _) (fun hk hd => uses_one ⟨_, (by
    rcases List.mem_pair.mp hk with rfl | rfl
    · exact hq
    · exact hg), hd⟩) h

end

/-! ### Operations and what follows them -/

/-- A cleanup of a build tells the build its teardown. -/
theorem cleanupBuild_does (b : BuildId) :
    (cleanupBuild S b).Uses (Does DynamicCheckService.teardownKinds) :=
  .ensuring (uses_does_mono (runCleanup_does S b) (by simp))
    (uses_does_mono (uses_does (DynamicCheckService.syncTeardown_uses b none)) (by simp))

section
variable {G : {α : Type} → P α → Prop} (hG : Prog.Compositional (I := api) G)
include hG

/-- A teardown that is asked for is run, and a failed one is saved. -/
theorem teardownIfRequired_of {b : BuildId}
    (free : ∀ op, Does [.quiet] op → G (call op))
    (tear : ∀ {f : BuildFields}, f.Tearing → f.Unstaged →
      f.teardownStatus ≠ .set (some .succeeded) → G (call (.updateBuild b f)))
    (teardown : G (DynamicCheckService.teardown S b (cleanupBuild S b))) :
    G (teardownIfRequired S b) := by
  have quiet {op : Op} (h : op.quiet = true) : G (call op) := free op ⟨b, none, .of (.quiet h)⟩
  refine hG.bind (quiet rfl) fun build => ?_
  cases build with
  | none => exact hG.ret ()
  | some build =>
      dsimp only
      split
      · exact hG.ret ()
      refine hG.bind (quiet rfl) fun m => hG.bind (quiet rfl) fun now => ?_
      split
      · exact hG.ret ()
      · refine hG.tryCatch teardown fun e =>
          hG.bind (tear ?_ (by constructor <;> trivial) (by simp)) fun _ => hG.ret ()
        exact ⟨trivial, trivial, trivial, trivial, trivial, trivial, .inr ⟨_, rfl, rfl⟩⟩

/-- An operation makes up a manifest and takes its lease. -/
theorem operate_of {b : BuildId} (free : ∀ op, Does [.quiet, .legacy] op → G (call op))
    {operation : ResourceTracker → P Unit}
    (lease : G (buildLease b [.notStarted] (underLease b operation))) :
    G (operate b operation) := by
  refine hG.bind (of_doing hG free (BuildService.getBuild_uses b none) (by simp)) fun build => ?_
  split
  · exact hG.ret ()
  refine hG.bind ?_ fun _ => lease
  refine of_doing hG free (b := b) (o := none) (K := [.legacy])
    (uses_orRaise (uses_one (.of (.legacy rfl rfl ?_)))) (by simp)
  exact ⟨rfl, rfl, rfl, rfl, rfl, List.nodup_nil⟩

/-- A build that has been left is scheduled again, or fails. -/
theorem recoverOne_of (free : ∀ op, Does [.quiet, .legacy] op → G (call op))
    (lease : ∀ b, G (buildLease b [.notStarted] (failUnprepared b))) (build : BuildJob) :
    G (recoverOne S build) := by
  have quiet {op : Op} (h : op.quiet = true) : G (call op) :=
    free op ⟨build.buildId, none, .of (.quiet h)⟩
  refine hG.bind (quiet rfl) fun now => ?_
  split
  · split
    · refine hG.bind ?_ fun _ => lease _
      refine of_doing hG free (b := build.buildId) (o := none) (K := [.legacy])
        (uses_orRaise (uses_one (.of (.legacy rfl rfl ?_)))) (by simp)
      exact ⟨rfl, rfl, rfl, rfl, rfl, List.nodup_nil⟩
    · exact hG.ret ()
  refine of_doing hG free (b := build.buildId) (o := none) (K := [.quiet]) ?_ (by simp)
  have poll : Prog.Uses (I := api) (Doing build.buildId none [.quiet])
      (if build.lastPolledAt.any fun t => !ageAtLeast now t (staleAfter S) then .ret ()
        else orRaise (call (.schedulePoll build.buildId 0))) := by
    split
    · trivial
    · exact uses_orRaise (uses_one (.of (.quiet rfl)))
  split
  · exact uses_orRaise (uses_one (.of (.quiet rfl)))
  · exact uses_orRaise (uses_one (.of (.quiet rfl)))
  · exact uses_orRaise (uses_one (.of (.quiet rfl)))
  · exact poll
  · exact poll
  all_goals trivial

/-- Recovery goes through the builds that have not ended. -/
theorem recoverBuilds_of (free : ∀ op, Does [.quiet, .legacy] op → G (call op))
    (lease : ∀ b, G (buildLease b [.notStarted] (failUnprepared b))) : G (recoverBuilds S) :=
  hG.bind (free _ ⟨⟨0, 0⟩, none, .of (.quiet rfl)⟩) fun _ =>
    hG.forEach (recoverOne_of S hG free lease)

end

theorem teardownIfRequired_does (b : BuildId) :
    (teardownIfRequired S b).Uses (Does DynamicCheckService.teardownKinds) :=
  teardownIfRequired_of S (Prog.uses_compositional (I := api) _)
    (fun op h => uses_one (h.mono (by simp)))
    (fun h hs _ => uses_one ⟨b, none, .of (.tear h hs)⟩)
    (DynamicCheckService.teardown_does S b (cleanupBuild_does S b))

theorem operate_does (b : BuildId) {operation : ResourceTracker → P Unit} {ks : List Kind}
    (h : ∀ u, (operation ⟨b, some u⟩).Uses (Doing b (some u) ks)) (hq : .quiet ∈ ks)
    (hg : .guard ∈ ks) :
    (operate b operation).Uses (Does (.legacy :: .claim [.notStarted] :: .release :: ks)) := by
  refine operate_of (Prog.uses_compositional (I := api) _)
    (fun op h => uses_one (h.mono (by simp [hq]))) ?_
  refine buildLease_does (by simp [hq]) (.bind ?_ fun _ => trivial) fun u => ?_
  · exact uses_does_mono (uses_does (BuildService.getBuild_uses b none)) (by simp [hq])
  · refine uses_does_mono (uses_does (underLease_uses ⟨b, some u⟩ (h u) hq hg)) ?_
    exact fun _ hm => by simp [hm]

/-- After each operation comes the teardown that is due. -/
theorem runBuildOperation_does (b : BuildId) {operation : ResourceTracker → P Unit}
    {ks : List Kind} (h : ∀ u, (operation ⟨b, some u⟩).Uses (Doing b (some u) ks))
    (hq : .quiet ∈ ks) (hg : .guard ∈ ks) : (runBuildOperation S b operation).Uses
      (Does (.legacy :: .claim [.notStarted] :: .release :: ks ++
        DynamicCheckService.teardownKinds)) :=
  .ensuring (uses_does_mono (operate_does b h hq hg) (List.subset_append_left _ _))
    (uses_does_mono (teardownIfRequired_does S b) (List.subset_append_right _ _))

/-- Recovery fails the unprepared and schedules the others. -/
theorem recoverBuilds_does : (recoverBuilds S).Uses
    (Does [.quiet, .legacy, .claim [.notStarted], .release, .guard, .fail, .alert]) := by
  refine recoverBuilds_of S (Prog.uses_compositional (I := api) _)
    (fun op h => uses_one (h.mono (by simp))) fun b => ?_
  refine buildLease_does (by simp) (.bind ?_ fun _ => trivial) fun u => ?_
  · exact uses_does_mono (uses_does (BuildService.getBuild_uses b none)) (by simp)
  · exact uses_does_mono (uses_does (failUnprepared_uses ⟨b, some u⟩)) (by simp)

end WorkerRuntime

/-! ### Queueing -/

namespace BuildService

/-- The kinds of deeds of the preparation of a build. -/
abbrev prepareKinds : List Kind := [.quiet, .guard, .put, .plain, .ready, .fail, .alert]

/-- The snapshot is made, recorded, and the build is ready. -/
theorem prepareInputs_of {G : {α : Type} → P α → Prop} (tr : ResourceTracker)
    (h : Failing G tr.buildId tr.owner [.quiet, .guard, .plain, .ready, .fail, .alert])
    (record : ∀ r : RecordArgs, r.metadata = none → G (tr.record r)) (appid : String) :
    G (prepareInputs S appid tr.buildId (some tr)) := by
  have hG := h.compositional
  have guard := h.of_uses tr.guard_uses (by simp)
  refine hG.bind (record _ rfl) fun _ => ?_
  refine hG.bind (hG.attempt (h.request (h.quiet rfl (by simp)))) fun r => ?_
  cases r with
  | error e =>
      dsimp only
      split
      · exact hG.bind guard fun _ => hG.bind (h.fail _ _) fun _ => hG.raise _
      · exact hG.raise _
  | ok snapshot =>
      refine hG.bind guard fun _ => ?_
      refine hG.bind (h.free (k := .plain) (by simp) (by simp) (by simp)
        (.plain (by constructor <;> trivial) (by constructor <;> trivial))) fun _ => ?_
      refine hG.bind (record _ rfl) fun _ => hG.bind guard fun _ => ?_
      refine hG.bind (h.free (k := .ready) (by simp) (by simp) (by simp) .ready) fun r => ?_
      cases r with
      | none => exact hG.raise _
      | some _ => exact hG.ret _

theorem prepareInputs_uses (tr : ResourceTracker) (appid : String) :
    (prepareInputs S appid tr.buildId (some tr)).Uses
      (Doing tr.buildId tr.owner prepareKinds) :=
  prepareInputs_of S tr ((Failing.uses _ _ (by simp)).lesser (by simp))
    (fun r _ => uses_mono (tr.record_uses r) (by simp)) appid

/-- A build that cannot be scheduled fails. -/
theorem dispatchBuild_of {G : {α : Type} → P α → Prop} {b : BuildId} {o : Option Uuid}
    (h : Failing G b o [.quiet, .plain, .fail, .alert]) (appid : String) :
    G (dispatchBuild appid b) := by
  have hG := h.compositional
  refine hG.bind (hG.attempt (h.request (h.quiet rfl (by simp)))) fun r => ?_
  cases r with
  | error e => exact hG.bind (h.fail _ _) fun _ => hG.raise _
  | ok taskId =>
      refine hG.bind (h.free (k := .plain) (by simp) (by simp) (by simp)
        (.plain (by constructor <;> trivial) (by constructor <;> trivial))) fun r => ?_
      cases r with
      | none => exact hG.raise _
      | some _ => exact h.of_uses (recordEvent_uses _ _ _ _ _ _ _) (by simp)

/-- The kinds of deeds of `queue_build`. -/
abbrev queueKinds : List Kind :=
  .create :: .insert :: .claim [.notStarted] :: .release :: prepareKinds

/-- A build is made, prepared under its lease, and scheduled. -/
theorem queueBuild_of {G : {α : Type} → P α → Prop} (hG : Prog.Compositional (I := api) G)
    (free : ∀ op, Does [.quiet, .insert, .plain] op → G (call op))
    (create : ∀ {job : BuildId → DateTime → BuildJob} {k : BuildId → P Unit},
      (∀ b now, (job b now).buildId = b ∧ (job b now).New) → (∀ b, G (k b)) →
      G (Prog.bind (call .uuid4) fun b => Prog.bind (call .utcNow) fun now =>
        Prog.bind (call (.createBuild (job b now))) fun _ => k b))
    (fail : ∀ b message site, G (fail b message site))
    (lease : ∀ appid b, G (buildLease b [.notStarted] (prepareInputs S appid b)))
    (appid : String) (gitRef : Option String) : G (queueBuild S appid gitRef) := by
  have b₀ : BuildId := ⟨0, 0⟩
  refine hG.bind (free _ ⟨b₀, none, .of (.quiet rfl)⟩) fun app => ?_
  cases app with
  | none => exact hG.raise _
  | some app =>
      dsimp only
      split
      · exact hG.raise _
      split
      · exact hG.raise _
      split
      · exact hG.raise _
      refine hG.bind (hG.tryCatch ?_ fun e => ?_) fun x => ?_
      · refine hG.bind (of_doing hG free (RouteCheckService.resolveCommit_uses S b₀ none app _)
          (by simp)) fun commit => ?_
        exact hG.bind (of_doing hG free (RouteCheckService.requireStaticPass_uses b₀ none app
          commit none) (by simp)) fun _ => hG.ret _
      · split <;> exact hG.raise _
      obtain ⟨commit, checked⟩ := x
      refine hG.bind (of_doing hG free (AgentRoleService.get_uses b₀ none _) (by simp))
        fun role => ?_
      refine create (fun b now => ⟨rfl, rfl, rfl, rfl, rfl, rfl, rfl⟩) fun b => ?_
      refine hG.bind (of_doing hG free (b := b) (o := none) (K := [.insert])
        (uses_orRaise (uses_one (.of (.insert rfl rfl ?_)))) (by simp)) fun _ => ?_
      · exact ⟨rfl, rfl, rfl, rfl, rfl, List.nodup_nil⟩
      refine hG.bind (lease appid b) fun _ => ?_
      refine hG.bind (of_doing hG free (recordEvent_uses _ _ _ _ _ b none) (by simp)) fun _ => ?_
      refine dispatchBuild_of (b := b) (o := none) ⟨hG, fun hm hf ha hd => ?_, fail b⟩ appid
      refine free _ ⟨b, none, ⟨_, ?_, hd⟩⟩
      simp only [List.mem_cons, List.not_mem_nil, or_false] at hm ⊢
      tauto

/-- What `queue_build` does. -/
theorem queueBuild_does (appid : String) (gitRef : Option String) :
    (queueBuild S appid gitRef).Uses (Does queueKinds) := by
  refine queueBuild_of S (Prog.uses_compositional (I := api) _)
    (fun op h => uses_one (h.mono (by simp)))
    (fun hj hk => .call ⟨⟨0, 0⟩, none, .of (.quiet rfl)⟩ fun b _ =>
      .call ⟨b, none, .of (.quiet rfl)⟩ fun now _ =>
        .call ⟨b, none, .of (.create (hj b now).1 (hj b now).2)⟩ fun _ _ => hk b)
    (fun b message site => uses_does_mono (uses_does (fail_uses b none message site)) (by simp))
    (fun appid b => ?_) appid gitRef
  refine buildLease_does (by simp) trivial fun u => ?_
  exact uses_does_mono (uses_does (prepareInputs_uses S ⟨b, some u⟩ appid)) (by simp)

end BuildService

end Orchestrator
