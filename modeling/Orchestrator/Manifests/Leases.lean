import Orchestrator.Manifests.Removal

/-!
# Manifests — every task, carried out

* `registered_carried`: images are recorded with the digests that were checked, or not at all.
* `buildLease_carried`: a lease whose body maintains what is known under it comes back idle.
* `tasking_carried`, `body_carried`: so does every task.
* `Watched.run`: along every run, the invariant of the watch holds.
-/

namespace Orchestrator
open Interleaving

section
variable {Z : SiteSettings} {b b' : BuildId} {u : Uuid} {ls : List CleanupStatus} {α : Type}

/-! ### The registration of images -/

/-- The images of an artifact that has passed its checks have digests. -/
theorem checkIsolatedArtifact_digests (S : Settings) (tr : ResourceTracker) (build : BuildJob)
    (source deployment : Compose) (artifact : JenkinsResultArtifact) :
    (WorkerRuntime.checkIsolatedArtifact S build source deployment artifact tr).Yields fun _ =>
      ∀ r ∈ artifact.images, falsy (artifact.imageDigests.lookup r) = false := by
  refine .after fun commit => .after fun build => .after fun repository => ?_
  refine Prog.Yields.bind (Q := fun _ => ∀ r ∈ artifact.images,
    falsy (artifact.imageDigests.lookup r) = false) ?_ fun _ h => h
  refine Prog.yields_ofExcept (I := api) fun _ hchecked => ?_
  unfold WorkerRuntime.checkArtifactImages at hchecked
  split at hchecked
  · cases hchecked
  split at hchecked
  · cases hchecked
  split at hchecked
  · cases hchecked
  next hdigests =>
  intro r hr
  have hdigest : (artifact.imageDigests.lookup r).any WorkerRuntime.isDigest = true := by
    by_contra h
    exact hdigests (List.any_eq_true.mpr ⟨r, hr, by rwa [Bool.not_eq_true', ← Bool.not_eq_true]⟩)
  generalize artifact.imageDigests.lookup r = digest at hdigest ⊢
  cases digest with
  | none => cases hdigest
  | some text =>
      rw [falsy, beq_eq_false_iff_ne]
      rintro rfl
      exact absurd hdigest (by decide)

/-- The images are recorded in the name of the session, with digests where the session is about
`b`. -/
theorem registerImage_carried {build : BuildJob} {artifact : JenkinsResultArtifact}
    {reference : String} (h : b' = b → falsy (artifact.imageDigests.lookup reference) = false) :
    Carried Z b (Vigil.Tends b b' u ls [])
      (WorkerRuntime.registerImage build artifact (tracker b' u) reference) := by
  have hG := carried_compositional Z b (Vigil.Tends b b' u ls [])
  have save : Carried Z b (Vigil.Tends b b' u ls []) (call (.saveUserImage
      ⟨build.appid, build.buildId, reference⟩)) :=
    carried_uses (K := [.quiet]) (uses_one (.of (.quiet rfl))) (by simp [Kind.steady, Kind.leased])
  refine hG.bind (carried_uses (K := [.quiet]) (WorkerRuntime.isolated_uses _ _ build)
    (by simp [Kind.steady, Kind.leased])) fun isolated => ?_
  split
  · refine hG.bind (record_maintains (carry_direct Z) fun e _ _ => h e) fun _ => save
  · exact save

/-- On a build that is not isolated, nothing is recorded. -/
theorem registerImage_legacy {build : BuildJob} (hb : build.buildId = b)
    (artifact : JenkinsResultArtifact) (reference : String) :
    Carried Z b (fun v => v.Tends b b u ls [] ∧ v.version ≠ 1)
      (WorkerRuntime.registerImage build artifact (tracker b u) reference) := by
  rintro v ⟨hv, hversion⟩
  unfold WorkerRuntime.registerImage WorkerRuntime.isolated
  rw [Prog.bind_eq, Prog.bind_eq, Prog.bind_assoc, Prog.interpret_send, hb]
  refine ⟨⟨trivial, trivial⟩, ?_⟩
  rintro r _ - ⟨hg, rfl⟩
  refine ⟨trivial, ?_⟩
  have hstable : Vigil.Stable fun v => v.Tends b b u ls [] ∧ v.version ≠ 1 :=
    fun v v' h hgrow => ⟨Vigil.tends_stable v v' h.1 hgrow, hgrow.version ▸ h.2⟩
  have hlegacy : r.any (·.ownershipVersion == 1) = false := by
    cases r with
    | none => rfl
    | some m =>
        rw [Option.any_some, ((hv.read hg).2 rfl).1]
        exact beq_eq_false_iff_ne.mpr hversion
  have save : Deed b (some u) .quiet (.saveUserImage ⟨build.appid, b, reference⟩) := .quiet rfl
  simp only [Prog.pure_eq, Prog.ret_bind, hlegacy]
  exact save.carried rfl hstable (fun e _ _ hv => hv.1.session e) _
    (hstable v _ ⟨hv, hversion⟩ (Vigil.grows_of rfl (by simp) (by simp)))

/-- **Registration.**  A build that is isolated is recorded with the digests that were checked; one
that is not stays so under the lease, and nothing is recorded. -/
theorem registered_carried (S : Settings) {build : BuildJob} (hb : build.buildId = b')
    (source compose : Compose) (artifact : JenkinsResultArtifact) :
    Carried Z b (Vigil.Tends b b' u ls [])
      (WorkerRuntime.registered S build source compose artifact (tracker b' u)) := by
  have hG := carried_compositional Z b (Vigil.Tends b b' u ls [])
  by_cases e : b' = b
  · intro v hv
    unfold WorkerRuntime.registered WorkerRuntime.isolated
    rw [Prog.bind_eq, Prog.bind_eq, Prog.bind_assoc, Prog.interpret_send]
    refine ⟨⟨trivial, trivial⟩, ?_⟩
    rintro r _ - ⟨hg, rfl⟩
    refine ⟨trivial, ?_⟩
    simp only [Prog.pure_eq, Prog.ret_bind]
    have hv' := Vigil.tends_stable v (v.observe b (.repo (.getBuildResources build.buildId)) r) hv
      (Vigil.grows_of rfl (by simp) (by simp))
    by_cases hiso : r.any (·.ownershipVersion == 1) = true
    · rw [hiso]
      refine (hG.bind_of (Q := fun _ => ∀ r ∈ artifact.images,
        falsy (artifact.imageDigests.lookup r) = false) ?_ ?_ fun build' hd => ?_) _ hv'
      · exact carried_uses (WorkerRuntime.checkIsolatedArtifact_uses S (tracker b' u) hb source
          compose artifact) (by simp [Kind.steady, Kind.leased])
      · exact checkIsolatedArtifact_digests S _ build source compose artifact
      · exact hG.bind (hG.forEach_mem fun r hr => registerImage_carried fun _ => hd r hr)
          fun _ => hG.ret _
    · rw [Bool.not_eq_true] at hiso
      subst e
      have hversion : (v.observe b' (.repo (.getBuildResources build.buildId)) r).version ≠ 1 := by
        obtain ⟨m, rfl, hm, -⟩ := hg hb (by rw [hv.lease, if_pos rfl]; simp)
        change v.version ≠ 1
        rw [← hm]
        simpa using hiso
      have hL := carried_compositional Z b' fun v => v.Tends b' b' u ls [] ∧ v.version ≠ 1
      rw [hiso]
      refine (hL.bind (hL.forEach fun reference => registerImage_legacy hb artifact reference)
        (fun _ => hL.ret build) _ ⟨hv', hversion⟩).mono fun _ _ h => h.1
  · refine hG.bind (carried_uses (K := [.quiet]) (WorkerRuntime.isolated_uses _ _ build)
      (by simp [Kind.steady, Kind.leased])) fun isolated => ?_
    refine hG.bind ?_ fun build' => ?_
    · split
      · exact carried_uses (WorkerRuntime.checkIsolatedArtifact_uses S (tracker b' u) hb source
          compose artifact) (by simp [Kind.steady, Kind.leased])
      · exact hG.ret _
    · exact hG.bind (hG.forEach fun r => registerImage_carried fun h => absurd h e) fun _ => hG.ret _

/-! ### Leases -/

/-- **A lease** whose body maintains what is known under it comes back idle. -/
theorem buildLease_carried {body : Option ResourceTracker → P α}
    (hnone : Carried Z b Vigil.Idle (body none))
    (hsome : ∀ u, Carried Z b (Vigil.Tends b b' u ls []) (body (some (tracker b' u)))) :
    Carried Z b Vigil.Idle (buildLease b' ls body) := by
  intro v hv
  refine ⟨⟨trivial, trivial⟩, ?_⟩
  rintro u _ - ⟨-, rfl⟩
  refine ⟨trivial, ⟨trivial, trivial⟩, ?_⟩
  rintro now _ - ⟨-, rfl⟩
  refine ⟨trivial, ⟨fun _ => ⟨rfl, hv⟩, trivial⟩, ?_⟩
  rintro r _ - ⟨-, rfl⟩
  refine ⟨trivial, ?_⟩
  cases r with
  | none => exact hnone _ (by simpa [Vigil.Idle, Vigil.observe, Session.observe] using hv)
  | some m =>
      change (Prog.interpret (I := api) (J := hostApi) id (carry Z)
        ((body (some (tracker b' u))).ensuring (call (.releaseBuildLease b' u)))).Safe _ _ _
      rw [Prog.ensuring, Prog.interpret_bind,
        Prog.interpret_attempt (I := api) (J := hostApi) (e := id) (g := id) (H := carry Z)
          (fun _ => rfl) (carry_total Z), Prog.bind_assoc, Prog.safe_bind, Prog.safe_attempt]
      refine (hsome u _ ?_).mono fun r w hw => ?_
      · refine ⟨by simp [Vigil.observe, Op.granted], ?_, fun _ => ⟨List.nodup_nil, by simp⟩⟩
        by_cases e : b' = b
        · simp [Vigil.observe, Session.observe, e]
        · simpa [Vigil.observe, Session.observe, e] using show v.session.lease = none from hv
      -- However the body ends, the lease is given back.
      · refine ⟨⟨fun e => hw.session e, trivial⟩, ?_⟩
        rintro x _ - ⟨-, rfl⟩
        refine ⟨trivial, ?_⟩
        have hidle : (w.observe b (.repo (.releaseBuildLease b' u)) x).Idle := by
          have hlease := hw.lease
          by_cases e : b' = b
          · simp [Vigil.Idle, Vigil.observe, Session.observe, e]
          · simpa [Vigil.Idle, Vigil.observe, Session.observe, e] using hlease
        cases r with
        | error e => exact hidle
        | ok a => exact hidle

/-! ### Tasks -/

theorem Kind.steady_of_unleased {k : Kind} (h : k ∈ unleasedKinds) : k.steady = true := by
  revert h
  cases k <;> simp [Kind.steady, Kind.leased]

/-- Between leases, what needs none. -/
theorem idle_does {K : List Kind} (hk : K ⊆ unleasedKinds) {op : Op} (h : Does K op) :
    Carried Z b Vigil.Idle (call op) := by
  obtain ⟨b', o, k, hm, hd⟩ := h
  exact hd.carried (Kind.steady_of_unleased (hk hm)) Vigil.idle_stable
    fun _ hn => absurd (hk hm) hn

theorem idle_uses {p : P α} {o : Option Uuid} {K : List Kind} (hp : p.Uses (Doing b' o K))
    (hk : K ⊆ unleasedKinds) : Carried Z b Vigil.Idle p :=
  of_doing (carried_compositional Z b Vigil.Idle) (fun _ h => idle_does (fun _ h => h) h) hp hk

/-- A body that writes no entry. -/
theorem lease_uses {body : Option ResourceTracker → P α} {K : List Kind}
    (hnone : Carried Z b Vigil.Idle (body none))
    (hsome : ∀ u, (body (some (tracker b' u))).Uses (Doing b' (some u) K))
    (hk : ∀ k ∈ K, k.steady = true) : Carried Z b Vigil.Idle (buildLease b' ls body) :=
  buildLease_carried hnone fun u => carried_uses (hsome u) hk

theorem failing_carried {K : List Kind} (hk : ∀ k ∈ K, k.steady = true) :
    Failing (fun {_} p => Carried Z b (Vigil.Tends b b' u ls []) p) b' (some u) K where
  compositional := carried_compositional Z b _
  free hm _ _ h := h.carried (hk _ hm) Vigil.tends_stable fun e _ _ hv => hv.session e
  fail message site := carried_uses (BuildService.fail_uses b' (some u) message site)
    (by simp [Kind.steady, Kind.leased])

/-- The pieces of a delivery. -/
theorem delivering_carried {K : List Kind}
    (hk : ∀ k ∈ K, k ≠ .put → k ≠ .deployBuild → k.steady = true) :
    WorkerRuntime.Delivering Z.services (fun {_} p => Carried Z b (Vigil.Tends b b' u ls []) p)
      (tracker b' u) K where
  compositional := carried_compositional Z b _
  free hm _ _ _ hp hd h := h.carried (hk _ hm hp hd) Vigil.tends_stable
    fun e _ _ hv => hv.session e
  fail message site := (failing_carried (K := []) (by simp)).fail message site
  execute := by
    have hfail : Failing (fun {_} p => Carried Z b (Vigil.Tends b b' u ls []) p)
        (tracker b' u).buildId (tracker b' u).owner checkKinds :=
      failing_carried (by simp [Kind.steady, Kind.leased])
    exact (hfail.checking (List.Subset.refl checkKinds)).execute Z.services
  failDelivery e fallback := by
    have hfail : Failing (fun {_} p => Carried Z b (Vigil.Tends b b' u ls []) p)
        (tracker b' u).buildId (tracker b' u).owner WorkerRuntime.failKinds :=
      failing_carried (by simp [Kind.steady, Kind.leased])
    exact WorkerRuntime.failDelivery_of Z.services hfail e fallback
  record _ _ hr := record_carried (digested_of_none hr)
  registered _ _ hb source compose artifact := registered_carried _ hb source compose artifact
  deployBuild _ appid _ := deployBuild_carried (fun _ hv => hv.owner)
    (DockerSwarmAdapter.deployBuild_of observing_tends _ appid _)

theorem request_carried (b' : BuildId) (dispatch : Bool) :
    Carried Z b Vigil.Idle (requestCleanup Z.services b' dispatch) := by
  have hG := carried_compositional Z b Vigil.Idle
  refine requestCleanup_of Z.services hG (fun op h => idle_does (by simp) h) (hG.bind ?_ fun _ => ?_)
    dispatch
  · exact idle_uses (assertQuiescent_uses b' none) (by simp)
  refine lease_uses ?_ (fun u => acceptCleanup_uses Z.services (tracker b' u))
    (by simp [Kind.steady, Kind.leased])
  refine hG.bind (idle_uses (manifest_uses Z.services b' none) (by simp)) fun m => ?_
  cases m.cleanupStatus <;> first | exact hG.ret _ | exact hG.raise _

theorem teardown_carried (b' : BuildId) {cleanup : P Unit} (hc : Carried Z b Vigil.Idle cleanup) :
    Carried Z b Vigil.Idle (DynamicCheckService.teardown Z.services b' cleanup) :=
  DynamicCheckService.teardown_of Z.services (carried_compositional Z b Vigil.Idle)
    (fun _ h => idle_does (by simp) h)
    (fun h hs _ => idle_does (K := [.tear]) (by simp) ⟨b', none, .of (.tear h hs)⟩)
    (idle_uses (DynamicCheckService.syncTeardown_uses b' none) (by simp))
    (request_carried b' false) hc

theorem queue_carried (appid : String) (gitRef : Option String) :
    Carried Z b Vigil.Idle (BuildService.queueBuild Z.services appid gitRef) := by
  have hG := carried_compositional Z b Vigil.Idle
  have free {K : List Kind} (hk : K ⊆ unleasedKinds) {op : Op} (h : Does K op) :
      Carried Z b Vigil.Idle (call op) := idle_does hk h
  refine BuildService.queueBuild_of Z.services hG (fun _ h => free (by simp) h) (fun hj hk => ?_)
    (fun b' message site => idle_uses (BuildService.fail_uses b' none message site) (by simp))
    (fun appid b' => buildLease_carried (hG.raise _) fun u => ?_) appid gitRef
  · refine hG.bind (free (K := [.quiet]) (by simp) ⟨⟨0, 0⟩, none, .of (.quiet rfl)⟩) fun b' => ?_
    refine hG.bind (free (K := [.quiet]) (by simp) ⟨b', none, .of (.quiet rfl)⟩) fun now => ?_
    refine hG.bind (free (K := [.create]) (by simp)
      ⟨b', none, .of (.create (hj b' now).1 (hj b' now).2)⟩) fun _ => hk b'
  · exact BuildService.prepareInputs_of Z.services (tracker b' u)
      (failing_carried (by simp [Kind.steady, Kind.leased]))
      (fun r hr => record_carried (digested_of_none hr)) appid

theorem operation_carried {operation : ResourceTracker → P Unit}
    (h : ∀ u, Carried Z b (Vigil.Tends b b' u [.notStarted] []) (operation (tracker b' u))) :
    Carried Z b Vigil.Idle
      (buildLease b' [.notStarted] (WorkerRuntime.underLease b' operation)) := by
  refine buildLease_carried ?_ fun u => ?_
  · exact (carried_compositional Z b Vigil.Idle).bind
      (idle_uses (BuildService.getBuild_uses b' none) (by simp)) fun _ =>
        (carried_compositional Z b Vigil.Idle).ret _
  · refine WorkerRuntime.underLease_of (tracker b' u) (carried_compositional Z b _)
      (fun hk hd => hd.carried ?_ Vigil.tends_stable fun e _ _ hv => hv.session e) (h u)
    rcases List.mem_pair.mp hk with rfl | rfl <;> rfl

/-- **Tasks.**  Carried out, every task keeps what is known, and comes back idle. -/
theorem tasking_carried (Z : SiteSettings) (b : BuildId) :
    Tasking Z.services (fun {_} p => Carried Z b Vigil.Idle p) := by
  have hG := carried_compositional Z b Vigil.Idle
  exact
    { compositional := hG
      free := fun op h => idle_does (by simp) h
      createOrReuse := fun app commit force => idle_uses
        (RouteCheckService.createOrReuse_uses ⟨0, 0⟩ none app commit force) (by simp)
      queue := queue_carried
      request := request_carried
      sync := fun b' => idle_uses (DynamicCheckService.syncTeardown_uses b' none) (by simp)
      teardown := fun b' _ hc => teardown_carried b' hc
      teardownIfRequired := fun b' hc => WorkerRuntime.teardownIfRequired_of Z.services hG
        (fun _ h => idle_does (by simp) h)
        (fun h hs _ => idle_does (K := [.tear]) (by simp) ⟨b', none, .of (.tear h hs)⟩)
        (teardown_carried b' hc)
      reopen := fun b' => lease_uses (hG.raise _)
        (fun u => DynamicCheckService.reopen_uses (tracker b' u)) (by simp [Kind.steady, Kind.leased])
      run := fun b' m hm => buildLease_carried
        (hG.bind (idle_uses (manifest_uses Z.services b' none) (by simp)) fun _ => hG.ret _)
        fun u => cleanupUnderLease_carried Z.services hm
      recordFailure := fun b' => lease_uses (hG.ret _)
        (fun u => DynamicCheckService.recordFailure_uses (tracker b' u))
        (by simp [Kind.steady, Kind.leased])
      failUnprepared := fun b' => lease_uses
        (hG.bind (idle_uses (BuildService.getBuild_uses b' none) (by simp)) fun _ => hG.ret _)
        (fun u => WorkerRuntime.failUnprepared_uses (tracker b' u))
        (by simp [Kind.steady, Kind.leased])
      start := fun b' taskId => operation_carried fun u => WorkerRuntime.startBody_of Z.services
        (tracker b' u) (delivering_carried (by simp [Kind.steady, Kind.leased])) taskId
      poll := fun b' attempt taskId => operation_carried fun u =>
        WorkerRuntime.pollBody_of Z.services (tracker b' u)
          (delivering_carried (by simp [Kind.steady, Kind.leased])) attempt taskId
      dynamic := fun b' run => operation_carried fun u => WorkerRuntime.dynamicBody_of Z.services
        (tracker b' u) (delivering_carried (by simp [Kind.steady, Kind.leased])) run }

end

/-! ### Runs -/

section
variable {Z : SiteSettings} {b : BuildId}
  {ok : Config (site Z) → Move (site Z) → Prop} {c c' : Config (site Z)}

theorem reliable (Z : SiteSettings) (b : BuildId) :
    Reliable (K := site Z) (M := watching b) (Vigil.Grants b) (Watched (Z := Z) b) where
  tasks T := ((tasking_carried Z b).body T {} rfl).mono fun _ _ _ => trivial
  grants _ h _ he := h.grants he
  call _ h ha he := h.call ha he
  start t T h := h.start t T
  env h hx := h.env hx

/-- **Runs.**  The invariant holds along every run, and every thread makes allowed calls only. -/
theorem Watched.run (hc : SiteBoot c) (hr : Run ok c c') (b : BuildId) :
    Relied (M := watching b) (Vigil.Grants b) (Watched (Z := Z) b) c' :=
  hr.relied (reliable Z b) hc.good (.boot hc.threads hc.log (.boot hc))

end

end Orchestrator
