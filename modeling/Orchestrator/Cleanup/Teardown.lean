import Orchestrator.Cleanup.Gate
import Orchestrator.Lifecycle.Stages
import Orchestrator.Stores.Latest

/-!
# Cleanup — the bookkeeping of a teardown

`teardown_required` and `teardown_status` of a build, and the status of its manifest, are written
by six functions, without a compare-and-set and partly outside any lease.

* `BuildFields.Tears f`: what a write does to the two fields of the build.
* `Tearable b`: a write that a teardown is running finds it required.
* `sighting b`: that a teardown has succeeded is written by those who have seen the manifest
  `SUCCEEDED`, and it stays so.
* `teardown_coherent`: a teardown is required exactly while it is unfinished, in the runs all of
  whose steps are `Tearable`, and in no others; a succeeded teardown has a succeeded cleanup, in
  every run.
-/

namespace Orchestrator
open Interleaving

/-! ### The two fields of the build -/

/-- A teardown has been asked for, and has not succeeded. -/
def BuildJob.Unfinished (j : BuildJob) : Prop :=
  j.teardownStatus = some .pending ∨ j.teardownStatus = some .running ∨
    j.teardownStatus = some .partialFailed

/-- The teardown is required exactly while it is unfinished. -/
def BuildJob.Coherent (j : BuildJob) : Prop := j.teardownRequired = true ↔ j.Unfinished

/-- What a write does to the teardown: nothing, or it says that it runs, or it sets the status and
what that asks for. -/
inductive BuildFields.Tears (f : BuildFields) : Prop where
  | keep (hr : f.teardownRequired = .keep) (hs : f.teardownStatus = .keep)
  | running (hr : f.teardownRequired = .keep) (hs : f.teardownStatus = .set (some .running))
  | set (s : TeardownStatus) (hr : f.teardownRequired = .set (s ≠ .succeeded))
      (hs : f.teardownStatus = .set (some s))

/-- A write that the teardown of `b` is running finds it required. -/
def Tearable {S : Settings} (b : BuildId) (w : World) (_ : List (Event (orchestrator S)))
    (_ : Nat) : Op → Prop
  | .updateBuild b' f => b' = b → f.teardownStatus = .set (some .running) →
      f.teardownRequired = .keep → ∀ j, w.repo.builds.lookup b = some j →
        j.teardownRequired = true
  | _ => True

section
variable {j : BuildJob} {f : BuildFields}

theorem BuildFields.Plain.tears (h : f.Plain) : f.Tears := by
  have untouched {α : Type} {c : Change α} (hc : c.Untouched) : c = .keep := by
    cases c with
    | keep => rfl
    | set a => exact hc.elim
  exact .keep (untouched h.teardownRequired) (untouched h.teardownStatus)

/-- Every write of a build that is a deed does one of the three. -/
theorem Does.tears {ks : List Kind} {b : BuildId} (h : Does ks (.updateBuild b f)) : f.Tears := by
  obtain ⟨b', o, k, -, hd⟩ := h
  cases hd with
  | quiet hq => cases hq
  | plain hf _ => exact hf.tears
  | dynamic hf _ =>
      rcases hf.teardown with ⟨hr, hs⟩ | ⟨hr, hs⟩
      · exact .keep hr hs
      · exact .set .pending hr hs
  | tear hf _ =>
      rcases hf.teardown with ⟨hs, hr⟩ | ⟨s, hs, hr⟩
      · exact .running hr hs
      · exact .set s hr hs
  | _ => exact .keep rfl rfl

theorem BuildJob.Coherent.of_new (h : j.New) : j.Coherent := by
  simp [Coherent, Unfinished, h.teardownRequired, h.teardownStatus]

/-- A write that keeps both fields keeps the law. -/
theorem BuildJob.Coherent.congr {j' : BuildJob} (h : j.Coherent)
    (hr : j'.teardownRequired = j.teardownRequired)
    (hs : j'.teardownStatus = j.teardownStatus) : j'.Coherent := by
  rw [Coherent, Unfinished, hr, hs]
  exact h

/-- The law after a write: nothing is said, both fields are set, or the teardown runs, and then
it has to be required. -/
theorem BuildJob.Coherent.write (h : j.Coherent) (hf : f.Tears)
    (hrun : f.teardownStatus = .set (some .running) → f.teardownRequired = .keep →
      j.teardownRequired = true) : (j.modelCopy f).Coherent := by
  cases hf with
  | keep hr hs => exact h.congr (by simp [hr]) (by simp [hs])
  | running hr hs => simp [Coherent, Unfinished, hr, hs, hrun hs hr]
  | set s hr hs => cases s <;> simp [Coherent, Unfinished, hr, hs]

/-- Without that, the law fails. -/
theorem BuildJob.not_coherent_running (hr : f.teardownRequired = .keep)
    (hs : f.teardownStatus = .set (some .running)) (hj : j.teardownRequired = false) :
    ¬ (j.modelCopy f).Coherent := by
  simp [Coherent, Unfinished, hr, hs, hj]

/-- An unfinished teardown is found by `list_pending_dynamic_builds`. -/
theorem BuildJob.Coherent.listed (h : j.Coherent) (hu : j.Unfinished) {s : Repository}
    {b : BuildId} (hj : s.builds.lookup b = some j) :
    j ∈ InMemoryRepository.listPendingDynamicBuilds s := by
  refine List.mem_filter.mpr ⟨Stores.mem_entries_iff.mpr ⟨b, hj⟩, ?_⟩
  simp [h.mpr hu]

end

section
variable {S : Settings} {b : BuildId} {c₀ c c' : Config (orchestrator S)}
  {ok : Config (orchestrator S) → Move (orchestrator S) → Prop} {m : Move (orchestrator S)}

/-- **One step.**  A step that is `Tearable` keeps the law. -/
theorem step_coherent (hc : Boot c₀) (hr : Run ok c₀ c) (hs : Machine.step c m = some c')
    (hm : Calling (Tearable b) c m)
    (h : ∀ j, c.world.repo.builds.lookup b = some j → j.Coherent) :
    ∀ j, c'.world.repo.builds.lookup b = some j → j.Coherent := by
  rcases step_build hc hr hs b with ⟨t, a, op, k, T, rfl, hk, -, hdoes, -, r, hd⟩ | ⟨-, he⟩
  · have hop := hm op k hk
    generalize hold : c.world.repo.builds.lookup b = old at hd h
    generalize c'.world.repo.builds.lookup b = new at hd
    cases hd with
    | same _ => exact h
    | created _ hn => rintro _ ⟨⟩; exact .of_new hn
    | @updated j f _ =>
        rintro _ ⟨⟩
        exact (h j rfl).write hdoes.tears fun hs hr => hop rfl hs hr j hold
    | @moved j _ f _ hf =>
        rintro _ ⟨⟩
        exact (h j rfl).congr (hf.teardownRequired.apply _) (hf.teardownStatus.apply _)
    | rechecked run role _ => rintro _ ⟨⟩; exact (h _ rfl).congr rfl rfl
  · rw [he]; exact h

theorem run_coherent (hc : Boot c₀) (hr : Run (Calling (Tearable b)) c₀ c) :
    ∀ j, c.world.repo.builds.lookup b = some j → j.Coherent := by
  induction hr with
  | refl => simp [hc.repo.builds]
  | snoc hr hm hs ih => exact step_coherent hc hr hs hm ih

/-- **The condition is exact.**  After a step that is not `Tearable`, the law fails. -/
theorem step_not_coherent (hs : Machine.step c m = some c') (hm : ¬ Calling (Tearable b) c m) :
    ∃ j, c'.world.repo.builds.lookup b = some j ∧ ¬ j.Coherent := by
  cases m with
  | start t T => exact absurd trivial hm
  | env x => exact absurd trivial hm
  | run t a =>
      simp only [Calling, not_forall] at hm
      obtain ⟨op, k, hk, hop⟩ := hm
      cases op <;> try exact absurd trivial hop
      next b' f =>
      simp only [Tearable, not_forall] at hop
      obtain ⟨rfl, hst, hreq, j, hj, hfalse⟩ := hop
      rcases Machine.step_cases hs with ⟨t', a', op, k', r, w, hmv, hk', he, rfl⟩ |
          ⟨_, _, ⟨⟩, -⟩ | ⟨_, _, ⟨⟩, -⟩
      cases hmv
      cases hk.symm.trans hk'
      rcases InMemoryRepository.updateBuild_cases (World.reply_eq he).1 with
          ⟨-, -, hnone⟩ | ⟨x, hx, -, hw⟩
      · cases hj.symm.trans hnone
      · cases hj.symm.trans hx
        refine ⟨_, ?_, BuildJob.not_coherent_running hreq hst (by simpa using hfalse)⟩
        rw [hw, AList.lookup_insert]

end

/-! ### A succeeded teardown -/

/-- The manifest of `b` is `SUCCEEDED`. -/
def Done (b : BuildId) (w : World) : Prop :=
  ∃ m, w.repo.buildResources.lookup b = some m ∧ m.cleanupStatus = .succeeded

/-- Whether a thread has seen the manifest of `b` `SUCCEEDED`; that is what it takes to write that
the teardown has. -/
abbrev sighting (b : BuildId) : Monitor api where
  View := Bool
  init := false
  allows seen op := match op with
    | .updateBuild b' f => b' = b → f.teardownStatus = .set (some .succeeded) → seen = true
    | _ => True
  observe seen op r := match op, r with
    | .getBuildResources b', m => seen || (b' == b && m.any (·.cleanupStatus == .succeeded))
    | _, _ => seen

section
variable {S : Settings} {b : BuildId}

/-- Every write but those of the teardown is allowed to everyone. -/
theorem Deed.sighted {b' : BuildId} {o : Option Uuid} {k : Kind} {op : Op}
    (hd : Deed b' o k op) (hk : k ≠ .tear) (seen : Bool) : (sighting b).allows seen op := by
  cases hd with
  | quiet hq => cases op <;> first | exact trivial | cases hq
  | plain hf _ =>
      intro _ hs
      have := hf.teardownStatus
      rw [hs] at this
      exact this.elim
  | dynamic hf _ =>
      intro _ hs
      rcases hf.teardown with ⟨-, h⟩ | ⟨-, h⟩ <;> cases hs.symm.trans h
  | tear => exact absurd rfl hk
  | ready | commit | queueUrl | serviceIds => intro _ hs; cases hs
  | _ => trivial

theorem keeps_calm {α : Type} {p : P α} {k : List Kind} (hp : p.Uses (Does k))
    (hk : .tear ∉ k) : p.Keeps (sighting b) fun _ => True :=
  hp.keeps fun seen _ _ ⟨_, _, _, hm, hd⟩ =>
    ⟨hd.sighted (fun e => hk (e ▸ hm)) seen, fun _ _ => trivial⟩

theorem keeps_lease {α : Type} {b' : BuildId} {l : List CleanupStatus}
    {body : Option ResourceTracker → P α} {k k' : List Kind}
    (hnone : (body none).Uses (Does k)) (hsome : ∀ u, (body (some ⟨b', some u⟩)).Uses (Does k'))
    (hk : .tear ∉ k ++ k') : (buildLease b' l body).Keeps (sighting b) fun _ => True := by
  refine keeps_calm (k := [.quiet, .claim l, .release] ++ (k ++ k'))
    (buildLease_does (by simp) ?_ fun u => ?_) (by simpa using hk)
  · exact uses_does_mono hnone fun _ hm => by simp [hm]
  · exact uses_does_mono (hsome u) fun _ hm => by simp [hm]

/-- `sync_teardown` writes what it has seen. -/
theorem syncTeardown_sights (b' : BuildId) :
    (DynamicCheckService.syncTeardown b').Keeps (sighting b) fun _ => True := by
  intro seen _
  rw [DynamicCheckService.syncTeardown, Prog.bind_eq, Prog.obeys_bind]
  refine (keeps_calm (uses_does (BuildService.getBuild_uses b' none)) (by simp) seen trivial).mono
    fun r seen _ => ?_
  cases r with
  | error e => trivial
  | ok build =>
      dsimp only
      rw [Prog.bind_eq, Prog.obeys_bind]
      refine ⟨trivial, fun m _ => ?_⟩
      rw [Prog.obeys_ret]
      dsimp only
      split
      · trivial
      · refine ⟨fun hb hs => ?_, fun _ _ => trivial⟩
        have hm : DynamicCheckService.teardownStatusOf m = .succeeded := by simpa using hs
        cases m with
        | none => cases hm
        | some m =>
            have hst : m.cleanupStatus = .succeeded := by
              cases hc : m.cleanupStatus <;> simp [DynamicCheckService.teardownStatusOf, hc] at hm
              rfl
            simp [hb, hst]

/-- **Sightings.**  Every task keeps to it. -/
theorem sighting_tasking : Tasking S (fun {_} p => p.Keeps (sighting b) fun _ => True) := by
  have tear {b' : BuildId} {f : BuildFields} (hs : f.teardownStatus ≠ .set (some .succeeded)) :
      (call (.updateBuild b' f)).Keeps (sighting b) fun _ => True :=
    fun _ _ => ⟨fun _ h => absurd h hs, fun _ _ => trivial⟩
  have request (b' : BuildId) (dispatch : Bool) :=
    keeps_calm (b := b) (requestCleanup_does S b' dispatch) (by simp)
  have teardown (b' : BuildId) {cleanup : P Unit}
      (hc : cleanup.Keeps (sighting b) fun _ => True) :
      (DynamicCheckService.teardown S b' cleanup).Keeps (sighting b) fun _ => True :=
    DynamicCheckService.teardown_of S (Prog.keeps_compositional _)
      (fun op h => keeps_calm (uses_one h) (by simp)) (fun _ _ hs => tear hs)
      (syncTeardown_sights b') (request b' false) hc
  have operation {f : ResourceTracker → P Unit} {ks : List Kind} (b' : BuildId)
      (hf : ∀ u, (f ⟨b', some u⟩).Uses (Doing b' (some u) ks)) (hk : .tear ∉ ks)
      (hq : .quiet ∈ ks) (hg : .guard ∈ ks) :
      (buildLease b' [.notStarted] (WorkerRuntime.underLease b' f)).Keeps (sighting b)
        fun _ => True :=
    keeps_lease (k := [.quiet]) (.bind (uses_does (BuildService.getBuild_uses b' none))
      fun _ => trivial) (fun u => uses_does (WorkerRuntime.underLease_uses ⟨b', some u⟩ (hf u) hq
        hg)) (by simpa using hk)
  exact
    { compositional := Prog.keeps_compositional _
      free := fun op h => keeps_calm (uses_one h) (by simp)
      createOrReuse := fun app commit force => keeps_calm
        (uses_does (RouteCheckService.createOrReuse_uses ⟨0, 0⟩ none app commit force)) (by simp)
      queue := fun appid gitRef => keeps_calm (BuildService.queueBuild_does S appid gitRef) (by simp)
      request
      sync := syncTeardown_sights
      teardown
      teardownIfRequired := fun b' hc => WorkerRuntime.teardownIfRequired_of S
        (Prog.keeps_compositional _) (fun op h => keeps_calm (uses_one h) (by simp))
        (fun _ _ hs => tear hs) (teardown b' hc)
      reopen := fun b' => keeps_lease (k := []) trivial
        (fun u => uses_does (DynamicCheckService.reopen_uses ⟨b', some u⟩)) (by simp)
      run := fun b' m hm => keeps_lease (k := [.quiet, .legacy])
        (.bind (uses_does (manifest_uses S b' none)) fun _ => trivial)
        (fun u => uses_does (cleanupUnderLease_uses S ⟨b', some u⟩ hm)) (by simp)
      recordFailure := fun b' => keeps_lease (k := []) trivial
        (fun u => uses_does (DynamicCheckService.recordFailure_uses ⟨b', some u⟩)) (by simp)
      failUnprepared := fun b' => keeps_lease (k := [.quiet])
        (.bind (uses_does (BuildService.getBuild_uses b' none)) fun _ => trivial)
        (fun u => uses_does (WorkerRuntime.failUnprepared_uses ⟨b', some u⟩)) (by simp)
      start := fun b' taskId => operation b'
        (fun u => WorkerRuntime.startBody_uses S ⟨b', some u⟩ taskId) (by simp) (by simp) (by simp)
      poll := fun b' n taskId => operation b'
        (fun u => WorkerRuntime.pollBody_uses S ⟨b', some u⟩ n taskId) (by simp) (by simp) (by simp)
      dynamic := fun b' run => operation b'
        (fun u => WorkerRuntime.dynamicBody_uses S ⟨b', some u⟩ run) (by simp) (by simp)
        (by simp) }

theorem sighting_kept : Disciplined (orchestrator S) (sighting b) := fun T =>
  (sighting_tasking.body T) false trivial

/-- What every thread has seen is so, and what a build says of its teardown is so. -/
theorem run_done {ok : Config (orchestrator S) → Move (orchestrator S) → Prop}
    {c₀ c : Config (orchestrator S)} (hc : Boot c₀) (hr : Run ok c₀ c) :
    (∀ t, viewOf (sighting b) t c.log = true → Done b c.world) ∧
    ∀ j, c.world.repo.builds.lookup b = some j → j.teardownStatus = some .succeeded →
      Done b c.world := by
  induction hr with
  | refl => exact ⟨fun t h => by simp [hc.log] at h, by simp [hc.repo.builds]⟩
  | @snoc c c' m hr hm hs ih =>
      obtain ⟨hseen, hbuild⟩ := ih
      have hany : Run Anything c₀ c := hr.mono fun _ _ _ => trivial
      -- A final status is not left again.
      have keep (h : Done b c.world) : Done b c'.world := by
        obtain ⟨m, hm, hst⟩ := h
        obtain ⟨⟨m', hm', hp⟩, -⟩ := step_passes hc hany hs hm
        exact ⟨m', hm', (hp.final hst).1⟩
      constructor
      · intro t
        rcases Machine.step_cases hs with ⟨t', a, op, k, r, w, -, -, he, rfl⟩ |
            ⟨t', T, -, -, rfl⟩ | ⟨x, w, -, -, rfl⟩
        · rw [viewOf_call]
          split
          · next ht =>
              subst ht
              cases op with
              | getBuildResources b' =>
                  simp only [Bool.or_eq_true, Bool.and_eq_true, beq_iff_eq]
                  rintro (h | ⟨rfl, h⟩)
                  · exact keep (hseen _ h)
                  · cases he
                    obtain ⟨m, hm, hst⟩ := (Option.any_eq_true _ _).mp h
                    exact ⟨m, hm, by simpa using hst⟩
              | _ => exact fun h => keep (hseen _ h)
          · exact fun h => keep (hseen t h)
        · exact fun h => keep (hseen t h)
        · exact fun h => keep (hseen t h)
      · rcases step_build hc hr hs b with ⟨t, a, op, k, T, rfl, hk, -, hdoes, -, r, hd⟩ | ⟨-, he⟩
        · have hsup := hr.supervised (sighting_kept (b := b)) hc.good (boot_supervised hc)
          have hallow := hsup.allows hk
          generalize hold : c.world.repo.builds.lookup b = old at hd hbuild
          generalize c'.world.repo.builds.lookup b = new at hd
          -- Only a write of the status needs what its thread has seen.
          cases hd with
          | same _ => exact fun j hj hst => keep (hbuild j hj hst)
          | created _ hn =>
              rintro _ ⟨⟩ hst
              rw [hn.teardownStatus] at hst
              cases hst
          | @updated j f _ =>
              rintro _ ⟨⟩ hst
              cases hdoes.tears with
              | keep _ hs => exact keep (hbuild j rfl (by simpa [hs] using hst))
              | running _ hs => simp [hs] at hst
              | set s _ hs =>
                  obtain rfl : s = .succeeded := by simpa [hs] using hst
                  exact keep (hseen t (hallow rfl hs))
          | @moved j _ f _ hf =>
              rintro _ ⟨⟩ hst
              refine keep (hbuild j rfl ?_)
              simpa [hf.teardownStatus.apply] using hst
          | rechecked run role _ => rintro _ ⟨⟩ hst; exact keep (hbuild _ rfl hst)
        · rw [he]
          exact fun j hj hst => keep (hbuild j hj hst)

end

/-! ### The claim -/

/-- **Teardown.**  In every run in which a teardown is only said to run while it is required, it is
required exactly while it is unfinished, and the recovery finds it; any other step breaks that
law.  In every run, a teardown has succeeded only if the cleanup has. -/
theorem teardown_coherent {S : Settings} {c₀ : Config (orchestrator S)} (hc : Boot c₀)
    (b : BuildId) :
    (∀ c, Run (Calling (Tearable b)) c₀ c → ∀ j, c.world.repo.builds.lookup b = some j →
      (j.teardownRequired = true ↔ j.Unfinished) ∧
        (j.Unfinished → j ∈ InMemoryRepository.listPendingDynamicBuilds c.world.repo)) ∧
    (∀ c m c', Run Anything c₀ c → Machine.step c m = some c' → ¬ Calling (Tearable b) c m →
      ∃ j, c'.world.repo.builds.lookup b = some j ∧
        ¬ (j.teardownRequired = true ↔ j.Unfinished)) ∧
    ∀ c, Run Anything c₀ c → ∀ j, c.world.repo.builds.lookup b = some j →
      j.teardownStatus = some .succeeded → ∃ m, c.world.repo.buildResources.lookup b = some m ∧
        m.cleanupStatus = .succeeded := by
  refine ⟨fun c hr j hj => ?_, fun c m c' _ hs hm => step_not_coherent hs hm,
    fun c hr => (run_done hc hr).2⟩
  have h := run_coherent hc hr j hj
  exact ⟨h, fun hu => h.listed hu hj⟩

namespace Sample

/-- Docker does not take the deployment. -/
def undeployed : Answers
  | .deploy _ _ _ => .error (exc .dockerService "no")
  | .docker (.deployBuild _ _ _) => .done (.error (exc .dockerService "no"))
  | op => replies op

/-- The deployment fails, and the worker that saw it fail has its cleanup accepted. -/
def tearing (n : Nat) : Schedule :=
  queued ++ doing 3 (.startBuild build none) 55 ++
    .start 4 (.pollBuild build 0 none) :: List.replicate n (.run 4 undeployed)

/-- Another worker comes first, and the teardown is over before it is said to run. -/
def overtaken : Schedule := tearing 75 ++ doing 5 (.cleanupBuild build) 53 ++ calls 4 1

def tearable (w : World) (_ : List (Event (orchestrator settings))) (_ : Nat) : Op → Bool
  | .updateBuild _ f => match f.teardownStatus, f.teardownRequired with
      | .set (some .running), .keep => (w.repo.builds.lookup build).all (·.teardownRequired)
      | _, _ => true
  | _ => true

theorem tearable_spec (w : World) (l : List (Event (orchestrator settings))) (t : Nat) (op : Op)
    (h : tearable w l t op = true) : Tearable build w l t op := by
  cases op with
  | updateBuild b f =>
      intro _ hs hr j hj
      simpa [tearable, hs, hr, hj] using h
  | _ => trivial

end Sample

theorem teardown_coherent_tearing : ∃ j,
    (Sample.reached (Sample.tearing 76) (by decide +kernel)).world.repo.builds.lookup
      Sample.build = some j ∧ j.Unfinished ∧ j.teardownRequired = true := by
  have hrun := Sample.reached_calling Sample.tearable Sample.tearable_spec (Sample.tearing 76)
    (by decide +kernel) (by decide +kernel)
  obtain ⟨j, hj⟩ := Option.isSome_iff_exists.mp (show ((Sample.reached (Sample.tearing 76)
    (by decide +kernel)).world.repo.builds.lookup Sample.build).isSome = true by decide +kernel)
  have hst : ((Sample.reached (Sample.tearing 76) (by decide +kernel)).world.repo.builds.lookup
      Sample.build).bind BuildJob.teardownStatus = some .running := by decide +kernel
  rw [hj] at hst
  have hu : j.Unfinished := .inr (.inl hst)
  exact ⟨j, hj, hu, ((teardown_coherent Sample.boot Sample.build).1 _ hrun j hj).1.mpr hu⟩

theorem teardown_coherent_overtaken : ¬ ∀ c, Run Anything Sample.start c → ∀ j,
    c.world.repo.builds.lookup Sample.build = some j →
      (j.teardownRequired = true ↔ j.Unfinished) ∧
        (j.Unfinished → j ∈ InMemoryRepository.listPendingDynamicBuilds c.world.repo) := by
  intro h
  obtain ⟨j, hj⟩ := Option.isSome_iff_exists.mp (show ((Sample.reached Sample.overtaken
    (by decide +kernel)).world.repo.builds.lookup Sample.build).isSome = true by decide +kernel)
  have hst : ((Sample.reached Sample.overtaken (by decide +kernel)).world.repo.builds.lookup
      Sample.build).map (fun j => (j.teardownStatus, j.teardownRequired)) =
        some (some .running, false) := by decide +kernel
  rw [hj] at hst
  obtain ⟨hrunning, hrequired⟩ := Prod.mk.inj (Option.some.inj hst)
  have hlaw := (h _ (Sample.reached_run Sample.overtaken (by decide +kernel)) j hj).1
  rw [hlaw.mpr (.inr (.inl hrunning))] at hrequired
  cases hrequired

end Orchestrator
