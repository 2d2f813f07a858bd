import Orchestrator.Discipline.Tasking
import Orchestrator.Runtime.Sample

/-!
# Applications — where a Compose document comes from

`sync_app` reads the record, asks GitLab twice, and writes what it found without looking again;
`update_app` takes the claim back in a write of its own.

* `Gitlab`: what a reference resolves to and what a commit holds, at every time.
* `Provenance G now app`: what `compose_source_commit` claims of the record.
* `Current`: the record still has the repository and the reference the synchronisation has read.
* `compose_provenance`: where every synchronisation writes while that is so, the claim is true.
-/

namespace Orchestrator
open Interleaving

/-! ### GitLab over time -/

/-- What GitLab answers at a time: the commit of a reference, and the document of a commit. -/
structure Gitlab where
  resolve : Int → String → String → Except Exc String
  document : Int → String → String → Except Exc (String × Compose)

/-- The reply to a call is GitLab's. -/
def Gitlab.Replies (G : Gitlab) (now : Int) (a : Answers) : Op → Prop
  | .validateRepositoryRef url ref =>
      a (.validateRepositoryRef url ref) = G.resolve now url ref
  | .discoverCompose url commit => a (.discoverCompose url commit) = G.document now url commit
  | _ => True

/-- Every call of the run to GitLab is answered by it. -/
def Answering {S : Settings} (G : Gitlab) (c : Config (orchestrator S)) :
    Move (orchestrator S) → Prop
  | .run t a => ∀ op k, c.threads t = some (.call op k) → G.Replies c.world.clock a op
  | .start _ _ | .env _ => True

/-- A commit that a reference has resolved to, and what was found in it. -/
structure Gitlab.Found (G : Gitlab) (now : Int) (url ref commit : String) (path : String)
    (compose : Compose) : Prop where
  resolved : ∃ time ≤ now, G.resolve time url ref = .ok commit
  document : ∃ time ≤ now, G.document time url commit = .ok (path, compose)

/-- If the record names a commit, then its repository and reference have resolved to it, and its
Compose document is the one found there. -/
def Provenance (G : Gitlab) (now : Int) (app : UserAppRecord) : Prop :=
  ∀ commit, app.composeSourceCommit = some commit → ∃ path compose,
    app.composeSourceFile = some path ∧ app.compose = some compose ∧
      G.Found now app.repositoryUrl app.gitRef commit path compose

section
variable {G : Gitlab} {now now' : Int} {app : UserAppRecord}

theorem Gitlab.Found.mono {url ref commit path : String} {compose : Compose}
    (h : G.Found now url ref commit path compose) (hn : now ≤ now') :
    G.Found now' url ref commit path compose where
  resolved := let ⟨τ, hτ, h⟩ := h.resolved; ⟨τ, Int.le_trans hτ hn, h⟩
  document := let ⟨τ, hτ, h⟩ := h.document; ⟨τ, Int.le_trans hτ hn, h⟩

theorem Provenance.mono (h : Provenance G now app) (hn : now ≤ now') : Provenance G now' app := by
  intro commit hc
  obtain ⟨path, compose, hp, hd, hf⟩ := h commit hc
  exact ⟨path, compose, hp, hd, hf.mono hn⟩

/-- An update keeps the claim true: it takes it back, or touches nothing it is about. -/
theorem Provenance.update (h : Provenance G now app) (request : AppFields) :
    Provenance G now (app.modelCopy (updateFields request)) := by
  unfold updateFields
  split
  · next hu =>
      obtain ⟨hc, hr, hg⟩ := hu
      simpa [Provenance, hc.apply, hr.apply, hg.apply] using h
  · intro commit hc
    simp at hc

/-- A synchronisation makes the claim true, for the repository and reference it has read. -/
theorem Provenance.sync {read : UserAppRecord} {doc : ComposeDocument}
    (hf : G.Found now read.repositoryUrl read.gitRef doc.commitSha doc.path doc.compose)
    (hr : app.repositoryUrl = read.repositoryUrl) (hg : app.gitRef = read.gitRef) :
    Provenance G now (app.modelCopy (syncFields doc)) := by
  intro commit hc
  obtain rfl : doc.commitSha = commit := by simpa [syncFields] using hc
  exact ⟨doc.path, doc.compose, rfl, rfl, by simpa [syncFields, hr, hg] using hf⟩

end

/-! ### What a task does with the applications -/

/-- What a thread has last heard: a record, the commit of a reference, and the document of a
commit. -/
structure SourceView where
  app : Option UserAppRecord := none
  resolved : Option (String × String × String) := none
  document : Option (String × ComposeDocument) := none

/-- The writes of a task: the fields of its request, or what it has found for the record it has
read. -/
def SourceView.allows (T : Task) (v : SourceView) : Op → Prop
  | .updateApp a f => match T with
      | .updateApp appid request => a = appid ∧ f = updateFields request
      | .syncApp appid => a = appid ∧ ∃ app doc, v.app = some app ∧
          v.resolved = some (app.repositoryUrl, app.gitRef, doc.commitSha) ∧
          v.document = some (app.repositoryUrl, doc) ∧ f = syncFields doc
      | _ => False
  | _ => True

def SourceView.observe (v : SourceView) : (op : Op) → op.Ret → SourceView
  | .getApp _, r => { v with app := r }
  | .validateRepositoryRef url ref, r =>
      { v with resolved := r.toOption.map fun commit => (url, ref, commit) }
  | .discoverCompose url commit, r =>
      { v with document := r.toOption.map fun d => (url, ⟨d.1, d.2, commit⟩) }
  | _, _ => v

abbrev sourceMonitor (T : Task) : Monitor api where
  View := SourceView
  init := {}
  allows := SourceView.allows T
  observe := SourceView.observe

theorem Deed.keeps_apps {b : BuildId} {o : Option Uuid} {k : Kind} {op : Op}
    (h : Deed b o k op) (hk : k ≠ .app) (appid : String) (f : AppFields) :
    op ≠ .updateApp appid f := by
  rintro rfl
  cases h with
  | quiet h => cases h
  | app => exact hk rfl

section Obeys
variable {S : Settings} {T : Task}

/-- Calls that write no application are allowed at any time. -/
theorem SourceView.allows_other {op : Op} {v : SourceView}
    (hop : ∀ appid f, op ≠ .updateApp appid f) : v.allows T op := by
  cases op with
  | updateApp appid f => exact absurd rfl (hop appid f)
  | _ => trivial

theorem obeys_sources {α : Type} {p : P α} {ks : List Kind} (hp : p.Uses (Does ks))
    (hk : Kind.app ∉ ks) (v : SourceView) :
    p.Obeys (sourceMonitor T) (fun _ _ => True) v := by
  refine Prog.Uses.obeys (M := sourceMonitor T) (P := fun _ => True) hp ?_ trivial
  rintro v op - ⟨b, o, k, hm, hd⟩
  exact ⟨SourceView.allows_other (hd.keeps_apps fun e => hk (e ▸ hm)), fun _ _ => trivial⟩

theorem createOrReuse_sources (app : UserAppRecord) (commit : String) (force : Bool)
    (v : SourceView) : (RouteCheckService.createOrReuse app commit force).Obeys (sourceMonitor T)
      (fun _ _ => True) v :=
  obeys_sources (uses_does (RouteCheckService.createOrReuse_uses ⟨0, 0⟩ none app commit force))
    (by simp) v

theorem updateApp_obeys (appid : String) (request : AppFields) :
    (updateApp S appid request).Obeys (sourceMonitor (.updateApp appid request))
      (fun _ _ => True) {} := by
  have hu : (updateApp S appid request).Uses fun op =>
      ∀ v : SourceView, v.allows (.updateApp appid request) op := by
    refine updateApp_of S (Prog.uses_compositional (I := api) _) ?_ ?_ appid request ?_
    · rintro op ⟨b, o, k, hm, hd⟩
      refine uses_one fun v => SourceView.allows_other (hd.keeps_apps ?_)
      rintro rfl
      simp at hm
    · intro app commit force
      refine (uses_does (RouteCheckService.createOrReuse_uses ⟨0, 0⟩ none app commit force)).mono ?_
      rintro op ⟨b, o, k, hm, hd⟩ v
      refine SourceView.allows_other (hd.keeps_apps ?_)
      rintro rfl
      simp at hm
    · exact uses_one fun v => ⟨rfl, rfl⟩
  exact Prog.Uses.obeys (M := sourceMonitor _) (P := fun _ => True) hu
    (fun v op _ h => ⟨h v, fun _ _ => trivial⟩) trivial

theorem syncApp_obeys (appid : String) :
    (syncApp S appid).Obeys (sourceMonitor (.syncApp appid)) (fun _ _ => True) {} := by
  refine ⟨trivial, fun r _ => ?_⟩
  cases r with
  | none => trivial
  | some app =>
      dsimp only
      split
      · trivial
      refine ⟨trivial, fun resolved _ => ?_⟩
      cases resolved with
      | error e => trivial
      | ok commit =>
          refine ⟨trivial, fun d _ => ?_⟩
          cases d with
          | error e => trivial
          | ok d =>
              refine ⟨⟨rfl, app, ⟨d.1, d.2, commit⟩, rfl, rfl, rfl, rfl⟩, fun updated _ => ?_⟩
              cases updated with
              | none => trivial
              | some updated =>
                  simp only [Prog.ret_bind]
                  split
                  · trivial
                  · rw [Prog.bind_eq, Prog.obeys_bind]
                    refine (createOrReuse_sources updated commit false _).mono fun r v _ => ?_
                    cases r <;> trivial

/-- **Applications.**  Every task keeps to its monitor. -/
theorem Task.obeys_sources (T : Task) :
    (T.body S).Obeys (sourceMonitor T) (fun _ _ => True) {} := by
  cases T with
  | updateApp appid request => exact updateApp_obeys appid request
  | syncApp appid =>
      rw [Task.body, Prog.bind_eq, Prog.obeys_bind]
      refine (syncApp_obeys appid).mono fun r v _ => ?_
      cases r <;> trivial
  | _ => exact Orchestrator.obeys_sources (Task.body_does S _) (by simp [kinds]) {}

end Obeys

/-! ### The invariant -/

variable {S : Settings}

/-- What thread `t` has last heard. -/
def sourceView (t : Nat) (l : List (Event (orchestrator S))) : SourceView :=
  viewOf (sourceMonitor .startRoles) t l

theorem viewOf_sourceMonitor (T : Task) (t : Nat) (l : List (Event (orchestrator S))) :
    viewOf (sourceMonitor T) t l = sourceView t l := viewOf_allows t l

/-- A synchronisation writes over the repository and the reference it has read. -/
def Current (w : World) (l : List (Event (orchestrator S))) (t : Nat) : Op → Prop
  | .updateApp appid _ => .start t (.syncApp appid) ∈ l → ∀ read app,
      (sourceView t l).app = some read → w.repo.apps.lookup appid = some app →
      app.repositoryUrl = read.repositoryUrl ∧ app.gitRef = read.gitRef
  | _ => True

/-- What every thread has heard was GitLab's answer, and the record of `appid` is what it claims
to be. -/
structure Sourced (G : Gitlab) (appid : String) (w : World)
    (l : List (Event (orchestrator S))) : Prop where
  resolved : ∀ t url ref commit, (sourceView t l).resolved = some (url, ref, commit) →
    ∃ time ≤ w.clock, G.resolve time url ref = .ok commit
  document : ∀ t url doc, (sourceView t l).document = some (url, doc) →
    ∃ time ≤ w.clock, G.document time url doc.commitSha = .ok (doc.path, doc.compose)
  app : ∀ app, w.repo.apps.lookup appid = some app → Provenance G w.clock app
  keyed : Table.Keyed UserAppRecord.appid w.repo.apps

namespace Sourced
variable {G : Gitlab} {appid : String} {w w' : World} {l : List (Event (orchestrator S))}
  {t : Nat} {T : Task} {op : Op} {a : Answers} {r : op.Ret}

/-- A step that writes no application, after which the same has been heard of GitLab. -/
theorem same (h : Sourced G appid w l) {e : Event (orchestrator S)}
    (hw : w'.repo.apps = w.repo.apps) (hn : w.clock ≤ w'.clock)
    (hr : ∀ t, (sourceView t (e :: l)).resolved = (sourceView t l).resolved)
    (hd : ∀ t, (sourceView t (e :: l)).document = (sourceView t l).document) :
    Sourced G appid w' (e :: l) where
  resolved t url ref commit ht := by
    obtain ⟨τ, hτ, h⟩ := h.resolved t url ref commit (hr t ▸ ht)
    exact ⟨τ, Int.le_trans hτ hn, h⟩
  document t url doc ht := by
    obtain ⟨τ, hτ, h⟩ := h.document t url doc (hd t ▸ ht)
    exact ⟨τ, Int.le_trans hτ hn, h⟩
  app app ha := (h.app app (hw ▸ ha)).mono hn
  keyed := hw ▸ h.keyed

theorem sourceView_self : sourceView t (.call t op r :: l) = (sourceView t l).observe op r :=
  viewOf_call_self (M := sourceMonitor .startRoles) t op r l

theorem sourceView_other {t' : Nat} (h : t ≠ t') :
    sourceView t' (.call t op r :: l) = sourceView t' l :=
  viewOf_call_other (M := sourceMonitor .startRoles) h op r l

/-- What one thread hears, no other does. -/
theorem view_call {α : Type} (f : SourceView → α)
    (hf : f ((sourceView t l).observe op r) = f (sourceView t l)) (t' : Nat) :
    f (sourceView t' (.call t op r :: l)) = f (sourceView t' l) := by
  by_cases ht : t = t'
  · subst ht; rw [sourceView_self, hf]
  · rw [sourceView_other ht]

/-- **One call.**  A call keeps the claim of the record true, if a synchronisation writes over
what it has read. -/
theorem call (h : Sourced G appid w l) (hT : .start t T ∈ l)
    (ha : (sourceView t l).allows T op) (hc : Current w l t op) (hg : G.Replies w.clock a op)
    (he : exec t op a w = some (r, w')) : Sourced G appid w' (.call t op r :: l) := by
  have hclock : w.clock ≤ w'.clock := Int.le_of_eq (exec_clock he).symm
  cases op with
  | validateRepositoryRef url ref =>
      obtain ⟨rfl, rfl⟩ : r = a (.validateRepositoryRef url ref) ∧ w' = w := by
        cases he; exact ⟨rfl, rfl⟩
      refine ⟨fun t' url' ref' commit ht => ?_, fun t' url' doc ht => ?_, h.app, h.keyed⟩
      · by_cases e : t = t'
        · subst e
          rw [sourceView_self] at ht
          obtain ⟨x, hx, hv⟩ := Option.map_eq_some_iff.mp ht
          cases hv
          refine ⟨w'.clock, Int.le_refl _, ?_⟩
          rw [← hg]
          cases hr : a (.validateRepositoryRef url ref) <;> rw [hr] at hx <;> cases hx
          rfl
        · rw [sourceView_other e] at ht
          exact h.resolved t' url' ref' commit ht
      · rw [view_call SourceView.document rfl] at ht
        exact h.document t' url' doc ht
  | discoverCompose url commit =>
      obtain ⟨rfl, rfl⟩ : r = a (.discoverCompose url commit) ∧ w' = w := by
        cases he; exact ⟨rfl, rfl⟩
      refine ⟨fun t' url' ref' commit' ht => ?_, fun t' url' doc ht => ?_, h.app, h.keyed⟩
      · rw [view_call SourceView.resolved rfl] at ht
        exact h.resolved t' url' ref' commit' ht
      · by_cases e : t = t'
        · subst e
          rw [sourceView_self] at ht
          obtain ⟨x, hx, hv⟩ := Option.map_eq_some_iff.mp ht
          cases hv
          refine ⟨w'.clock, Int.le_refl _, ?_⟩
          rw [← hg]
          cases hr : a (.discoverCompose url commit) <;> rw [hr] at hx <;> cases hx
          rfl
        · rw [sourceView_other e] at ht
          exact h.document t' url' doc ht
  | updateApp id f =>
      -- Only an update writes the record: from a request, or from what was read and found.
      rcases exec_updateApp he with ⟨-, rfl, rfl⟩ | ⟨x, hx, rfl, rfl⟩
      · exact h.same rfl (Int.le_refl _) (view_call _ rfl) (view_call _ rfl)
      have hid : x.appid = id := h.keyed _ _ hx
      refine ⟨fun t' url ref commit ht => ?_, fun t' url doc ht => ?_, fun app happ => ?_,
        h.keyed.insert rfl⟩
      · rw [view_call SourceView.resolved rfl] at ht
        exact h.resolved t' url ref commit ht
      · rw [view_call SourceView.document rfl] at ht
        exact h.document t' url doc ht
      rw [InMemoryRepository.saveApp, UserAppRecord.modelCopy_appid, hid,
        Table.lookup_insert_eq] at happ
      split_ifs at happ with e
      · subst e
        cases happ
        have hold := h.app x hx
        cases T with
        | updateApp id request =>
            obtain ⟨-, rfl⟩ := ha
            exact hold.update request
        | syncApp id =>
            obtain ⟨rfl, read, doc, hread, hres, hdoc, rfl⟩ := ha
            obtain ⟨hurl, href⟩ := hc hT read x hread hx
            exact .sync ⟨h.resolved t _ _ _ hres, h.document t _ _ hdoc⟩ hurl href
        | _ => exact ha.elim
      · exact h.app app happ
  | _ =>
      have hw := (exec_frame he).apps (by simp [Op.part])
      exact h.same hw hclock (view_call _ rfl) (view_call _ rfl)

end Sourced

/-- **Provenance.**  In every run in which GitLab answers the calls to it, and every
synchronisation writes while the record still has the repository and the reference it has read,
what the record claims of its Compose document is true. -/
theorem compose_provenance {S : Settings} (G : Gitlab) (appid : String)
    {c c' : Config (orchestrator S)} (hb : Boot c)
    (hk : Table.Keyed UserAppRecord.appid c.world.repo.apps)
    (h₀ : ∀ app, c.world.repo.apps.lookup appid = some app → Provenance G c.world.clock app)
    (hr : Run (fun c m => Answering G c m ∧ Calling Current c m) c c') :
    ∀ app, c'.world.repo.apps.lookup appid = some app → Provenance G c'.world.clock app := by
  have hstart : Sourced G appid c.world c.log := by
    rw [hb.log]
    exact ⟨fun t _ _ _ h => (by cases h), fun t _ _ h => (by cases h), h₀, hk⟩
  refine (hr.invariant_of_tasks (Q := Sourced G appid) Task.obeys_sources
    (fun c t T a op k r w' hi hok hk hT ha _ he => ?_) (fun w l t T hi => ?_)
    (fun w l x w' hi he => ?_) hb.good hb.threads hb.log hstart).app
  · rw [viewOf_sourceMonitor] at ha
    exact hi.call hT ha (hok.2 op k hk) (hok.1 op k hk) he
  · exact hi.same rfl (Int.le_refl _) (fun _ => rfl) (fun _ => rfl)
  · refine hi.same ?_ (disturb_clock he) (fun _ => rfl) (fun _ => rfl)
    rcases disturb_cases he with ⟨d, rfl⟩ | rfl | ⟨b, m, o, e, -, -, rfl⟩ | ⟨c, row, e, -, rfl⟩ <;>
      rfl

/-! ### On the sample system -/

namespace Sample

/-- A GitLab with one repository, which holds one commit. -/
def gitlab : Gitlab where
  resolve _ url _ := if url = "repository" then .ok commit else .error (exc .gitlabError "")
  document _ url _ :=
    if url = "repository" then .ok ("docker-compose.yml", compose)
    else .error (exc .gitlabError "")

def gitlabReplies : Answers
  | .validateRepositoryRef url ref => gitlab.resolve 0 url ref
  | .discoverCompose url commit => gitlab.document 0 url commit
  | op => replies op

/-- Thread `t` makes its next `n` calls, and GitLab answers. -/
def asks (t n : Nat) : Schedule := List.replicate n (.run t gitlabReplies)

/-- A synchronisation. -/
def synced : Schedule := .start 0 (.syncApp "app") :: asks 0 4

/-- A synchronisation between whose reads and write the repository is changed. -/
def outdated : Schedule := .start 0 (.syncApp "app") :: asks 0 3 ++
  .start 1 (.updateApp "app" { repositoryUrl := .set "other", requireRoute := .set none }) ::
    asks 1 2 ++ asks 0 1

def current (w : World) (l : List (Event (orchestrator settings))) (t : Nat) : Op → Bool
  | .updateApp appid _ => match (sourceView t l).app, w.repo.apps.lookup appid with
      | some read, some app =>
          app.repositoryUrl == read.repositoryUrl && app.gitRef == read.gitRef
      | _, _ => true
  | _ => true

theorem current_spec (w : World) (l : List (Event (orchestrator settings))) (t : Nat) (op : Op)
    (h : current w l t op = true) : Current w l t op := by
  cases op with
  | updateApp appid f =>
      intro _ read app hr ha
      simpa [current, hr, ha] using h
  | _ => trivial

/-- The moves of a schedule in which GitLab answers. -/
theorem answering (ms : Schedule)
    (h : ∀ m ∈ ms, match m with
      | .run _ a => a = gitlabReplies
      | .start _ _ | .env _ => True) (c : Config (orchestrator settings)) :
    ∀ m ∈ ms, Answering gitlab c m := by
  intro m hm
  have hm := h m hm
  cases m with
  | run t a =>
      cases hm
      intro op k _
      cases op <;> first | rfl | trivial
  | start | env => trivial

theorem keyed_apps : Table.Keyed UserAppRecord.appid start.world.repo.apps := by
  have h : Table.Keyed UserAppRecord.appid ((∅ : Table String UserAppRecord).insert "app" app) :=
    Table.keyed_empty.insert rfl
  exact h

/-- The record names no commit at the start. -/
theorem provenance_start : ∀ app, start.world.repo.apps.lookup "app" = some app →
    Provenance gitlab start.world.clock app := by
  intro app h commit hc
  cases (show some Sample.app = some app from h)
  cases hc

end Sample

theorem compose_provenance_synced : ∃ app,
    (Sample.reached Sample.synced (by decide +kernel)).world.repo.apps.lookup "app" = some app ∧
    app.composeSourceCommit = some Sample.commit ∧ ∃ path compose,
      Sample.gitlab.Found (Sample.reached Sample.synced (by decide +kernel)).world.clock
        app.repositoryUrl app.gitRef Sample.commit path compose := by
  have hrun := Run.of_checked (c := Sample.start) Sample.current_spec
    (Sample.answering Sample.synced (by simp [Sample.synced, Sample.asks]))
    (Option.some_get (show (Machine.play Sample.start Sample.synced).isSome = true by
      decide +kernel)).symm (by decide +kernel)
  obtain ⟨app, happ⟩ := Option.isSome_iff_exists.mp (show ((Sample.reached Sample.synced
    (by decide +kernel)).world.repo.apps.lookup "app").isSome = true by decide +kernel)
  have hc : ((Sample.reached Sample.synced (by decide +kernel)).world.repo.apps.lookup "app").bind
      UserAppRecord.composeSourceCommit = some Sample.commit := by decide +kernel
  rw [happ] at hc
  obtain ⟨path, compose, -, -, hf⟩ := compose_provenance Sample.gitlab "app" Sample.boot
    Sample.keyed_apps Sample.provenance_start hrun app happ Sample.commit hc
  exact ⟨app, happ, hc, path, compose, hf⟩

theorem compose_provenance_outdated : ¬ ∀ c', Run (Answering Sample.gitlab) Sample.start c' →
    ∀ app, c'.world.repo.apps.lookup "app" = some app →
      Provenance Sample.gitlab c'.world.clock app := by
  intro h
  have hrun := (Run.of_checked (c := Sample.start) (C := fun _ _ _ _ => True)
    (d := fun _ _ _ _ => true) (fun _ _ _ _ _ => trivial)
    (Sample.answering Sample.outdated (by simp [Sample.outdated, Sample.asks]))
    (Option.some_get (show (Machine.play Sample.start Sample.outdated).isSome = true by
      decide +kernel)).symm (by decide +kernel)).mono fun _ _ h => h.1
  obtain ⟨app, happ⟩ := Option.isSome_iff_exists.mp (show ((Sample.reached Sample.outdated
    (by decide +kernel)).world.repo.apps.lookup "app").isSome = true by decide +kernel)
  have hc : ((Sample.reached Sample.outdated
      (by decide +kernel)).world.repo.apps.lookup "app").map (fun app =>
        (app.repositoryUrl, app.composeSourceCommit)) = some ("other", some Sample.commit) := by
    decide +kernel
  rw [happ] at hc
  obtain ⟨hurl, hcommit⟩ := Prod.mk.inj (Option.some.inj hc)
  obtain ⟨path, compose, -, -, hf⟩ := h _ hrun app happ Sample.commit hcommit
  obtain ⟨time, -, hres⟩ := hf.resolved
  rw [hurl] at hres
  cases hres

end Orchestrator
