import Orchestrator.Discipline.Tasking
import Orchestrator.Runtime.Sample

/-!
# Route checks — the generations of a row

A forced submission resets the row to the next generation, under a compare-and-set on the
generation it read.  An execution takes the row under one on everything it read, draws a token
with it, and stores its result only where generation and token are still its own.

* `Op.obtains`, `Op.stores`, `Op.acquires`: the calls that obtain a generation, store a result,
  or take a row, and which.
* `fencing T`: what task `T` does with the rows, from its own calls.
* `RowDeed`: what one allowed call does to a row.
* `Fenced k w l`: the invariant.  The generations of row `k` that were obtained are the first
  ones, one each; the row is at the last of them, and no generation has two results.
* `static_fencing`: so it is along every run.
-/

namespace Orchestrator
open Interleaving

variable {S : Settings}

/-! ### Results, and the calls that matter -/

/-- The outcome of a static check, as the row has it. -/
structure StaticResult where
  staticStatus : StaticStatus
  staticCheckPassed : Option Bool
  probePayload : Option Json
  diffList : List String
  staticReportText : Option String

def RouteCheckResult.result (row : RouteCheckResult) : StaticResult where
  staticStatus := row.staticStatus
  staticCheckPassed := row.staticCheckPassed
  probePayload := row.probePayload
  diffList := row.diffList
  staticReportText := row.staticReportText

def StaticStatus.Terminal (s : StaticStatus) : Prop := s = .succeeded ∨ s = .failed

/-- The fields of a terminal result. -/
def RouteCheckFields.Concludes (f : RouteCheckFields) : Prop :=
  ∃ s, f.staticStatus = .set s ∧ s.Terminal

/-- The row and the generation a call obtains, where it creates or resets one. -/
def Op.obtains : (op : Op) → op.Ret → Option (CheckId × Nat)
  | .ensureRouteCheck _, (row, true) => some (row.checkId, row.generation)
  | .updateRouteCheck _ f _, some row => match f.generation with
      | .set _ => some (row.checkId, row.generation)
      | .keep => none
  | _, _ => none

/-- The row and the generation a call stores a result for. -/
def Op.stores : (op : Op) → op.Ret → Option (CheckId × Nat)
  | .updateRouteCheck _ f _, some row => match f.staticStatus with
      | .set .succeeded | .set .failed => some (row.checkId, row.generation)
      | _ => none
  | _, _ => none

/-- The row, the generation and the token a call takes a row with. -/
def Op.acquires : (op : Op) → op.Ret → Option (CheckId × Nat × Uuid)
  | .updateRouteCheck _ f _, some row => match f.staticRunToken with
      | .set (some token) => some (row.checkId, row.generation, token)
      | _ => none
  | _, _ => none

/-! ### What a task does with the rows -/

/-- The identifier a thread drew last, if it has not used it for a row; the generation it has
obtained, and the row it has taken. -/
structure FencingView where
  drawn : Option Uuid := none
  obtained : Option (CheckId × Nat) := none
  acquired : Option (CheckId × Nat × Uuid) := none

namespace FencingView

/-- Rows are created under fresh identifiers; a result is stored for the row, the generation and
the token that were taken; what a submission hands to the workers, it has obtained. -/
def allows (T : Task) (v : FencingView) : Op → Prop
  | .ensureRouteCheck row => v.drawn = some row.checkId
  | .updateRouteCheck c f e => f.Concludes → ∃ wanted g token, T = .staticRouteCheck c wanted ∧
      v.acquired = some (c, g, token) ∧
      e = { generation := .eq g, staticRunToken := .eq (some token), staticStatus := .eq .running }
  | .dispatchStaticCheck c g => ∀ appid commit force, T = .submitStatic appid commit force →
      v.obtained = some (c, g)
  | _ => True

def observe (v : FencingView) (op : Op) (r : op.Ret) : FencingView where
  drawn := match op, r with
    | .uuid4, u => some u
    | .ensureRouteCheck _, _ => none
    | _, _ => v.drawn
  obtained := (op.obtains r).or v.obtained
  acquired := (op.acquires r).or v.acquired

end FencingView

/-- What the calls of task `T` do with the rows. -/
abbrev fencing (T : Task) : Monitor api :=
  ⟨FencingView, {}, FencingView.allows T, FencingView.observe⟩

section Obeys
variable {T : Task} {v : FencingView}

theorem RouteCheckFields.not_concludes {f : RouteCheckFields}
    (h : ∀ s, f.staticStatus = .set s → ¬ s.Terminal) : ¬ f.Concludes := by
  rintro ⟨s, hs, ht⟩
  exact h s hs ht

/-- A write that stores no result is allowed. -/
theorem FencingView.allows_update {c : CheckId} {f : RouteCheckFields} {e : RouteCheckExpectation}
    (h : ¬ f.Concludes) : v.allows T (.updateRouteCheck c f e) := fun hf => absurd hf h

/-- A deed that creates no row and stores no result is allowed to whoever may dispatch. -/
theorem Deed.fences {b : BuildId} {o : Option Uuid} {k : Kind} {op : Op} (h : Deed b o k op)
    (hT : ∀ appid commit force, T ≠ .submitStatic appid commit force) (hc : k ≠ .ensureRow)
    (hr : k ≠ .resultRow) : v.allows T op := by
  cases h with
  | quiet hq =>
      cases op <;> first | trivial | exact fun a c f e => absurd e (hT a c f)
  | row hf =>
      refine FencingView.allows_update (RouteCheckFields.not_concludes fun s hs => ?_)
      have hu := hf.staticStatus
      rw [hs] at hu
      exact hu.elim
  | resetRow c hrow =>
      refine FencingView.allows_update (RouteCheckFields.not_concludes fun s hs => ?_)
      rw [← Change.set.inj hs, hrow.staticStatus]
      rintro (h | h) <;> cases h
  | takeRow =>
      refine FencingView.allows_update (RouteCheckFields.not_concludes fun s hs => ?_)
      cases hs
      rintro (h | h) <;> cases h
  | ensureRow => exact absurd rfl hc
  | resultRow => exact absurd rfl hr
  | _ => trivial

/-- A program without such deeds keeps to the monitor. -/
theorem fences_of_uses {α : Type} {p : P α} {K : List Kind} (hp : p.Uses (Does K))
    (hT : ∀ appid commit force, T ≠ .submitStatic appid commit force) (hc : .ensureRow ∉ K)
    (hr : .resultRow ∉ K) : p.Keeps (fencing T) fun _ => True := by
  refine hp.keeps fun v op _ ⟨b, o, k, hk, hd⟩ => ⟨hd.fences hT ?_ ?_, fun _ _ => trivial⟩
  · exact fun e => hc (e ▸ hk)
  · exact fun e => hr (e ▸ hk)

/-! #### Submissions -/

namespace RouteCheckService

theorem check_fences (c : CheckId) : (check c).Keeps (fencing T) fun _ => True := fun v _ => by
  refine ⟨trivial, fun r _ => ?_⟩
  cases r <;> trivial

/-- The row a submission has obtained is the one it hands to the workers. -/
theorem dispatchStatic_fences (result : RouteCheckResult)
    (hv : v.obtained = some (result.checkId, result.generation)) :
    (dispatchStatic result).Obeys (fencing T) (fun _ _ => True) v := by
  have plain {f : RouteCheckFields} (h : f.staticStatus = .keep) : ¬ f.Concludes :=
    RouteCheckFields.not_concludes fun s hs => by rw [h] at hs; cases hs
  unfold dispatchStatic
  rw [Prog.bind_eq, Prog.obeys_bind, Prog.obeys_attempt, orRaise, Prog.obeys_bind]
  refine ⟨fun _ _ _ _ => hv, fun r _ => ?_⟩
  cases r with
  | error e => exact ⟨FencingView.allows_update (plain rfl), fun r _ => trivial⟩
  | ok taskId =>
      refine ⟨FencingView.allows_update (plain rfl), fun r _ => ?_⟩
      cases r with
      | some updated => trivial
      | none => exact check_fences _ _ trivial

/-- A reset that returns has obtained what it returns. -/
theorem resetLoop_fences {candidate : RouteCheckResult} (hnew : candidate.New) :
    ∀ (n : Nat) (result : RouteCheckResult) (v : FencingView),
      (resetLoop candidate n result).Obeys (fencing T)
        (fun r v' => ∀ row, r = .ok row → v'.obtained = some (row.checkId, row.generation)) v
  | 0, _, _ => fun _ h => (by cases h)
  | n + 1, result, v => by
      refine ⟨FencingView.allows_update (RouteCheckFields.not_concludes fun s hs => ?_),
        fun r _ => ?_⟩
      · rw [← Change.set.inj hs, hnew.staticStatus]
        rintro (h | h) <;> cases h
      · cases r with
        | some updated => rintro row ⟨⟩; rfl
        | none =>
            simp only [Prog.ret_bind]
            rw [Prog.bind_eq, Prog.obeys_bind]
            refine (check_fences _ _ trivial).mono fun r v' _ => ?_
            cases r with
            | ok row => exact resetLoop_fences hnew n row v'
            | error e => exact fun _ h => (by cases h)

theorem createOrReuse_fences (app : UserAppRecord) (commit : String) (force : Bool) :
    (createOrReuse app commit force).Keeps (fencing T) fun _ => True := fun v _ => by
  have role (key : RoleKey) {α : Type} {k : AgentRole → P α} {v : FencingView}
      (h : ∀ r v, (k r).Obeys (fencing T) (fun _ _ => True) v) :
      ((AgentRoleService.get key).bind k).Obeys (fencing T) (fun _ _ => True) v := by
    refine ⟨trivial, fun r _ => ?_⟩
    cases r with
    | none => trivial
    | some role => exact h role _
  unfold createOrReuse
  split
  · trivial
  refine role _ fun static v => role _ fun dynamic v => ?_
  refine ⟨trivial, fun checkId _ => ⟨rfl, fun (result, created) _ => ?_⟩⟩
  simp only [Prog.ret_bind]
  cases created with
  | true => exact dispatchStatic_fences result rfl
  | false =>
      cases force with
      | false => trivial
      | true =>
          simp only [Bool.false_eq_true, if_false, if_true, Prog.bind_eq, Prog.obeys_bind]
          have hnew := candidate_new checkId app commit (app.requireRoute.getD "") static dynamic
          refine (resetLoop_fences hnew 10 result _).mono fun r v' hr => ?_
          cases r with
          | error e => trivial
          | ok row => exact dispatchStatic_fences row (hr row rfl)

theorem resolveCommit_fences (app : UserAppRecord) (ref : Option String) :
    (resolveCommit S app ref).Keeps (fencing T) fun _ => True := by
  have hG := Prog.keeps_compositional (I := api) (M := fencing T) fun _ => True
  unfold resolveCommit
  split
  · exact hG.raise _
  split
  · exact hG.raise _
  refine hG.bind (hG.bind (fun v _ => ⟨trivial, fun _ _ => trivial⟩) hG.ofExcept) fun sha => ?_
  split
  · exact hG.raise _
  split
  · exact hG.raise _
  · exact hG.ret _

theorem submit_fences (app : UserAppRecord) (commit : Option String) (force : Bool) :
    (submit S app commit force).Keeps (fencing T) fun _ => True := fun v _ => by
  unfold submit
  split
  · trivial
  rw [Prog.bind_eq, Prog.obeys_bind]
  refine (resolveCommit_fences app commit _ trivial).mono fun r v' _ => ?_
  cases r with
  | error e => trivial
  | ok sha => exact createOrReuse_fences app sha force v' trivial

/-! #### Executions -/

/-- What a lease returns, it has taken. -/
theorem lease_fences (row : RouteCheckResult) (v : FencingView) :
    (lease S row).Obeys (fencing T) (fun r v' => ∀ x, r = .ok (some x) →
      v'.acquired = some (x.1.checkId, x.1.generation, x.2) ∧ x.1.checkId = row.checkId) v := by
  unfold lease
  refine ⟨trivial, fun now _ => ?_⟩
  simp only [Prog.ret_bind]
  split
  · exact fun _ h => (by cases h)
  split
  · exact fun _ h => (by cases h)
  refine ⟨trivial, fun token _ => ⟨trivial, fun now _ => ?_⟩⟩
  refine ⟨FencingView.allows_update (RouteCheckFields.not_concludes fun s hs => ?_),
    fun r hr => ?_⟩
  · cases hs
    rintro (h | h) <;> cases h
  · cases r with
    | none => exact fun _ h => (by cases h)
    | some owned =>
        rintro x ⟨⟩
        exact ⟨rfl, hr owned rfl⟩

/-- The work between the two writes of an execution leaves it as it was. -/
theorem runStatic_fences (hT : ∀ appid commit force, T ≠ .submitStatic appid commit force)
    (row : RouteCheckResult) (token : Uuid) (x : Option (CheckId × Nat × Uuid)) :
    (runStatic S row token).Keeps (fencing T) fun v => v.acquired = x := by
  refine (runStatic_uses S ⟨0, 0⟩ none row token).keeps fun v op hv ⟨k, hk, hd⟩ => ?_
  cases List.mem_singleton.mp hk
  refine ⟨hd.fences hT (by simp) (by simp), fun r _ => ?_⟩
  cases hd with
  | quiet hq => cases op <;> first | exact hv | cases hq

theorem executeStatic_fences (c : CheckId) (wanted : Option Nat) :
    (executeStatic S c wanted).Obeys (fencing (.staticRouteCheck c wanted)) (fun _ _ => True)
      {} := by
  refine ⟨trivial, fun row hrow => ?_⟩
  cases row with
  | none => trivial
  | some row =>
      simp only [Prog.ret_bind]
      split
      · trivial
      rw [Prog.bind_eq, Prog.obeys_bind]
      refine (lease_fences row _).mono fun r v hr => ?_
      cases r with
      | error e => trivial
      | ok x =>
      cases x with
      | none =>
          dsimp only
          rw [Prog.bind_eq, Prog.obeys_bind]
          refine (check_fences c v trivial).mono fun r _ _ => ?_
          cases r <;> trivial
      | some x =>
          obtain ⟨owned, token⟩ := x
          obtain ⟨hacq, hkey⟩ := hr _ rfl
          have hc : owned.checkId = c := hkey.trans (hrow row rfl)
          -- A result is saved for the generation and the token that were acquired.
          have save {f : RouteCheckFields} {v' : FencingView} (hv' : v'.acquired = v.acquired) :
              (saveResult owned token f).Obeys (fencing (.staticRouteCheck c wanted))
                (fun _ _ => True) v' := by
            refine ⟨fun _ => ⟨wanted, owned.generation, token, ?_, hv'.trans hacq, rfl⟩,
              fun _ _ => trivial⟩
            rw [hc]
          dsimp only
          rw [Prog.bind_eq, Prog.obeys_bind, Prog.obeys_attempt]
          refine (runStatic_fences (by simp) owned token _ v rfl).mono fun r v' hv' => ?_
          cases r with
          | ok fields => exact save hv'
          | error e =>
              dsimp only
              split
              · trivial
              · exact save hv'

end RouteCheckService

/-- **Fencing.**  Every task keeps to its monitor. -/
theorem Task.obeys_fencing (T : Task) :
    (T.body S).Obeys (fencing T) (fun _ _ => True) {} := by
  have other (hT : ∀ appid commit force, T ≠ .submitStatic appid commit force)
      (hc : .ensureRow ∉ T.kinds) (hr : .resultRow ∉ T.kinds) :
      (T.body S).Obeys (fencing T) (fun _ _ => True) {} :=
    fences_of_uses (T.body_does S) hT hc hr _ trivial
  have hG := Prog.keeps_compositional (I := api) (M := fencing T) fun _ => True
  have free (hT : ∀ appid commit force, T ≠ .submitStatic appid commit force) (op : Op)
      (hop : Does [.quiet] op) : (call op).Keeps (fencing T) fun _ => True :=
    fences_of_uses (uses_one hop) hT (by simp) (by simp)
  cases T with
  | submitStatic appid commit force =>
      refine ⟨trivial, fun app _ => ?_⟩
      cases app with
      | none => trivial
      | some app =>
          simp only [Prog.ret_bind]
          rw [Prog.bind_eq, Prog.obeys_bind]
          refine (RouteCheckService.submit_fences app commit force _ trivial).mono fun r v _ => ?_
          cases r <;> trivial
  | updateApp appid request =>
      exact updateApp_of S hG (free (by simp)) RouteCheckService.createOrReuse_fences appid request
        (fences_of_uses (K := [.app]) (uses_one ⟨⟨0, 0⟩, none, .of (.app ..)⟩) (by simp) (by simp)
          (by simp)) _ trivial
  | syncApp appid =>
      refine hG.bind (syncApp_of S hG (free (by simp)) RouteCheckService.createOrReuse_fences appid
        fun _ => ?_) (fun _ => hG.ret ()) _ trivial
      exact fences_of_uses (K := [.app]) (uses_one ⟨⟨0, 0⟩, none, .of (.app ..)⟩) (by simp)
        (by simp) (by simp)
  | staticRouteCheck c wanted => exact RouteCheckService.executeStatic_fences c wanted
  | _ => exact other (by simp) (by simp [kinds]) (by simp [kinds])

end Obeys

/-! ### What a call does to a row -/

/-- What an allowed call of a thread with view `v` does to row `k`. -/
inductive RowDeed (k : CheckId) (v : FencingView) :
    Option RouteCheckResult → Option RouteCheckResult → (op : Op) → op.Ret → Prop where
  | same {row : Option RouteCheckResult} {op : Op} {r : op.Ret}
      (ho : ∀ g, op.obtains r ≠ some (k, g)) (hs : ∀ g, op.stores r ≠ some (k, g)) :
      RowDeed k v row row op r
  | created {old : Option RouteCheckResult} {row : RouteCheckResult} (hk : row.checkId = k)
      (h : row.New) (hv : v.drawn = some k) :
      RowDeed k v old (some row) (.ensureRouteCheck row) (row, true)
  | noted {row : RouteCheckResult} {f : RouteCheckFields} {e : RouteCheckExpectation}
      (h : f.Dynamic) :
      RowDeed k v (some row) (some (row.modelCopy f)) (.updateRouteCheck k f e)
        (some (row.modelCopy f))
  | reset {row new : RouteCheckResult} {e : RouteCheckExpectation} (h : new.New) :
      RowDeed k v (some row)
        (some (row.modelCopy (RouteCheckService.resetFields new row.generation)))
        (.updateRouteCheck k (RouteCheckService.resetFields new row.generation) e)
        (some (row.modelCopy (RouteCheckService.resetFields new row.generation)))
  | taken {row : RouteCheckResult} {f : RouteCheckFields} {e : RouteCheckExpectation}
      (h : ¬ row.staticStatus.Terminal) (hg : f.generation.Untouched)
      (hs : f.staticStatus = .set .running) :
      RowDeed k v (some row) (some (row.modelCopy f)) (.updateRouteCheck k f e)
        (some (row.modelCopy f))
  | stored {row : RouteCheckResult} {f : RouteCheckFields} {e : RouteCheckExpectation}
      {token : Uuid} (h : f.Result) (hv : v.acquired = some (k, row.generation, token))
      (ht : row.staticRunToken = some token) (hs : row.staticStatus = .running) :
      RowDeed k v (some row) (some (row.modelCopy f)) (.updateRouteCheck k f e)
        (some (row.modelCopy f))
  | deleted {row : RouteCheckResult} {a commit q : String} {n : Nat} :
      RowDeed k v (some row) none (.deleteRouteCheck a commit q n) true

section Deeds
variable {T : Task} {k : CheckId} {v : FencingView} {t : Nat} {op : Op} {a : Answers}
  {w w' : World} {r : op.Ret}

theorem RouteCheckFields.Result.concludes {f : RouteCheckFields} (h : f.Result) : f.Concludes := by
  rcases h.result with ⟨hs, -⟩ | ⟨hs, -⟩
  · exact ⟨_, hs, .inl rfl⟩
  · exact ⟨_, hs, .inr rfl⟩

theorem Op.obtains_update {c : CheckId} {f : RouteCheckFields} {e : RouteCheckExpectation}
    {row : Option RouteCheckResult} {x : CheckId × Nat}
    (h : (Op.updateRouteCheck c f e).obtains row = some x) :
    ∃ y, row = some y ∧ x = (y.checkId, y.generation) := by
  cases row with
  | none => cases h
  | some y =>
      simp only [obtains] at h
      split at h
      · exact ⟨y, rfl, (Option.some.inj h).symm⟩
      · cases h

/-- A write that does not mention the generation obtains none. -/
theorem Op.obtains_untouched {c : CheckId} {f : RouteCheckFields} {e : RouteCheckExpectation}
    {row : Option RouteCheckResult} (h : f.generation.Untouched) (x : CheckId × Nat) :
    (Op.updateRouteCheck c f e).obtains row ≠ some x := by
  cases row with
  | none => simp [obtains]
  | some y =>
      simp only [obtains]
      revert h
      cases f.generation <;> simp [Change.Untouched]

theorem Op.stores_update {c : CheckId} {f : RouteCheckFields} {e : RouteCheckExpectation}
    {row : Option RouteCheckResult} {x : CheckId × Nat}
    (h : (Op.updateRouteCheck c f e).stores row = some x) :
    ∃ y, row = some y ∧ x = (y.checkId, y.generation) := by
  cases row with
  | none => cases h
  | some y =>
      simp only [stores] at h
      split at h
      · exact ⟨y, rfl, (Option.some.inj h).symm⟩
      · exact ⟨y, rfl, (Option.some.inj h).symm⟩
      · cases h

/-- The row meets what is expected of its generation, its status and its token. -/
theorem RouteCheckExpectation.holds_fields {e : RouteCheckExpectation} {row : RouteCheckResult}
    (h : e.holds row = true) :
    (∀ g, e.generation = .eq g → row.generation = g) ∧
    (∀ s, e.staticStatus = .eq s → row.staticStatus = s) ∧
    ∀ token, e.staticRunToken = .eq token → row.staticRunToken = token := by
  simp only [holds, Bool.and_eq_true] at h
  obtain ⟨⟨⟨⟨⟨hg, hs⟩, ht⟩, -⟩, -⟩, -⟩ := h
  refine ⟨fun g e => ?_, fun s e => ?_, fun token e => ?_⟩
  · rw [e] at hg; exact (Expect.holds_eq _ _).mp hg
  · rw [e] at hs; exact (Expect.holds_eq _ _).mp hs
  · rw [e] at ht; exact (Expect.holds_eq _ _).mp ht

/-- **Deeds on a row.** -/
theorem rowDeed (hw : w.Keyed) (ha : v.allows T op) (hd : ∃ K, Does K op)
    (he : exec t op a w = some (r, w')) (k : CheckId) :
    RowDeed k v (w.repo.routeChecks.lookup k) (w'.repo.routeChecks.lookup k) op r := by
  have hsane := (exec_sane hw he).1
  have hstep := exec_row hw he k
  obtain ⟨K, b, o, kind, -, hd⟩ := hd
  generalize w.repo.routeChecks.lookup k = old at hstep ⊢
  generalize w'.repo.routeChecks.lookup k = new at hstep ⊢
  cases hstep with
  | same hr =>
      cases op with
      | ensureRouteCheck row =>
          obtain ⟨x, created⟩ := r
          refine .same (fun g hg => ?_) (by simp [Op.stores])
          cases created with
          | false => cases hg
          | true =>
              simp only [Op.obtains, Option.some.injEq, Prod.mk.injEq] at hg
              cases (hr hg.1).2
      | updateRouteCheck c f e =>
          -- A row in the answer would be the one that is written.
          have none_of {y : RouteCheckResult} (hy : r = some y) (hk : y.checkId = k) : False := by
            have hc : c = k := (hsane y hy).symm.trans hk
            cases (hr hc).1.symm.trans hy
          refine .same (fun g hg => ?_) fun g hg => ?_
          · obtain ⟨y, hy, e⟩ := Op.obtains_update hg
            exact none_of hy (congrArg Prod.fst e).symm
          · obtain ⟨y, hy, e⟩ := Op.stores_update hg
            exact none_of hy (congrArg Prod.fst e).symm
      | _ => exact .same (fun g => by simp [Op.obtains]) fun g => by simp [Op.stores]
  | inserted hk =>
      cases hd with
      | ensureRow hnew =>
          subst hk
          exact .created rfl hnew ha
      | quiet h => cases h
  | @updated row f e hh =>
      obtain ⟨hgen, hst, htok⟩ := RouteCheckExpectation.holds_fields hh
      cases hd with
      | row hf => exact .noted hf
      | resetRow _ hnew g =>
          cases hgen g rfl
          exact .reset hnew
      | takeRow _ token until_ hs g old expiry =>
          refine .taken ?_ trivial rfl
          rw [hst _ rfl]
          rintro (h | h) <;> rcases hs with rfl | rfl <;> cases h
      | resultRow _ hf g token =>
          obtain ⟨wanted, g', token', -, hv, he⟩ := ha hf.concludes
          cases he
          cases hgen g rfl
          exact .stored hf hv (htok _ rfl) (hst _ rfl)
      | quiet h => cases h
  | deleted => exact .deleted

end Deeds

/-! ### The invariant -/

/-- What a call says about row `k`, if it says something about it. -/
def Event.mark (f : (op : Op) → op.Ret → Option (CheckId × Nat)) (k : CheckId) :
    Event (orchestrator S) → Option Nat
  | .call _ op r => (f op r).bind fun x => if x.1 = k then some x.2 else none
  | .start _ _ | .env _ => none

/-- The generations of row `k` that calls have obtained, the newest first. -/
def generations (k : CheckId) (l : List (Event (orchestrator S))) : List Nat :=
  l.filterMap (Event.mark Op.obtains k)

/-- The generations of row `k` that results were stored for, the newest first. -/
def outcomes (k : CheckId) (l : List (Event (orchestrator S))) : List Nat :=
  l.filterMap (Event.mark Op.stores k)

/-- A row, the generations of it that were obtained, and those that have a result. -/
structure Chronicle (row : Option RouteCheckResult) (gs os : List Nat) : Prop where
  obtained : gs = (List.range' 1 gs.length).reverse
  current : ∀ x, row = some x → x.generation = gs.length
  begun : row ≠ none → gs ≠ []
  le : ∀ g ∈ os, g ≤ gs.length
  nodup : os.Nodup
  concluded : ∀ x, row = some x → x.generation ∈ os → x.staticStatus.Terminal

section Chronicles
variable {k : CheckId} {v : FencingView} {row new : Option RouteCheckResult} {op : Op} {r : op.Ret}
  {t : Nat} {l : List (Event (orchestrator S))} {f : (op : Op) → op.Ret → Option (CheckId × Nat)}

theorem Event.mark_none (h : ∀ g, f op r ≠ some (k, g)) :
    Event.mark (S := S) f k (.call t op r) = none := by
  simp only [mark]
  cases hx : f op r with
  | none => rfl
  | some x => exact if_neg fun e => h x.2 (by rw [hx, ← e])

theorem Event.mark_some {g : Nat} (h : f op r = some (k, g)) :
    Event.mark (S := S) f k (.call t op r) = some g := by
  simp [mark, h]

theorem generations_none (h : ∀ g, op.obtains r ≠ some (k, g)) :
    generations k (.call t op r :: l) = generations k l :=
  List.filterMap_cons_none (Event.mark_none h)

theorem generations_some {g : Nat} (h : op.obtains r = some (k, g)) :
    generations k (.call t op r :: l) = g :: generations k l :=
  List.filterMap_cons_some (Event.mark_some h)

theorem outcomes_none (h : ∀ g, op.stores r ≠ some (k, g)) :
    outcomes k (.call t op r :: l) = outcomes k l :=
  List.filterMap_cons_none (Event.mark_none h)

theorem outcomes_some {g : Nat} (h : op.stores r = some (k, g)) :
    outcomes k (.call t op r :: l) = g :: outcomes k l :=
  List.filterMap_cons_some (Event.mark_some h)

theorem generations_append (l l' : List (Event (orchestrator S))) :
    generations k (l ++ l') = generations k l ++ generations k l' := List.filterMap_append

namespace Chronicle
variable {gs os : List Nat} {x y : RouteCheckResult}

theorem empty : Chronicle none [] [] := by
  constructor <;> simp

/-- The row is written, at the generation it is at. -/
theorem write (h : Chronicle (some x) gs os) (hg : y.generation = x.generation)
    (hs : x.staticStatus.Terminal → y.staticStatus = x.staticStatus) :
    Chronicle (some y) gs os :=
  { h with
    current := by rintro _ ⟨⟩; rw [hg]; exact h.current x rfl
    begun := fun _ => h.begun (by simp)
    concluded := by
      rintro _ ⟨⟩ hm
      rw [hg] at hm
      have ht := h.concluded x rfl hm
      rw [hs ht]
      exact ht }

/-- The next generation is obtained. -/
theorem advance (h : Chronicle row gs os) (hg : y.generation = gs.length + 1) :
    Chronicle (some y) (y.generation :: gs) os where
  obtained := by
    rw [hg, List.length_cons, List.range'_1_concat, List.reverse_append, ← h.obtained,
      Nat.add_comm 1]
    rfl
  current := by rintro _ ⟨⟩; exact hg
  begun _ := by simp
  le g hm := Nat.le_trans (h.le g hm) (by simp)
  nodup := h.nodup
  concluded := by
    rintro _ ⟨⟩ hm
    have := h.le _ hm
    omega

/-- A result is stored for a generation that has none. -/
theorem conclude (h : Chronicle (some x) gs os) (hx : ¬ x.staticStatus.Terminal)
    (hg : y.generation = x.generation) (hy : y.staticStatus.Terminal) :
    Chronicle (some y) gs (x.generation :: os) where
  obtained := h.obtained
  current := by rintro _ ⟨⟩; rw [hg]; exact h.current x rfl
  begun _ := h.begun (by simp)
  le g hm := by
    rcases List.mem_cons.mp hm with rfl | hm
    · exact Nat.le_of_eq (h.current x rfl)
    · exact h.le g hm
  nodup := List.nodup_cons.mpr ⟨fun hm => hx (h.concluded x rfl hm), h.nodup⟩
  concluded := by rintro _ ⟨⟩ _; exact hy

theorem delete (h : Chronicle row gs os) : Chronicle none gs os :=
  { h with
    current := by rintro _ ⟨⟩
    begun := fun e => absurd rfl e
    concluded := by rintro _ ⟨⟩ }

end Chronicle

/-- **Chronicles.**  An allowed call keeps the chronicle of a row. -/
theorem Chronicle.call (h : Chronicle row (generations k l) (outcomes k l))
    (hd : RowDeed k v row new op r) (hkey : ∀ x, row = some x → x.checkId = k)
    (hfresh : v.drawn = some k → row = none ∧ generations k l = []) :
    Chronicle new (generations k (.call t op r :: l)) (outcomes k (.call t op r :: l)) := by
  -- A creation or a reset begins a generation, and a result concludes it.
  cases hd with
  | same ho hs => rw [generations_none ho, outcomes_none hs]; exact h
  | @created _ y hk hnew hv =>
      obtain ⟨-, hnil⟩ := hfresh hv
      rw [generations_some (g := y.generation) (by rw [Op.obtains, hk]),
        outcomes_none (by simp [Op.stores])]
      exact h.advance (by rw [hnil, hnew.generation]; rfl)
  | @noted x f e hf =>
      have hs := hf.staticStatus
      rw [generations_none fun g => Op.obtains_untouched hf.generation _, outcomes_none]
      · exact h.write (hf.generation.apply _) fun _ => hs.apply _
      · intro g hg
        simp only [Op.stores] at hg
        revert hs hg
        cases f.staticStatus <;> simp [Change.Untouched]
  | @reset x new e hnew =>
      have hx := h.current x rfl
      rw [generations_some (g := x.generation + 1), outcomes_none]
      · exact h.advance (y := x.modelCopy (RouteCheckService.resetFields new x.generation))
          (congrArg (· + 1) hx)
      · simp [Op.stores, RouteCheckService.resetFields, hnew.staticStatus]
      · simp [Op.obtains, RouteCheckService.resetFields, hkey x rfl]
  | @taken x f e hx hg hs =>
      rw [generations_none fun g => Op.obtains_untouched hg _, outcomes_none]
      · exact h.write (hg.apply _) fun ht => absurd ht hx
      · simp [Op.stores, hs]
  | @stored x f e token hf hv ht hs =>
      have hgen : f.generation.apply x.generation = x.generation := hf.generation.apply _
      obtain ⟨s, hfs, hterm⟩ := hf.concludes
      have hst : (x.modelCopy f).staticStatus = s := by
        rw [RouteCheckResult.modelCopy_staticStatus, hfs]; rfl
      rw [generations_none fun g => Op.obtains_untouched hf.generation _,
        outcomes_some (g := x.generation)]
      · exact h.conclude (by rw [hs]; rintro (h | h) <;> cases h) hgen (hst ▸ hterm)
      · rcases hterm with rfl | rfl <;> simp [Op.stores, hfs, hkey x rfl, hgen]
  | deleted =>
      rw [generations_none (by simp [Op.obtains]), outcomes_none (by simp [Op.stores])]
      exact h.delete

end Chronicles

/-- What thread `t` has done with the rows. -/
def fencingView (t : Nat) (l : List (Event (orchestrator S))) : FencingView :=
  viewOf (fencing .startRoles) t l

/-- Row `k` and its chronicle; an identifier that has not been drawn, or not been used, is that
of no row. -/
structure Fenced (k : CheckId) (w : World) (l : List (Event (orchestrator S))) : Prop where
  chronicle : Chronicle (w.repo.routeChecks.lookup k) (generations k l) (outcomes k l)
  fresh : w.draws k.drawer ≤ k.serial → w.repo.routeChecks.lookup k = none ∧ generations k l = []
  drawn : ∀ t, (fencingView t l).drawn = some k → k.drawer = t ∧ k.serial < w.draws t ∧
    w.repo.routeChecks.lookup k = none ∧ generations k l = []

section Histories
variable {t t' : Nat} {op : Op} {r : op.Ret} {l : List (Event (orchestrator S))} {k : CheckId}

theorem viewOf_fencing (T : Task) (t : Nat) (l : List (Event (orchestrator S))) :
    viewOf (fencing T) t l = fencingView t l := viewOf_allows t l

theorem fencingView_self :
    fencingView t (.call t op r :: l) = (fencingView t l).observe op r :=
  viewOf_call_self (M := fencing .startRoles) t op r l

theorem fencingView_other (h : t ≠ t') :
    fencingView t' (.call t op r :: l) = fencingView t' l :=
  viewOf_call_other (M := fencing .startRoles) h op r l

/-- What a thread has obtained and taken, it has by a call of its own. -/
theorem fencingView_history :
    (∀ x, (fencingView t l).obtained = some x →
      ∃ (op : Op) (r : op.Ret), .call t op r ∈ l ∧ op.obtains r = some x) ∧
    ∀ x, (fencingView t l).acquired = some x →
      ∃ (op : Op) (r : op.Ret), .call t op r ∈ l ∧ op.acquires r = some x := by
  induction l with
  | nil => exact ⟨fun _ h => (by cases h), fun _ h => (by cases h)⟩
  | cons e l ih =>
      have old {P : (op : Op) → op.Ret → Prop} (h : ∃ (op : Op) (r : op.Ret), .call t op r ∈ l ∧
          P op r) : ∃ (op : Op) (r : op.Ret), .call t op r ∈ e :: l ∧ P op r := by
        obtain ⟨op, r, hm, hp⟩ := h
        exact ⟨op, r, List.mem_cons_of_mem _ hm, hp⟩
      cases e with
      | start t' T => exact ⟨fun x h => old (ih.1 x h), fun x h => old (ih.2 x h)⟩
      | env x => exact ⟨fun x h => old (ih.1 x h), fun x h => old (ih.2 x h)⟩
      | call t' op r =>
          by_cases ht : t' = t
          · subst ht
            rw [fencingView_self]
            refine ⟨fun x h => ?_, fun x h => ?_⟩
            · rcases Option.or_eq_some_iff.mp h with h | ⟨-, h⟩
              · exact ⟨op, r, List.mem_cons_self, h⟩
              · exact old (ih.1 x h)
            · rcases Option.or_eq_some_iff.mp h with h | ⟨-, h⟩
              · exact ⟨op, r, List.mem_cons_self, h⟩
              · exact old (ih.2 x h)
          · rw [fencingView_other ht]
            exact ⟨fun x h => old (ih.1 x h), fun x h => old (ih.2 x h)⟩

/-- What a thread has drawn after a call: what it drew before, or a fresh identifier. -/
theorem FencingView.drawn_cases {v : FencingView} {u : Uuid}
    (h : (v.observe op r).drawn = some u) :
    (op = .uuid4 ∧ HEq r u) ∨ v.drawn = some u ∧ ∀ row, op ≠ .ensureRouteCheck row := by
  cases op with
  | uuid4 => exact .inl ⟨rfl, heq_of_eq (Option.some.inj h)⟩
  | ensureRouteCheck row => cases h
  | _ => exact .inr ⟨h, fun _ => by simp⟩

/-- A row that is absent stays so, unless its identifier is used. -/
theorem RowDeed.absent {v : FencingView} {new : Option RouteCheckResult}
    (h : RowDeed k v none new op r) (hv : v.drawn = some k → ∀ row, op ≠ .ensureRouteCheck row) :
    new = none ∧ generations k (.call t op r :: l) = generations k l := by
  generalize hold : (none : Option RouteCheckResult) = old at h
  cases h with
  | same ho hs => exact ⟨rfl, generations_none ho⟩
  | created hk hnew hd => exact absurd rfl (hv hd _)
  | deleted => cases hold
  | _ => cases hold

namespace Fenced
variable {T : Task} {a : Answers} {w w' : World}

theorem boot (h : w.repo.Pristine) : Fenced (S := S) k w [] where
  chronicle := by rw [h.routeChecks]; exact Chronicle.empty
  fresh _ := by rw [h.routeChecks]; exact ⟨rfl, rfl⟩
  drawn _ hd := by cases hd

/-- **One call.** -/
theorem call (h : Fenced k w l) (hw : w.Keyed) (ha : (fencingView t l).allows T op)
    (hd : ∃ K, Does K op) (he : exec t op a w = some (r, w')) :
    Fenced k w' (.call t op r :: l) := by
  have hdeed := rowDeed hw ha hd he k
  have absent (hnone : w.repo.routeChecks.lookup k = none)
      (hv : (fencingView t l).drawn = some k → ∀ row, op ≠ .ensureRouteCheck row) :
      w'.repo.routeChecks.lookup k = none ∧
        generations k (.call t op r :: l) = generations k l := by
    rw [hnone] at hdeed
    exact hdeed.absent hv
  refine ⟨h.chronicle.call hdeed (hw.rows k) fun hv => (h.drawn t hv).2.2, fun hfresh => ?_,
    fun t' hv => ?_⟩
  · have hle := exec_draws_le he k.drawer
    obtain ⟨hnone, hnil⟩ := h.fresh (Nat.le_trans hle hfresh)
    obtain ⟨hnone', hsame⟩ := absent hnone fun hv => by
      obtain ⟨hdr, hlt, -⟩ := h.drawn t hv
      rw [← hdr] at hlt
      omega
    exact ⟨hnone', hsame.trans hnil⟩
  · have hle := exec_draws_le he t'
    by_cases ht : t = t'
    · subst ht
      rw [fencingView_self] at hv
      rcases FencingView.drawn_cases hv with ⟨rfl, hr⟩ | ⟨hv, hop⟩
      · -- The identifier is drawn here.
        cases he
        cases hr
        obtain ⟨hnone, hnil⟩ := h.fresh (Nat.le_refl _)
        obtain ⟨hnone', hsame⟩ := absent hnone fun _ row => by simp
        exact ⟨rfl, by simp, hnone', hsame.trans hnil⟩
      · obtain ⟨hdr, hlt, hnone, hnil⟩ := h.drawn t hv
        obtain ⟨hnone', hsame⟩ := absent hnone fun _ => hop
        exact ⟨hdr, Nat.lt_of_lt_of_le hlt hle, hnone', hsame.trans hnil⟩
    · rw [fencingView_other ht] at hv
      obtain ⟨hdr, hlt, hnone, hnil⟩ := h.drawn t' hv
      obtain ⟨hnone', hsame⟩ := absent hnone fun hv' =>
        absurd ((h.drawn t hv').1.symm.trans hdr) ht
      exact ⟨hdr, Nat.lt_of_lt_of_le hlt hle, hnone', hsame.trans hnil⟩

theorem start (h : Fenced k w l) (T : Task) : Fenced k w (.start t T :: l) :=
  ⟨h.chronicle, h.fresh, h.drawn⟩

/-- A heartbeat renews the lease of a row, and writes nothing else. -/
theorem env (h : Fenced k w l) {x : Stimulus} (hx : disturb x w = some w') :
    Fenced k w' (.env x :: l) := by
  have hrow := disturb_row hx k
  have hnone (h : w.repo.routeChecks.lookup k = none) : w'.repo.routeChecks.lookup k = none := by
    rw [h] at hrow
    generalize w'.repo.routeChecks.lookup k = new at hrow ⊢
    cases hrow
    rfl
  refine ⟨?_, fun hf => ?_, fun t hv => ?_⟩
  · have hc := h.chronicle
    revert hc
    generalize w.repo.routeChecks.lookup k = old at hrow
    generalize w'.repo.routeChecks.lookup k = new at hrow
    cases hrow with
    | same => exact id
    | renewed => exact fun hc => hc.write rfl fun _ => rfl
  · rw [disturb_draws hx] at hf
    exact ⟨hnone (h.fresh hf).1, (h.fresh hf).2⟩
  · obtain ⟨hdr, hlt, hn, hnil⟩ := h.drawn t hv
    exact ⟨hdr, by rw [disturb_draws hx]; exact hlt, hnone hn, hnil⟩

end Fenced

end Histories

/-- A terminal result stays, until the generation does not. -/
theorem RowDeed.frozen {k : CheckId} {v : FencingView} {x y : RouteCheckResult} {op : Op}
    {r : op.Ret} (h : RowDeed k v (some x) (some y) op r) (hx : x.staticStatus.Terminal)
    (hv : v.drawn ≠ some k) :
    x.generation < y.generation ∨ y.generation = x.generation ∧ y.result = x.result := by
  generalize hold : some x = old, hnew : some y = new at h
  cases h with
  | same => cases hold; cases hnew; exact .inr ⟨rfl, rfl⟩
  | created _ _ hd => exact absurd hd hv
  | noted hf =>
      cases hold; cases hnew
      refine .inr ⟨hf.generation.apply _, ?_⟩
      simp only [RouteCheckResult.result, RouteCheckResult.modelCopy_staticStatus,
        RouteCheckResult.modelCopy_staticCheckPassed, RouteCheckResult.modelCopy_probePayload,
        RouteCheckResult.modelCopy_diffList, RouteCheckResult.modelCopy_staticReportText,
        hf.staticStatus.apply, hf.staticCheckPassed.apply, hf.probePayload.apply,
        hf.diffList.apply, hf.staticReportText.apply]
  | reset => cases hold; cases hnew; exact .inl (Nat.lt_succ_self _)
  | taken hn => cases hold; exact absurd hx hn
  | stored _ _ _ hs =>
      cases hold
      rw [hs] at hx
      rcases hx with hx | hx <;> cases hx
  | deleted => cases hnew

/-- A call that stores a result for a row finds it as the thread has taken it. -/
theorem RowDeed.of_stores {k : CheckId} {v : FencingView} {old new : Option RouteCheckResult}
    {op : Op} {r : op.Ret} {g : Nat} (h : RowDeed k v old new op r)
    (hs : op.stores r = some (k, g)) :
    (∃ f e, op = .updateRouteCheck k f e ∧ f.Concludes) ∧
    ∃ x token, old = some x ∧ x.generation = g ∧ v.acquired = some (k, g, token) ∧
      x.staticRunToken = some token := by
  cases h with
  | same _ hn => exact absurd hs (hn g)
  | created => cases hs
  | @noted x f e hf =>
      have hu := hf.staticStatus
      simp only [Op.stores] at hs
      revert hu hs
      cases f.staticStatus <;> simp [Change.Untouched]
  | reset hnew => simp [Op.stores, RouteCheckService.resetFields, hnew.staticStatus] at hs
  | taken _ _ hr => simp [Op.stores, hr] at hs
  | @stored x f e token hf hv ht =>
      have hgen : x.generation = g := by
        obtain ⟨y, hy, e⟩ := Op.stores_update hs
        cases hy
        exact (hf.generation.apply _).symm.trans (congrArg Prod.snd e).symm
      subst hgen
      exact ⟨⟨f, e, rfl, hf.concludes⟩, x, token, rfl, rfl, hv, ht⟩
  | deleted => cases hs

/-! ### Along a run -/

section Runs
variable {c c₁ c₂ : Config (orchestrator S)} {m : Move (orchestrator S)} {k : CheckId}

/-- The next call of a thread is one its task allows, and does. -/
theorem fencing_next (hb : Boot c) (hr : Run Anything c c₁) {t : Nat} {op : Op}
    {kont : op.Ret → P Unit} (hk : c₁.threads t = some (.call op kont)) :
    ∃ T, .start t T ∈ c₁.log ∧ (fencingView t c₁.log).allows T op ∧ ∃ K, Does K op := by
  obtain ⟨T, hT, ho⟩ := hr.obeys_task (Q := fun _ _ _ => True) Task.obeys_fencing hb.good
    hb.threads hb.log hk
  obtain ⟨T', -, hu⟩ := hr.uses (fun T : Task => T.body_does S) hb.good hb.threads hk
  rw [viewOf_fencing] at ho
  exact ⟨T, hT, ho.1, T'.kinds, hu.1⟩

/-- What a step does to row `k`: a deed of a thread, or the renewal of its lease. -/
theorem row_step (hb : Boot c) (hr : Run Anything c c₁) (hs : Machine.step c₁ m = some c₂) :
    (∃ (t : Nat) (op : Op) (r : op.Ret), RowDeed k (fencingView t c₁.log)
      (c₁.world.repo.routeChecks.lookup k) (c₂.world.repo.routeChecks.lookup k) op r) ∨
    RowRenewal (c₁.world.repo.routeChecks.lookup k) (c₂.world.repo.routeChecks.lookup k) := by
  rcases Machine.step_cases hs with ⟨t, a, op, kont, r, w, -, hk, he, rfl⟩ |
      ⟨t, T, -, -, rfl⟩ | ⟨x, w, -, hx, rfl⟩
  · obtain ⟨T, -, ha, hd⟩ := fencing_next hb hr hk
    exact .inl ⟨t, op, r, rowDeed (hr.good hb.good) ha hd he k⟩
  · exact .inr .same
  · exact .inr (disturb_row hx k)

namespace Fenced

/-- **Runs.** -/
theorem run (hb : Boot c) (hr : Run Anything c c₁) : Fenced k c₁.world c₁.log := by
  induction hr with
  | refl => rw [hb.log]; exact .boot hb.repo
  | snoc hr _ hs ih =>
      rcases Machine.step_cases hs with ⟨t, a, op, kont, r, w, -, hk, he, rfl⟩ |
          ⟨t, T, -, -, rfl⟩ | ⟨x, w, -, hx, rfl⟩
      · obtain ⟨T, -, ha, hd⟩ := fencing_next hb hr hk
        exact ih.call (hr.good hb.good) ha hd he
      · exact ih.start T
      · exact ih.env hx

/-- The generation of a row never decreases. -/
theorem monotone (hb : Boot c) (h₁ : Run Anything c c₁) (h₂ : Run Anything c₁ c₂)
    {x y : RouteCheckResult} (hx : c₁.world.repo.routeChecks.lookup k = some x)
    (hy : c₂.world.repo.routeChecks.lookup k = some y) : x.generation ≤ y.generation := by
  obtain ⟨l, hl⟩ := h₂.log_suffix
  rw [(run hb h₁).chronicle.current x hx, (run hb (h₁.trans h₂)).chronicle.current y hy, hl,
    generations_append, List.length_append]
  omega

/-- The identifier of a row that there is, or was, is not drawn again. -/
theorem undrawn (hb : Boot c) (h₁ : Run Anything c c₁) (h₂ : Run Anything c₁ c₂)
    (hg : generations k c₁.log ≠ []) (t : Nat) : (fencingView t c₂.log).drawn ≠ some k := by
  intro hv
  obtain ⟨l, hl⟩ := h₂.log_suffix
  have hnil := ((run hb (h₁.trans h₂)).drawn t hv).2.2.2
  rw [hl, generations_append] at hnil
  exact hg (List.append_eq_nil_iff.mp hnil).2

/-- A row that has been deleted stays deleted. -/
theorem deleted (hb : Boot c) (h₁ : Run Anything c c₁) (h₂ : Run Anything c₁ c₂)
    (hg : generations k c₁.log ≠ []) (hx : c₁.world.repo.routeChecks.lookup k = none) :
    c₂.world.repo.routeChecks.lookup k = none := by
  induction h₂ with
  | refl => exact hx
  | snoc h₂ _ hs ih =>
      have hrow := row_step (k := k) hb (h₁.trans h₂) hs
      rw [ih] at hrow
      rcases hrow with ⟨t, op, r, hd⟩ | hr
      · exact (hd.absent (t := t) (l := c₁.log) fun hv => absurd hv (undrawn hb h₁ h₂ hg t)).1
      · revert hr
        generalize AList.lookup k _ = new
        rintro ⟨⟩
        rfl

/-- A terminal result stays as long as the generation does. -/
theorem frozen (hb : Boot c) (h₁ : Run Anything c c₁) (h₂ : Run Anything c₁ c₂)
    {x y : RouteCheckResult} (hx : c₁.world.repo.routeChecks.lookup k = some x)
    (ht : x.staticStatus.Terminal) (hy : c₂.world.repo.routeChecks.lookup k = some y) :
    x.generation < y.generation ∨ y.generation = x.generation ∧ y.result = x.result := by
  have hg := (run hb h₁).chronicle.begun (by rw [hx]; simp)
  induction h₂ generalizing y with
  | refl => cases hx.symm.trans hy; exact .inr ⟨rfl, rfl⟩
  | @snoc c' c'' m h₂ _ hs ih =>
      have hrow := row_step (k := k) hb (h₁.trans h₂) hs
      cases hz : c'.world.repo.routeChecks.lookup k with
      | none =>
          have hlost := deleted hb (h₁.trans h₂) (.snoc (.refl _) trivial hs) ?_ hz
          · cases hlost.symm.trans hy
          · obtain ⟨l, hl⟩ := h₂.log_suffix
            rw [hl, generations_append]
            exact fun h => hg (List.append_eq_nil_iff.mp h).2
      | some z =>
          have hle := monotone hb (h₁.trans h₂) (.snoc (.refl _) trivial hs) hz hy
          rcases ih hz with hlt | ⟨hgen, hres⟩
          · exact .inl (Nat.lt_of_lt_of_le hlt hle)
          have hzt : z.staticStatus.Terminal := by
            rw [show z.staticStatus = x.staticStatus from congrArg StaticResult.staticStatus hres]
            exact ht
          rw [hz, hy] at hrow
          rw [← hgen, ← hres]
          rcases hrow with ⟨t, op, r, hd⟩ | hr
          · exact hd.frozen hzt (undrawn hb h₁ h₂ hg t)
          · cases hr <;> exact .inr ⟨rfl, rfl⟩

end Fenced

end Runs

/-! ### The claim -/

/-- **Static checks.**  Along every run, for every row `k`: the generation does not decrease, no
generation is obtained twice, and a submission that is past its reset has obtained the one it
hands to the workers; a result is stored by an execution that has taken the row at the generation
and with the token the row has; a generation has one result, which stays; and a row that was
deleted does not come back. -/
theorem static_fencing (S : Settings) {c : Config (orchestrator S)} (hb : Boot c)
    {c₁ : Config (orchestrator S)} (h₁ : Run Anything c c₁) (k : CheckId) :
    let row (c : Config (orchestrator S)) := InMemoryRepository.getRouteCheck c.world.repo k
    (∀ c₂ x y, Run Anything c₁ c₂ → row c₁ = some x → row c₂ = some y →
      x.generation ≤ y.generation) ∧
    (generations k c₁.log).Nodup ∧
    (∀ t appid commit force g kont, .start t (.submitStatic appid commit force) ∈ c₁.log →
      c₁.threads t = some (.call (.dispatchStaticCheck k g) kont) →
      ∃ (op : Op) (r : op.Ret), .call t op r ∈ c₁.log ∧ op.obtains r = some (k, g)) ∧
    (∀ (t : Nat) (a : Answers) (op : Op) (r : op.Ret) (g : Nat) (c₂ : Config (orchestrator S)),
      Machine.step c₁ (.run t a) = some c₂ → c₂.log = .call t op r :: c₁.log →
      op.stores r = some (k, g) → ∃ wanted token,
        .start t (.staticRouteCheck k wanted) ∈ c₁.log ∧
        (∃ (op' : Op) (r' : op'.Ret), .call t op' r' ∈ c₁.log ∧
          op'.acquires r' = some (k, g, token)) ∧
        ∃ x, row c₁ = some x ∧ x.generation = g ∧ x.staticRunToken = some token) ∧
    (outcomes k c₁.log).Nodup ∧
    (∀ c₂ x y, Run Anything c₁ c₂ → row c₁ = some x → x.staticStatus.Terminal →
      row c₂ = some y → y.generation = x.generation → y.result = x.result) ∧
    ∀ c₂ c₃, Run Anything c₁ c₂ → Run Anything c₂ c₃ → row c₁ ≠ none → row c₂ = none →
      row c₃ = none := by
  intro row
  have hf := Fenced.run (k := k) hb h₁
  refine ⟨fun c₂ x y h₂ hx hy => Fenced.monotone hb h₁ h₂ hx hy, ?_, ?_, ?_, hf.chronicle.nodup,
    fun c₂ x y h₂ hx ht hy hg => ?_, fun c₂ c₃ h₂ h₃ hx hy => ?_⟩
  · -- The generations are obtained one after another.
    rw [hf.chronicle.obtained]
    exact List.nodup_reverse.mpr List.nodup_range'
  · intro t appid commit force g kont hT hk
    obtain ⟨T, hT', ha, -⟩ := fencing_next hb h₁ hk
    exact fencingView_history.1 _ (ha appid commit force (h₁.task_unique hb.log hT' hT))
  · intro t a op r g c₂ hs hl hst
    rcases Machine.step_cases hs with ⟨t', a', op', kont, r', w, hm, hk, he, rfl⟩ |
        ⟨_, _, ⟨⟩, -⟩ | ⟨_, _, ⟨⟩, -⟩
    cases hm
    cases hl
    obtain ⟨T, hT, ha, hd⟩ := fencing_next hb h₁ hk
    obtain ⟨⟨f, e, rfl, hf⟩, x, token, hx, hg, hv, ht⟩ :=
      (rowDeed (h₁.good hb.good) ha hd he k).of_stores hst
    obtain ⟨wanted, g', token', rfl, -, -⟩ := ha hf
    exact ⟨wanted, token, hT, fencingView_history.2 _ hv, x, hx, hg, ht⟩
  · rcases Fenced.frozen hb h₁ h₂ hx ht hy with hlt | ⟨-, hres⟩
    · exact absurd hg (Nat.ne_of_gt hlt)
    · exact hres
  · refine Fenced.deleted hb (h₁.trans h₂) h₃ ?_ hy
    obtain ⟨l, hl⟩ := h₂.log_suffix
    rw [hl, generations_append]
    exact fun h => hf.chronicle.begun hx (List.append_eq_nil_iff.mp h).2

/-- The check is run, submitted again by force, and run again. -/
def Sample.resubmitted : Sample.Schedule := Sample.checked ++
  Sample.doing 2 (.submitStatic "app" none true) 9 ++
  Sample.doing 3 (.staticRouteCheck ⟨0, 0⟩ none) 11

theorem static_fencing_resubmitted :
    let c := Sample.reached Sample.resubmitted (by decide +kernel)
    (generations ⟨0, 0⟩ c.log).Nodup ∧ (outcomes ⟨0, 0⟩ c.log).Nodup ∧
      generations ⟨0, 0⟩ c.log = [2, 1] ∧ outcomes ⟨0, 0⟩ c.log = [2, 1] := by
  obtain ⟨-, hg, -, -, ho, -⟩ := static_fencing _ Sample.boot
    (Sample.reached_run Sample.resubmitted (by decide +kernel)) ⟨0, 0⟩
  exact ⟨hg, ho, by decide +kernel, by decide +kernel⟩

end Orchestrator
