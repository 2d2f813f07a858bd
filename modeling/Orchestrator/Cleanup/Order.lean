import Orchestrator.Cleanup.Custody
import Orchestrator.Discipline.Footprints

/-!
# Cleanup — the order of a cleanup

A run that keeps its lease removes services and containers first, and says that it has succeeded
only when nothing is left.  Others may do anything to the host, except that they leave the
resources of the manifest to the holder of its lease.

* `Watch`: a host, and what an observer has seen of a run: whether it took the lease, whether a
  discovery has failed, whether a step has recorded an error, and whether the result is stored.
* `ordering`: what may be removed when, and which result may be stored.
* `cleanup_ordered`: every run keeps to it, whichever of its calls fail.
-/

namespace Orchestrator
open Interleaving

/-! ### What an observer sees -/

/-- The resources in the manifest of `b`. -/
def Host.entries (h : Host) (b : BuildId) : Option ResourceMap :=
  (h.world.repo.buildResources.lookup b).map (·.resources)

/-- Every service and every container is removed. -/
def Cleared (entries : Option ResourceMap) : Prop :=
  ∀ l, entries = some l → ∀ r ∈ l, r.kind = .service ∨ r.kind = .container → r.state = .removed

/-- Every resource is removed. -/
def AllRemoved (entries : Option ResourceMap) : Prop :=
  ∀ l, entries = some l → ∀ r ∈ l, r.state = .removed

structure Watch where
  host : Host
  held : Bool := false
  unfound : Bool := false
  erred : Bool := false
  concluded : Bool := false

/-- The step looks for what belongs to the build. -/
def Op.discovers : Op → Bool
  | .docker (.discover _) => true
  | _ => false

/-- The failure of the step goes into the errors of the run. -/
def Op.reports : Op → Bool
  | .openDocker | .docker (.discover _) | .docker (.waitContainersStopped _)
  | .docker (.verifyEmpty _) => true
  | _ => false

/-- The resource says that the report of the builder could not be verified. -/
def BuildResource.marks (r : BuildResource) : Bool :=
  r.kind == .builderCache && r.state == .error

namespace HostOp

/-- The run takes its lease. -/
def takes : (op : HostOp) → op.Ret → Bool
  | .repo (.claimBuildLease ..), r => r.isSome
  | _, _ => false

/-- An error is recorded. -/
def errs : HostOp → Bool
  | .outcome step failed => failed && step.reports
  | .repo (.putBuildResource _ r _) => r.marks
  | _ => false

/-- A result is stored. -/
def concludes : HostOp → Bool
  | .repo (.updateBuildResources _ f _) => match f.cleanupStatus with
      | .set .succeeded | .set .partialFailed => true
      | _ => false
  | _ => false

/-- Something is removed, and it is neither a service nor a container. -/
def late (op : HostOp) : Bool := op.removes && !op.removesRuntime

/-- A resource is saved. -/
def saves : HostOp → Bool
  | .repo (.putBuildResource ..) => true
  | _ => false

end HostOp

/-- A step to a status, in a run that has not said more than it may: it succeeds only when
everything is removed and nothing went wrong, and what replaces `RUNNING` is a result. -/
def Concludes (b : BuildId) (s : Watch) : HostOp → Prop
  | .repo (.updateBuildResources _ f e) => f.resources = .keep ∧
      ((f.cleanupStatus = .set .succeeded ∧ AllRemoved (s.host.entries b) ∧ s.erred = false) ∨
        f.cleanupStatus = .set .partialFailed ∨
        (f.cleanupStatus = .set .running ∧ e.cleanupStatus ≠ .eq .running))
  | _ => True

section Entries
variable {b : BuildId}

/-- The call leaves the resources of manifests alone. -/
def Op.keeps : Op → Bool
  | .putBuildResource .. | .ensureBuildResources _ | .docker (.discover _)
  | .docker (.verifyEmpty _) => false
  | .updateBuildResources _ f _ => match f.resources with
      | .keep => true
      | .set _ => false
  | _ => true

end Entries

/-! ### Calls on the host -/

/-- The observer has seen nothing new. -/
structure Alike (s t : Watch) : Prop where
  held : t.held = s.held
  unfound : t.unfound = s.unfound
  erred : t.erred = s.erred
  concluded : t.concluded = s.concluded

theorem Alike.refl (s : Watch) : Alike s s := ⟨rfl, rfl, rfl, rfl⟩

theorem Alike.trans {s t u : Watch} (h : Alike s t) (h' : Alike t u) : Alike s u :=
  ⟨h'.held.trans h.held, h'.unfound.trans h.unfound, h'.erred.trans h.erred,
    h'.concluded.trans h.concluded⟩

/-- While the lease is held, the resources are the same. -/
def SameEntries (b : BuildId) (s t : Watch) : Prop :=
  s.held = true → t.host.entries b = s.host.entries b

/-- An observer does not see the call. -/
def HostOp.hidden : HostOp → Bool
  | .repo (.claimBuildLease ..) | .repo (.updateBuildResources ..) | .outcome .. => false
  | .repo (.putBuildResource _ r _) => !r.marks
  | _ => true

section Hosts
variable {b : BuildId} {s t : Watch} {tr : ResourceTracker} {α : Type}

theorem Looks.hidden {op : HostOp} (h : Looks op) :
    op.hidden = true ∧ op.late = false ∧ op.saves = false ∧
      ∀ o, op = .repo o → o.keeps = true := by
  cases op with
  | repo o =>
      cases o <;> first
        | exact ⟨rfl, rfl, rfl, by rintro _ ⟨⟩; rfl⟩
        | cases h
  | docker c o =>
      cases o <;> first
        | exact ⟨rfl, rfl, rfl, by rintro _ ⟨⟩⟩
        | cases h
  | _ => first
      | exact ⟨rfl, rfl, rfl, by rintro _ ⟨⟩⟩
      | cases h

theorem Removes.hidden {op : HostOp} (h : Removes op) :
    op.hidden = true ∧ op.saves = false ∧ ∀ o, op = .repo o → o.keeps = true := by
  rcases h with h | h
  · exact ⟨(Looks.hidden h).1, (Looks.hidden h).2.2⟩
  · cases op with
    | repo o => cases h
    | docker c o =>
        cases o <;> exact ⟨rfl, rfl, by rintro _ ⟨⟩⟩
    | outcome => cases h
    | _ => exact ⟨rfl, rfl, by rintro _ ⟨⟩⟩

theorem RemovesRuntime.late {op : HostOp} (h : RemovesRuntime op) : op.late = false := by
  rcases h with h | h
  · exact (Looks.hidden h).2.1
  · rw [HostOp.late, h, Bool.not_true, Bool.and_false]

theorem Records.hidden {op : HostOp} (h : Records tr op) :
    op.hidden = true ∧ op.late = false := by
  rcases h with h | ⟨r, hr, rfl⟩
  · exact ⟨(Looks.hidden h).1, (Looks.hidden h).2.1⟩
  · refine ⟨?_, rfl⟩
    simp only [HostOp.hidden, BuildResource.marks, Bool.not_eq_true', Bool.and_eq_false_iff,
      beq_eq_false_iff_ne]
    rcases hr with hr | hr
    · exact .inr (by simp [hr])
    · exact .inl hr

end Hosts

/-! ### The calls of the runner -/

/-- What the runner asks for removes something, and neither a service nor a container. -/
def Op.late : Op → Bool
  | .docker (.remove _ r) => r.kind != .service && r.kind != .container
  | .docker (.removeBuildTag ..) | .deleteBuildSnapshot .. => true
  | _ => false

/-- A resource may be saved. -/
def Op.saves : Op → Bool
  | .docker _ | .putBuildResource .. => true
  | _ => false

/-- What was asked for has failed. -/
def Op.failed : (op : Op) → op.Ret → Bool
  | .openDocker, r => !r.isOk
  | .docker _, .done r => !r.isOk
  | _, _ => false

/-- An error is recorded. -/
def Op.errs : (op : Op) → op.Ret → Bool
  | .putBuildResource _ x _, _ => x.marks
  | op, r => op.reports && op.failed r

/-- What an answer shows of the resources, and that an operation is at its end. -/
def Op.shows (b : BuildId) (entries : Option ResourceMap) : (op : Op) → op.Ret → Prop
  | .getBuildResources b', r => b' = b → r.map (·.resources) = entries
  | .docker _, r => ∃ x, r = .done x
  | _, _ => True

/-- The calls of the runner, as it makes them. -/
def steering (b : BuildId) : Contract api Watch where
  does s op r s' := s'.held = (s.held || HostOp.takes (.repo op) r) ∧
    s'.unfound = (s.unfound || op.discovers && op.failed r) ∧
    s'.erred = (s.erred || op.errs r) ∧
    s'.concluded = (s.concluded || HostOp.concludes (.repo op)) ∧
    (op.keeps = true → SameEntries b s s') ∧
    (s.held = true → op.shows b (s'.host.entries b) r)
  allows s op :=
    (op.late = true →
      s.held = true ∧ s.unfound = false ∧ Cleared (s.host.entries b)) ∧
    (op.saves = true → s.concluded = false) ∧ Concludes b s (.repo op)
  holds _ := True

section Carries
variable {S : HostSettings} {b : BuildId} {s t : Watch} {tr : ResourceTracker}

end Carries

/-! ### The phases -/

/-- An observer sees nothing of the call, and nothing late is asked for. -/
def Op.steady : Op → Bool
  | .updateBuildResources .. | .claimBuildLease .. | .openDocker | .deleteBuildSnapshot .. => false
  | .docker (.assertDirectoryUnused ..) => true
  | .docker _ => false
  | .putBuildResource _ r _ => !r.marks
  | _ => true

/-- What has gone wrong is in the errors of the run. -/
structure Noted (st : Cleanup) (s : Watch) : Prop where
  held : s.held = true
  concluded : s.concluded = false
  noted : s.erred = true → st.errors ≠ []

/-- Besides, the run does not rely on a discovery that has failed. -/
structure Going (st : Cleanup) (s : Watch) : Prop extends Noted st s where
  found : st.discoveryComplete = true → s.unfound = false

/-- What a program that may fail does to the run. -/
structure Risks {α : Type} (s : Watch) (r : Except Exc α) (t : Watch) : Prop where
  held : t.held = s.held
  concluded : t.concluded = s.concluded
  alike : ∀ a, r = .ok a → Alike s t

section Phases
variable {S : HostSettings} {b : BuildId} {s t : Watch} {tr : ResourceTracker} {α β : Type}
  {st : Cleanup} {m : BuildResources}

theorem Alike.noted (h : Alike s t) (hs : Noted st s) : Noted st t where
  held := h.held.trans hs.held
  concluded := h.concluded.trans hs.concluded
  noted he := hs.noted (h.erred ▸ he)

theorem Risks.noted {r : Except Exc α} (h : Risks s r t) (hs : Noted st s) (e : Exc) :
    Noted (st.failed e) t where
  held := h.held.trans hs.held
  concluded := h.concluded.trans hs.concluded
  noted _ := by simp [Cleanup.failed]

/-- The program does no harm where it returns. -/
def Risky (b : BuildId) (p : P α) : Prop :=
  ∀ s : Watch, s.held = true → s.concluded = false → p.Safe (steering b) (Risks s) s

theorem Risky.bind {p : P α} {f : α → P β} (hp : Risky b p) (hf : ∀ a, Risky b (f a)) :
    Risky b (p.bind f) := by
  intro s hh hs
  refine Prog.safe_bind.mpr ((hp s hh hs).mono ?_)
  rintro (e | a) t ht
  · exact ⟨ht.held, ht.concluded, by rintro _ ⟨⟩⟩
  · have hst := ht.alike a rfl
    refine (hf a t (ht.held.trans hh) (ht.concluded.trans hs)).mono fun r u hu => ?_
    exact ⟨hu.held.trans hst.held, hu.concluded.trans hst.concluded,
      fun c hc => hst.trans (hu.alike c hc)⟩

/-- The failure of the operation does not go into the errors of the run. -/
def DockerCall.quiet : DockerCall → Bool
  | .remove .. | .removeBuildTag .. | .assertDirectoryUnused .. => true
  | _ => false

theorem deleteBuildSnapshot_safe {appid name : String} {b' : BuildId} (hs : Going st s)
    (hl : s.unfound = false ∧ Cleared (s.host.entries b)) :
    (orRaise (call (.deleteBuildSnapshot appid b' name))).Safe (steering b)
      (fun _ t => Alike s t) s := by
  refine Prog.safe_bind.mpr ⟨⟨fun _ => ⟨hs.held, hl⟩, by rintro ⟨⟩, trivial⟩,
    fun x t _ hd => ⟨trivial, ?_⟩⟩
  obtain ⟨h₁, h₂, h₃, h₄, -⟩ := hd
  rw [Prog.safe_ret]
  exact (Prog.safe_ofExcept (I := api) x).mpr ⟨h₁.trans (Bool.or_false _),
    h₂.trans (Bool.or_false _), h₃.trans (Bool.or_false _), h₄.trans (Bool.or_false _)⟩

/-- The removal of a resource adds nothing to what the run relies on. -/
def Cleanup.SameCourse (st st' : Cleanup) : Prop :=
  st'.errors = st.errors ∧ st'.discoveryComplete = st.discoveryComplete

theorem Going.same {st' : Cleanup} (h : Going st s) (hst : st.SameCourse st') : Going st' s where
  held := h.held
  concluded := h.concluded
  noted he := hst.1 ▸ h.noted he
  found hd := h.found (hst.2 ▸ hd)

end Phases

end Orchestrator
