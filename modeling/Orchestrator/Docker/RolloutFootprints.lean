import Orchestrator.Docker.Rollout
import Orchestrator.Docker.Footprints

/-!
# Docker — footprints of a deployment

Which calls each part of a deployment can make.

* `Looks`: most parts only look.
* `Tracking R`: what the tracker of the deployment calls.
-/

namespace Orchestrator
open Interleaving

/-- A call of the tracker of the deployment. -/
def Tracking (R : Rollout) (op : HostOp) : Prop :=
  ∃ tr op', R.tracker = some tr ∧ Tracks tr op' ∧ op = .repo op'

section
variable {α : Type} {F : HostOp → Prop}

/-- An error under another name is still an error. -/
theorem uses_orRefuse {p : D α} {message : Exc → String} (h : p.Uses F) :
    (DockerSwarmAdapter.orRefuse p message).Uses F :=
  .tryCatch h fun _ => trivial

/-- A check that raises calls nothing. -/
theorem uses_check (x : Except Exc α) : (Prog.ofExcept (I := hostApi) x).Uses F :=
  Prog.uses_ofExcept (I := hostApi) x

end

namespace DockerSwarmAdapter
variable (S : SwarmSettings) (R : Rollout)

/-- Without a tracker there is nothing to guard; with one, it looks. -/
theorem guard_uses_looks : (guard R).Uses Looks := by
  unfold guard
  split
  · exact guard_looks _
  · trivial

/-- Recording is a matter of the tracker. -/
theorem record_tracking (kind : ResourceKind) (name : String) (nativeId : Option String)
    (state : ResourceState) (metadata : Metadata) :
    (record R kind name nativeId state metadata).Uses (Tracking R) := by
  unfold record
  split
  · trivial
  · next tr htr =>
      refine .bind (uses_onHost (guard_tracks tr) fun op h => ⟨tr, op, htr, h, rfl⟩) fun _ => ?_
      exact .bind (uses_onHost (record_tracks tr _) fun op h => ⟨tr, op, htr, h, rfl⟩)
        fun _ => trivial

/-- Comparing an object with the manifest changes nothing. -/
theorem assertTrackedIdentity_looks (kind : ResourceKind) (name : String) (obj : DockerObject) :
    (assertTrackedIdentity S R kind name obj).Uses Looks := by
  unfold assertTrackedIdentity
  split
  · trivial
  · exact .bind (guard_looks _) fun _ => .bind (currentManifest_looks _) fun _ => uses_check _

/-- An object is looked up by its name. -/
theorem getObject_looks (k : Collection) (identifier : String) (message : Exc → String) :
    (getObject R k identifier message).Uses Looks := by
  refine .bind (uses_ask rfl) fun r => ?_
  split <;> trivial

/-- A bind of the workspace is looked up to find its node. -/
theorem workspaceConstraints_looks (a : ServiceArguments) :
    (workspaceConstraints S R a).Uses Looks := by
  unfold workspaceConstraints
  dsimp only
  split
  · trivial
  split
  · trivial
  refine .bind (uses_orRefuse (uses_request (uses_ask rfl))) fun info => ?_
  split <;> trivial

/-- A service that exists must be one of the build. -/
theorem checkExisting_looks (W : Shared) (composeName name : String) (definition : Fields)
    (existing : Option DockerObject) :
    (checkExisting S R W composeName name definition existing).Uses Looks := by
  cases existing with
  | none => trivial
  | some old =>
      refine .bind (uses_check _) fun _ => ?_
      exact .bind (assertTrackedIdentity_looks S R _ _ _) fun _ => uses_check _

/-- So must a network. -/
theorem checkReused_looks (name : String) (network : DockerObject) (created : Bool) :
    (checkReused S R name network created).Uses Looks := by
  unfold checkReused
  split
  · trivial
  · exact .bind (uses_check _) fun _ => assertTrackedIdentity_looks S R _ _ _

/-- Waiting for tasks asks for them again and again. -/
theorem pollTasks_looks (name : String) (service : DockerObject) (polls : Nat) :
    (pollTasks S R name service polls).Uses Looks := by
  have once {again : Option (D Unit)} (h : ∀ p ∈ again, p.Uses Looks) :
      (pollOnce S R name service again).Uses Looks := by
    refine .bind (guard_uses_looks R) fun _ => ?_
    refine .bind (uses_orRefuse (uses_request (uses_ask rfl))) fun tasks => ?_
    dsimp only
    split
    · trivial
    split
    · trivial
    refine .bind (uses_ask rfl) fun late => ?_
    split
    · exact h _ rfl
    · trivial
  induction polls with
  | zero => exact once (by simp)
  | succ polls ih =>
      refine once fun p hp => ?_
      obtain rfl := Option.some.inj (Option.mem_def.mp hp)
      exact ih

/-- A service is looked up, and its tasks waited for. -/
theorem waitForServiceReady_looks (name : String) :
    (waitForServiceReady S R name).Uses Looks := by
  refine .bind (.bind (uses_ask rfl) fun r => ?_) fun service => ?_
  · split <;> trivial
  · split
    · trivial
    · exact pollTasks_looks S R _ _ _

/-- The ports that other services publish are read off. -/
theorem occupiedPublishedPorts_looks (ignored : List String) :
    (occupiedPublishedPorts S R ignored).Uses Looks := by
  refine .bind (uses_orRefuse (uses_request (uses_ask rfl))) fun services => ?_
  dsimp only
  split
  · trivial
  · exact .bind (uses_orRefuse (uses_request (uses_ask rfl))) fun _ => trivial

/-- Whether a network is left over is asked before it is removed. -/
theorem networkHasOtherServices_looks (network : String) (removed : List String) :
    (networkHasOtherServices R network removed).Uses Looks := by
  refine .bind (uses_ask rfl) fun r => ?_
  split <;> trivial

end DockerSwarmAdapter

end Orchestrator
