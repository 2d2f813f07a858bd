import Orchestrator.Probes.Redaction
import Orchestrator.Runtime.Calls

/-!
# Runtime — settings and pure functions

`Settings` holds the configuration the modelled functions read, and functions that only compute
with text or documents and that the services do not look into: decryption, naming, and the checks
of a Compose document.  Where the Docker adapter is part of the system, its `Settings` have the
names and the checks of the adapter (`HostSettings.services`, `SiteSettings.services`).

* `validateProbePayload`, `retryPayload`: the checks of the probes, of what records hold.
* `scrub`, `scrubText`: `_redact`, for the secrets of a build.
-/

namespace Orchestrator

/-- The decrypted environment of an application. -/
abbrev Environment := List (String × String)

/-- What `_redact` hides: the values of an environment, and what a payload marks as secret. -/
structure Secrets where
  environmentCiphertext : Option String
  probePayload : Option Json
  retryPayload : Option Json
  extra : Option Json := none

structure Settings where
  publicHost : Option String
  publicScheme : String
  celeryMaxPollAttempts : Nat
  celeryPollIntervalSeconds : Nat
  celeryRecoveryIntervalSeconds : Nat
  deploymentReadinessTimeoutSeconds : Nat
  routeCheckLeaseSeconds : Nat
  failureSummaryMaxChars : Nat
  /-- A GitLab adapter is configured. -/
  gitlab : Bool
  workspaceDownloadBaseUrl : Option String
  /-- `urlsplit(url).scheme in ("http", "https")`. -/
  isHttpUrl : String → Bool
  /-- The host `_probe_public_ports` connects to, from `public_host`. -/
  readinessHost : Except Exc (Option String)
  buildNamespace : String → BuildId → String
  /-- `_image_repository`. -/
  imageRepository : String → Except Exc String
  /-- `expected_repository` of the cleanup runner. -/
  expectedRepository : String → String
  snapshotPath : String → BuildId → String
  decryptEnvironment : Option String → Except Exc Environment
  resolveApplicationEnvironment : Compose → Environment → Except Exc Compose
  validateSourceCompose : Compose → Except Exc Unit
  validateBuildCompose : Compose → Environment → Except Exc Unit
  validateArtifactTopology : Compose → Compose → Except Exc Unit
  validateDeploymentCompose : Compose → Except Exc Unit
  /-- `request.as_parameters()` raises, or not. -/
  asParameters : JenkinsBuildRequest → Except Exc Unit
  /-- `Draft202012Validator.check_schema` accepts the document. -/
  isJsonSchema : Json → Bool
  protobuf : RouteProbes.Protobuf
  /-- The order of `sorted(set(secrets), key=len, reverse=True)`. -/
  arrangement : RouteProbes.Arrangement

namespace Settings
variable (S : Settings)

/-- `validate_probe_payload`, of what a record or an agent holds. -/
def validateProbePayload (payload : Option Json) (requireRoute : Option String) :
    Except Exc Json :=
  RouteProbes.validateProbePayload S.protobuf (payload.getD .null) requireRoute

/-- The `protocol` of a payload is `grpc`. -/
def isGrpc (_ : Settings) (payload : Json) : Bool :=
  RouteProbes.isGrpc (RouteProbes.objectOf (some payload))

def retryPayload (original retry : Json) (requireRoute : Option String) : Except Exc Json :=
  RouteProbes.retryPayload S.protobuf (RouteProbes.objectOf (some original)) retry requireRoute

/-- The environment that is hidden: none, where it cannot be decrypted. -/
def hiddenEnvironment (hidden : Secrets) : Environment :=
  (S.decryptEnvironment hidden.environmentCiphertext).toOption.getD []

/-- The secrets of `_redact`, in their order. -/
def hiddenTexts (hidden : Secrets) : List String :=
  S.arrangement.arrange (RouteProbes.hiddenTexts (S.hiddenEnvironment hidden) hidden.probePayload
    hidden.retryPayload (hidden.extra.elim [] RouteProbes.payloadSecrets))

def scrub (hidden : Secrets) (value : Json) : Json :=
  RouteProbes.scrub (S.hiddenTexts hidden) value

def scrubText (hidden : Secrets) (text : String) : String :=
  RouteProbes.scrubText (S.hiddenTexts hidden) text

end Settings

end Orchestrator
