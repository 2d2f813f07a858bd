import Orchestrator.Docker.Repositories
import Orchestrator.Models.Documents
import Orchestrator.Models.Mappings
import Orchestrator.Templates.Catalog

/-!
# Registry — the synchroniser of base images

`registry.py`, which pulls the images of the catalog and pushes them into Harbor, and
`sync_base_images` of the worker, which does so with each of them.

* `parseStableReference`: the repository and the tag of a source.
* `mirrorPath`, `harborReference`: where it goes.
* `sync`: one synchronisation, with what the Docker client answers.
* `syncBaseImages`: all images of a catalog.

The client is asked to decode what a push reports, so the reports are values already.  The times of
a record are left out.
-/

namespace Orchestrator.DockerRegistrySynchronizer

open Addresses (isHexDigit)

structure RegistrySyncError where
  message : String
  deriving DecidableEq, Repr

/-- An exception: of the adapter, or another one. -/
inductive Raised where
  | registrySyncError (e : RegistrySyncError)
  | other
  deriving DecidableEq, Repr

def syncError {α : Type} (message : String) : Except RegistrySyncError α := .error ⟨message⟩

structure ImageReference where
  repository : String
  tag : String
  deriving DecidableEq, Repr

def ImageReference.value (r : ImageReference) : String := r.repository ++ ":" ++ r.tag

/-! ### References -/

/-- `_DIGEST_PATTERN.fullmatch(text)`. -/
def isDigest (text : String) : Bool :=
  match splitOnce ':' text with
  | some (algorithm, hex) =>
      algorithm ≠ "" &&
        (algorithm.toList.all fun c => isAlnum c || c == '_' || c == '+' || c == '.' || c == '-') &&
        6 ≤ hex.toList.length && hex.toList.all isHexDigit
  | none => false

/-- `_TAG_PATTERN.fullmatch(text)`. -/
def isTag (text : String) : Bool :=
  match text.toList with
  | [] => false
  | c :: cs =>
      (isAlnum c || c == '_') && cs.length ≤ 127 &&
        cs.all fun c => isAlnum c || c == '_' || c == '.' || c == '-'

/-- What stands before the digest, which is checked. -/
def imageName (sourceImage : String) : Except RegistrySyncError String :=
  match rsplit '@' sourceImage with
  | some (name, digest) =>
      if isDigest digest = false then syncError "Base image digest is invalid" else .ok name
  | none => .ok sourceImage

/-- The cut at the last colon, which must come after the last slash. -/
def splitTag (name : String) : Except RegistrySyncError ImageReference :=
  match rsplit ':' name with
  | none => syncError "Base image must use an explicit stable tag"
  | some (repository, tag) =>
      if '/' ∈ tag.toList then syncError "Base image must use an explicit stable tag"
      else if repository = "" ∨ isTag tag = false ∨ lowerText tag = "latest" then
        syncError "Base image must use an explicit stable tag"
      else .ok ⟨repository, tag⟩

/-- `_parse_stable_reference`. -/
def parseStableReference (sourceImage : String) : Except RegistrySyncError ImageReference :=
  if sourceImage = "" ∨ sourceImage ≠ strip sourceImage then
    syncError "Base image reference must be a non-empty string"
  else do
    let name ← imageName sourceImage
    if name.toList.any isSpace ∨ "://".toList <:+: name.toList then
      syncError "Base image reference is invalid"
    else splitTag name

/-- `text.removeprefix(p)`. -/
def removeStart (p text : String) : String :=
  if startsWith text p then String.ofList (text.toList.drop p.toList.length) else text

/-- `_mirror_path`. -/
def mirrorPath (repository : String) : String :=
  if startsWith repository "docker.io/library/" then removeStart "docker.io/library/" repository
  else if startsWith repository "docker.io/" then removeStart "docker.io/" repository
  else repository

/-- A synchroniser: the host of Harbor and the project of the images, and the user, if there is
one. -/
structure Synchronizer where
  registry : String
  project : String
  username : Option String := none
  deriving DecidableEq, Repr

/-- The target of a source. -/
def target (S : Synchronizer) (source : ImageReference) : ImageReference :=
  ⟨S.registry ++ "/" ++ S.project ++ "/" ++ mirrorPath source.repository, source.tag⟩

/-- `harbor_reference`. -/
def harborReference (S : Synchronizer) (sourceImage : String) : Except RegistrySyncError String := do
  let source ← parseStableReference sourceImage
  .ok (target S source).value

/-! ### One synchronisation -/

structure BaseImage where
  sourceImage : String
  harborReference : String
  digest : Option String
  status : String
  error : Option String
  deriving DecidableEq, Repr

/-- What the Docker client does during one synchronisation. -/
structure Docker where
  client : Except Raised Unit
  login : Except Raised Unit
  /-- The attributes of the image. -/
  pull : Except Raised Document
  /-- Whether the answer is not `False`. -/
  tag : Except Raised Bool
  /-- The reports of the push; a single mapping is one report. -/
  push : Except Raised (List Document)

/-- `_event_error`. -/
def eventError (event : Fields) : Bool :=
  (field event "error").truthy ||
    match field event "errorDetail" with
    | .map detail => (field detail "message").truthy
    | _ => false

def digestText : Document → Option String
  | .str s => if isDigest s then some s else none
  | _ => none

/-- `_event_digest`. -/
def eventDigest (event : Fields) : Option String :=
  let auxiliary := match field event "aux" with
    | .map auxiliary => [field auxiliary "Digest", field auxiliary "digest"]
    | _ => []
  ([field event "digest", field event "Digest"] ++ auxiliary).findSome? digestText

/-- `_push_events`. -/
def pushEvents (response : List Document) : List Fields :=
  response.filterMap fun
    | .map event => some event
    | _ => none

/-- One report of the loop in `_push`. -/
def readEvent (digest : Option String) (event : Fields) : Except Raised (Option String) :=
  if eventError event then .error (.registrySyncError ⟨"Harbor rejected the base image push"⟩)
  else .ok ((eventDigest event).or digest)

/-- `_image_digest`. -/
def imageDigest (attributes : Document) (targetRepository : String) : Option String :=
  match attributes with
  | .map attributes =>
      match fieldD attributes "RepoDigests" (.list []) with
      | .list items => items.findSome? fun
          | .str item => match rsplit '@' item with
            | some (repository, digest) =>
                if repository = targetRepository ∧ isDigest digest = true then some digest else none
            | none => none
          | _ => none
      | _ => none
  | _ => none

/-- The image is pulled and tagged; the answer is its attributes. -/
def prepare (S : Synchronizer) (d : Docker) : Except Raised Document := do
  d.client
  if S.username.isSome then d.login else .ok ()
  let image ← d.pull
  let tagged ← d.tag
  if tagged then .ok image
  else .error (.registrySyncError ⟨"Docker could not tag the base image"⟩)

/-- It is pushed; the answer is its digest, if one is known. -/
def publish (d : Docker) (target : ImageReference) (image : Document) :
    Except Raised (Option String) := do
  let response ← d.push
  let digest ← (pushEvents response).foldlM readEvent none
  .ok (digest.or (imageDigest image target.repository))

/-- `except RegistrySyncError: raise`, and of any other exception the plain text. -/
def Raised.toSyncError : Raised → RegistrySyncError
  | .registrySyncError e => e
  | .other => ⟨"Unable to synchronize base image with Harbor"⟩

/-- What a synchronisation returns, and the target it has pushed to. -/
structure Synchronized where
  result : Except RegistrySyncError BaseImage
  pushed : Option ImageReference

/-- `sync`. -/
def sync (S : Synchronizer) (d : Docker) (sourceImage : String) : Synchronized :=
  match parseStableReference sourceImage with
  | .error e => ⟨.error e, none⟩
  | .ok source =>
      match prepare S d with
      | .error e => ⟨.error e.toSyncError, none⟩
      | .ok image =>
          let result := match publish d (target S source) image with
            | .error e => .error e.toSyncError
            | .ok digest => .ok ⟨sourceImage, (target S source).value, digest, "synced", none⟩
          ⟨result, some (target S source)⟩

/-! ### All images -/

/-- `sorted({...})`. -/
def sources (c : Templates.TemplateCatalog) : List String :=
  (c.components.flatMap fun e => e.2.images).dedup.mergeSort fun a b => decide (a ≤ b)

/-- `_save_base_image_failure`, of an exception with a text of its own. -/
def failedImage (source message fallback : String) : BaseImage :=
  ⟨source, "", none, "failed",
    some (if strip message = "" then fallback else takeText 2000 (strip message))⟩

/-- The record of a source. -/
def recordOf (S : Synchronizer) (d : Docker) (source : String) : BaseImage :=
  match (sync S d source).result with
  | .ok image => image
  | .error e => failedImage source e.message "Base image synchronization failed"

/-- What the task reports. -/
structure SyncResults where
  total : Nat
  synced : Nat
  failed : Nat
  deriving DecidableEq, Repr

/-- `sync_base_images`: the records that are saved, in their order, and the report. -/
def syncBaseImages (registry : Except String Synchronizer) (answers : String → Docker)
    (c : Templates.TemplateCatalog) : List BaseImage × SyncResults :=
  let records := (sources c).map fun source => match registry with
    | .error message => failedImage source message "Base image synchronization is not configured"
    | .ok S => recordOf S (answers source) source
  (records, ⟨records.length, records.countP (·.status == "synced"),
    records.countP (·.status == "failed")⟩)

end Orchestrator.DockerRegistrySynchronizer
