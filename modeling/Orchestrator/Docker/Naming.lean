import Orchestrator.Models.Texts
import Orchestrator.Repository.InMemory

/-!
# Docker — names

`naming.py`: the names of an application and of its builds outside the orchestrator.

* `externalNamespace`: of an application; a canonical identifier is kept, any other is encoded.
* `buildNamespace`: of one build.
* `boundedResourceName`, `managedVolumeName`: names no longer than Docker allows.

`Sha256` is the digest; nothing is assumed of it but the length of its hexadecimal form.  The
digests of two inputs are only ever compared as prefixes, and where a result depends on their
being different, it says so.
-/

namespace Orchestrator

structure Sha256 where
  hexdigest : String → String
  length_hexdigest : ∀ s, (hexdigest s).toList.length = 64

/-- `sha256(s).hexdigest()[:n]`. -/
def Sha256.short (H : Sha256) (n : Nat) (s : String) : String :=
  String.ofList ((H.hexdigest s).toList.take n)

theorem Sha256.length_short (H : Sha256) {n : Nat} (hn : n ≤ 64) (s : String) :
    (H.short n s).toList.length = n := by
  simp [short, H.length_hexdigest, hn]

def namingError {α : Type} (message : String) : Except Exc α := .error (exc .valueError message)

/-! ### Patterns -/

def isLowerAlnum (c : Char) : Bool := ('a' ≤ c && c ≤ 'z') || ('0' ≤ c && c ≤ '9')

def isAlnum (c : Char) : Bool := isLowerAlnum c || ('A' ≤ c && c ≤ 'Z')

/-- `APPID_PATTERN.fullmatch(value)`. -/
def isAppid (value : String) : Bool :=
  match value.toList with
  | [] => false
  | c :: cs => isAlnum c && cs.all fun c => isAlnum c || c == '_' || c == '-'

/-- `re.fullmatch(r"[A-Za-z0-9][A-Za-z0-9_.-]*", value)`. -/
def isResourceName (value : String) : Bool :=
  match value.toList with
  | [] => false
  | c :: cs => isAlnum c && cs.all fun c => isAlnum c || c == '_' || c == '.' || c == '-'

/-- Where the match of `DOCKER_COMPONENT_PATTERN` stands: at the start, in a word, or in one of
the separators. -/
inductive ComponentState where
  | start | word | dot | underscore | underscores | dashes
  deriving DecidableEq

def ComponentState.next : ComponentState → Char → Option ComponentState
  | s, c =>
      if isLowerAlnum c then some .word
      else match s, c with
        | .word, '.' => some .dot
        | .word, '_' => some .underscore
        | .underscore, '_' => some .underscores
        | .word, '-' | .dashes, '-' => some .dashes
        | _, _ => none

/-- `is_docker_repository_component`. -/
def isDockerRepositoryComponent (value : String) : Bool :=
  value.toList.foldlM ComponentState.next .start == some .word

/-- `re.fullmatch(r"[a-f0-9]{32}", value)`. -/
def isBuildId (value : String) : Bool :=
  value.toList.length == 32 && value.toList.all fun c =>
    ('a' ≤ c && c ≤ 'f') || ('0' ≤ c && c ≤ '9')

/-! ### Namespaces -/

def validateAppid (value : String) : Except Exc String :=
  if value.toList.length = 0 ∨ 64 < value.toList.length then
    namingError "appid must be between 1 and 64 characters"
  else if isAppid value = false then
    namingError ("appid must start with a letter or number and contain only letters, numbers, " ++
      "underscores, and hyphens")
  else .ok value

def namespacePrefix : String := "appid-v1-"

def hexDigit (n : Nat) : Char := ("0123456789abcdef".toList.getD n '0')

/-- `value.encode("utf-8").hex()`, of an identifier, which is ASCII. -/
def hexEncode (value : String) : String :=
  String.ofList (value.toList.flatMap fun c => [hexDigit (c.toNat / 16), hexDigit (c.toNat % 16)])

def externalNamespace (appid : String) : Except Exc String := do
  let raw ← validateAppid appid
  if startsWith raw namespacePrefix = false ∧ isDockerRepositoryComponent raw = true then .ok raw
  else .ok (namespacePrefix ++ hexEncode raw)

def validateBuildId (buildId : String) : Except Exc String :=
  if isBuildId buildId then .ok buildId
  else namingError "Build identifier must contain 32 lowercase hexadecimal characters"

/-- `json.dumps([first, second], separators=(",", ":"))`, of texts that need no escapes. -/
def jsonPair (first second : String) : String :=
  String.ofList (['[', '"'] ++ first.toList ++ ['"', ',', '"'] ++ second.toList ++ ['"', ']'])

def buildNamespacePrefix : String := "build-v1-"

def buildNamespace (H : Sha256) (appid buildId : String) : Except Exc String := do
  let appid ← validateAppid appid
  let buildId ← validateBuildId buildId
  .ok (buildNamespacePrefix ++ H.short 32 (jsonPair appid buildId))

/-! ### Bounded names -/

def maxDockerNameLength : Nat := 63

/-- `text[:n]`. -/
def takeText (n : Nat) (text : String) : String := String.ofList (text.toList.take n)

/-- `text[-n:]`. -/
def takeEnd (n : Nat) (text : String) : String :=
  String.ofList (text.toList.drop (text.toList.length - n))

/-- `bounded_resource_name`, with its default bound; the parts are not empty. -/
def boundedResourceName (H : Sha256) (first : String) (suffix : Option String := none) : String :=
  let raw := match suffix with
    | some suffix => first ++ "-" ++ suffix
    | none => first
  if raw.toList.length ≤ maxDockerNameLength then raw
  else
    let digest := H.short 10 raw
    let room := maxDockerNameLength - digest.toList.length - 1
    takeEnd maxDockerNameLength (takeText room raw ++ "-" ++ digest)

/-- `text.lower()`, of an ASCII text. -/
def lowerText (text : String) : String := String.ofList (text.toList.map Char.toLower)

def volumeIdentityName (H : Sha256) (kind first second : String) : String :=
  let digest := H.short 32 (jsonPair first second)
  let readable := lowerText (kind ++ "-" ++ first ++ "-" ++ second)
  takeText (maxDockerNameLength - digest.toList.length - 1) readable ++ "-" ++ digest

def managedVolumeName (H : Sha256) (ns alias_ : String) : Except Exc String :=
  if isDockerRepositoryComponent ns = false then
    namingError "managed volume namespace must be a Docker repository component"
  else if isResourceName alias_ = false then
    namingError "managed volume alias must be a Docker resource name"
  else .ok (volumeIdentityName H "vol-v1" ns alias_)

end Orchestrator
