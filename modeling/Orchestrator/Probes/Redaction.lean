import Orchestrator.Probes.Payloads
import Orchestrator.Text.Replace

/-!
# Probes — redaction

What is hidden from the result of a probe, by the client that makes it (`route_probes`) and again
before it is stored (`dynamic_checks`).

* `secrets`, `redactText`, `redactJson`, `redactBytes`, `headersForResult`: the client.
* `payloadSecrets`, `scrubText`, `scrubBase64`, `scrub`, `redact`: the dynamic check.
* `Arrangement`: the order in which secrets are replaced, the longest first.  It is that of a
  sorted set, and so not determined for texts of one length.
-/

namespace Orchestrator.RouteProbes

/-! ### Texts -/

/-- `c.lower()`, where it is ASCII or has an ASCII character in it. -/
def lowerChar (c : Char) : List Char :=
  if c.toNat = 0x212a then ['k']
  else if c.toNat = 0x130 then ['i', Char.ofNat 0x307]
  else [c.toLower]

/-- `text.lower()`, as it is compared with ASCII words. -/
def lowered (text : String) : List Char := text.toList.flatMap lowerChar

/-- `word in text`. -/
def occurs (word text : List Char) : Bool := decide (word <:+: text)

/-- `text.encode("utf-8")`. -/
def utf8 (text : String) : List UInt8 := text.toList.flatMap String.utf8EncodeChar

/-- `data.decode("utf-8")`, or nothing where it raises. -/
def utf8Decode (data : List UInt8) : Option String := String.fromUTF8? ⟨data.toArray⟩

/-- `text.replace(old, mark)`. -/
def replaceText (old mark text : String) : String :=
  String.ofList (Replace.replace old.toList mark.toList text.toList)

/-! ### Secrets of a request -/

def sensitiveWords : List String :=
  ["authorization", "cookie", "token", "password", "secret", "credential", "apikey"]

/-- `_sensitive_header`. -/
def sensitiveHeader (name : String) : Bool :=
  let normalized := (lowered name).filter fun c => c != '-' && c != '_'
  sensitiveWords.any fun word => occurs word.toList normalized

/-- The user and password of a basic credential, and the password. -/
def basicSecrets (credential : String) : List String :=
  match (Base64.decode credential.toList).bind utf8Decode with
  | none => []
  | some decoded => decoded :: ((splitOnce ':' decoded).map Prod.snd).toList

def authorizationSecrets (value : String) : List String :=
  match splitOnce ' ' value with
  | none => []
  | some (kind, credential) =>
      credential :: if lowered kind = "basic".toList then basicSecrets credential else []

def cookieSecrets (value : String) : List String :=
  (split ';' value).filterMap fun item => (splitOnce '=' item).map fun p => strip p.2

def headerSecrets (name value : String) : List String :=
  if !sensitiveHeader name || value = "" then []
  else
    value :: (if lowered name = "authorization".toList then authorizationSecrets value else []) ++
      (if occurs "cookie".toList (lowered name) then cookieSecrets value else [])

/-- `_secrets`. -/
def secrets (headers : List (String × String)) : List String :=
  (headers.flatMap fun e => headerSecrets e.1 e.2).filter (· ≠ "")

/-- `sorted(secrets, key=len, reverse=True)`, of a set. -/
structure Arrangement where
  arrange : List String → List String
  mem_arrange : ∀ l x, x ∈ arrange l ↔ x ∈ l
  sorted : ∀ l, (arrange l).Pairwise fun a b => b.length ≤ a.length

/-- Texts of one length stay in the order they are found in. -/
def Arrangement.stable : Arrangement where
  arrange l := l.insertionSort fun a b => b.length ≤ a.length
  mem_arrange l x := List.mem_insertionSort _
  sorted l := by
    have total : Std.Total fun a b : String => b.length ≤ a.length := ⟨fun a b => by omega⟩
    have trans : IsTrans String fun a b => b.length ≤ a.length := ⟨fun a b c h k => by omega⟩
    exact List.pairwise_insertionSort _ l

/-! ### Redaction by the client -/

def redacted : String := "[redacted]"

/-- `_redact_text`, over the secrets in order. -/
def redactText : List String → String → String
  | [], value => value
  | secret :: l, value =>
      if value = secret then redacted
      else redactText l (if 4 ≤ secret.length then replaceText secret redacted value else value)

mutual

/-- `_redact_json`. -/
def redactJson (l : List String) : Json → Json
  | .obj fields => .obj (redactFields l fields)
  | .arr items => .arr (redactItems l items)
  | .str text => .str (redactText l text)
  | value => value

def redactItems (l : List String) : List Json → List Json
  | [] => []
  | item :: items => redactJson l item :: redactItems l items

def redactFields (l : List String) : List (String × Json) → List (String × Json)
  | [] => []
  | (key, item) :: fields =>
      (key, if sensitiveHeader key then .str redacted else redactJson l item) ::
        redactFields l fields

end

/-- `_redact_bytes`, over the secrets in order. -/
def redactBytes : List String → List UInt8 → List UInt8
  | [], value => value
  | secret :: l, value =>
      if 4 ≤ secret.length then redactBytes l (Replace.replace (utf8 secret) (utf8 redacted) value)
      else if value = utf8 secret then utf8 redacted
      else redactBytes l value

/-- The loop of `_headers_for_result`, with what remains of its limit. -/
def headersWithin (l : List String) : Int → List (String × String) → List (String × String)
  | _, [] => []
  | remaining, (name, content) :: headers =>
      if sensitiveHeader name then headersWithin l remaining headers
      else
        let value := clip remaining.toNat (redactText l content)
        let remaining := remaining - (name.length + value.length)
        if remaining < 0 then [] else (name, value) :: headersWithin l remaining headers

/-- `_headers_for_result`. -/
def headersForResult (l : List String) (headers : List (String × String)) :
    List (String × String) :=
  headersWithin l 16384 headers

/-! ### Redaction by the dynamic check -/

/-- A character as a pattern compares it, whatever its case. -/
def foldCase (c : Char) : Char :=
  if c.toNat = 0x130 ∨ c.toNat = 0x131 then 'i'
  else if c.toNat = 0x17f then 's'
  else if c.toNat = 0x212a then 'k'
  else c.toLower

/-- `authorization|cookie|token|key|secret|password|credential` in the key. -/
def marksSecret (key : String) : Bool :=
  ["authorization", "cookie", "token", "key", "secret", "password", "credential"].any fun word =>
    occurs word.toList (key.toList.map foldCase)

/-- The texts a marked value stands for. -/
def valueSecrets (key : String) : Json → List String
  | .str value =>
      value :: if lowered key = "authorization".toList then authorizationSecrets value else []
  | .num n => [toString n]
  | .float x => [x.text]
  | .nonfinite .nan => ["nan"]
  | .nonfinite .infinity => ["inf"]
  | .nonfinite .minusInfinity => ["-inf"]
  | _ => []

mutual

def secretTexts : Json → List String
  | .obj fields => fieldSecrets fields
  | .arr items => itemSecrets items
  | _ => []

def itemSecrets : List Json → List String
  | [] => []
  | item :: items => secretTexts item ++ itemSecrets items

def fieldSecrets : List (String × Json) → List String
  | [] => []
  | (key, value) :: fields =>
      (if marksSecret key then valueSecrets key value else []) ++ secretTexts value ++
        fieldSecrets fields

end

/-- `_payload_secrets`. -/
def payloadSecrets (payload : Json) : List String := (secretTexts payload).filter (· ≠ "")

def hidden : String := "[REDACTED]"

/-- What follows a word, whatever its case. -/
def afterWord : List Char → List Char → Option (List Char)
  | [], text => some text
  | _, [] => none
  | w :: word, c :: text => if foldCase c = w then afterWord word text else none

/-- `[A-Za-z0-9._~+/=-]`, whatever its case. -/
def isTokenChar (c : Char) : Bool :=
  (foldCase c).isAlphanum || "._~+/=-".toList.contains c

/-- `(bearer\s+)[A-Za-z0-9._~+/=-]+`. -/
def bearer (text : List Char) : Option Replace.Match :=
  match afterWord "bearer".toList text with
  | none => none
  | some rest =>
      let spaces := rest.takeWhile isSpace
      let token := (rest.dropWhile isSpace).takeWhile isTokenChar
      if spaces = [] ∨ token = [] then none else some ⟨6 + spaces.length, token.length⟩

/-- `first[_-]?last`. -/
def joined (first last : String) (text : List Char) : Option (List Char) :=
  match afterWord first.toList text with
  | some (c :: rest) => afterWord last.toList (if c = '_' ∨ c = '-' then rest else c :: rest)
  | _ => none

/-- `password|passwd|secret|api[_-]?key|access[_-]?token`, and what follows. -/
def afterKeyword (text : List Char) : Option (List Char) :=
  (afterWord "password".toList text).or <| (afterWord "passwd".toList text).or <|
    (afterWord "secret".toList text).or <| (joined "api" "key" text).or (joined "access" "token" text)

/-- `((?:password|passwd|secret|api[_-]?key|access[_-]?token)\s*[=:]\s*)[^\s,;]+`. -/
def assignment (text : List Char) : Option Replace.Match :=
  match (afterKeyword text).map (·.dropWhile isSpace) with
  | some (c :: rest) =>
      let rest := rest.dropWhile isSpace
      let value := rest.takeWhile fun d => !(isSpace d || d == ',' || d == ';')
      if (c = '=' ∨ c = ':') ∧ value ≠ [] then some ⟨text.length - rest.length, value.length⟩
      else none
  | _ => none

/-- Every nonempty secret is replaced, in order. -/
def hideAll : List String → String → String
  | [], item => item
  | secret :: l, item => hideAll l (if secret = "" then item else replaceText secret hidden item)

def scrubText (l : List String) (item : String) : String :=
  let item := Replace.substitute bearer hidden.toList (hideAll l item).toList
  String.ofList (Replace.substitute assignment hidden.toList item)

/-- The loop of `scrub_base64`. -/
def scrubBytes : List String → List UInt8 → List UInt8
  | [], decoded => decoded
  | secret :: l, decoded =>
      scrubBytes l
        (if 4 ≤ secret.length then Replace.replace (utf8 secret) (utf8 hidden) decoded
        else if decoded = utf8 secret then utf8 hidden
        else decoded)

def scrubBase64 (l : List String) (item : String) : String :=
  match Base64.decode item.toList with
  | none => item
  | some decoded => String.ofList (Base64.encode (scrubBytes l decoded))

mutual

def scrub (l : List String) : Json → Json
  | .str item => .str (scrubText l item)
  | .obj fields => .obj (scrubFields l fields)
  | .arr items => .arr (scrubItems l items)
  | item => item

def scrubItems (l : List String) : List Json → List Json
  | [] => []
  | item :: items => scrub l item :: scrubItems l items

def scrubFields (l : List String) : List (String × Json) → List (String × Json)
  | [] => []
  | (key, content) :: fields =>
      (key, match content with
        | .str item => .str (if key = "body_base64" then scrubBase64 l item else scrubText l item)
        | content => scrub l content) :: scrubFields l fields

end

/-- The secrets `_redact` knows: of the environment, and of the requests of the build. -/
def hiddenTexts (environment : List (String × String)) (payload retry : Option Json)
    (extra : List String) : List String :=
  (environment.map Prod.snd).filter (4 ≤ ·.length) ++ payloadSecrets (payload.getD (.obj [])) ++
    payloadSecrets (retry.getD (.obj [])) ++ extra

end Orchestrator.RouteProbes
