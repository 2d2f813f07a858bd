import Orchestrator.Probes.Redaction
import Orchestrator.Text.Patterns

/-!
# Diagnostics — redaction

What `redact_console` makes of the console of a Jenkins build.  The characters that `\w` stands for
are those of the Unicode tables, a parameter here.

* `variants`: the forms in which a sensitive value is looked for.
* `withoutNoise`, `stripConsoleNoise`: without notes of Jenkins and control sequences.
* `redactVariants`, `beforeCredentials`, `redactConsole`: the substitutions, one after another.
-/

namespace Orchestrator.JenkinsDiagnostics
open Pattern RouteProbes

/-! ### Sets of characters -/

def between (first last c : Char) : Bool := first ≤ c && c ≤ last

/-- `[\x00-\x08\x0b-\x1f\x7f]`. -/
def isNoise (c : Char) : Bool :=
  c.toNat ≤ 0x08 || (0x0b ≤ c.toNat && c.toNat ≤ 0x1f) || c.toNat == 0x7f

/-- `[a-z0-9]`, whatever its case. -/
def isAlnumFold (c : Char) : Bool := (foldCase c).isLower || c.isDigit

/-- `[a-z0-9+.-]`, whatever its case. -/
def isSchemeChar (c : Char) : Bool := isAlnumFold c || "+.-".toList.contains c

/-- `[a-z0-9+/_.=~-]`, whatever its case. -/
def isCredentialChar (c : Char) : Bool := isAlnumFold c || "+/_.=~-".toList.contains c

def isQuote (c : Char) : Bool := c == '"' || c == '\''

/-! ### Patterns -/

/-- `_CONSOLE_NOTE`. -/
def consoleNote : Pattern :=
  chain [literal id "\x1b[8mha:".toList, many false fun _ => true, literal id "\x1b[0m".toList]

/-- `_ANSI`. -/
def ansi : Pattern :=
  chain [set (· == '\x1b'), oneOf [
    chain [set (· == '['), many true (between '0' '?'), many true (between ' ' '/'),
      set (between '@' '~')],
    chain [set (· == ']'), many true (· != '\x07'),
      oneOf [set (· == '\x07'), literal id ['\x1b', '\\']]]]]

/-- A short value, that no word goes on from. -/
def short (word : Char → Bool) (value : String) : Pattern :=
  seq (notBehind word) (seq (literal id value.toList) (notAhead word))

def privateKey : Pattern :=
  chain [literal id "-----BEGIN ".toList, many true (· != '-'),
    literal id "PRIVATE KEY-----".toList, many false fun _ => true,
    oneOf [chain [literal id "-----END ".toList, many true (· != '-'),
      literal id "PRIVATE KEY-----".toList], atEnd]]

/-- A URL up to its user; group 1 is its scheme. -/
def userInfo : Pattern :=
  seq (notBehind isSchemeChar)
    (seq (group 1 (chain [set fun c => (foldCase c).isLower, many true isSchemeChar,
        literal id "://".toList]))
      (chain [some_ fun c => !isSpace c && c != '/' && c != '@', set (· == '@')]))

/-- A URL with a query; group 1 is what comes before it. -/
def query : Pattern :=
  seq (group 1 (chain [literal foldCase "http".toList, maybe (literal foldCase "s".toList),
      literal id "://".toList,
      some_ fun c => !isSpace c && !"?'\"<>".toList.contains c]))
    (chain [set (· == '?'), some_ fun c => !isSpace c && !"'\"<>".toList.contains c])

/-- A credential; group 1 is its kind. -/
def credential (word : Char → Bool) : Pattern :=
  seq (boundary word)
    (seq (group 1 (oneOf [literal foldCase "bearer".toList, literal foldCase "basic".toList]))
      (chain [some_ isSpace, some_ isCredentialChar]))

/-- The name of a secret. -/
def secretName : Pattern :=
  oneOf [literal foldCase "password".toList, literal foldCase "passwd".toList,
    literal foldCase "token".toList, literal foldCase "secret".toList,
    chain [literal foldCase "api".toList, maybe (set fun c => c == '-' || c == '_'),
      literal foldCase "key".toList],
    literal foldCase "authorization".toList, literal foldCase "credential".toList]

/-- A secret with its name; group 1 is what comes before the secret. -/
def assignment (word : Char → Bool) : Pattern :=
  let nameChar := fun c => word c || c == '.' || c == '-'
  seq (notBehind nameChar)
    (seq (group 1 (chain [maybe (set isQuote), many true nameChar, secretName,
        many true nameChar, maybe (set isQuote), many true isSpace,
        set fun c => c == ':' || c == '=', many true isSpace]))
      (oneOf [
        chain [set (· == '"'), many true fun c => !"\"\r\n".toList.contains c, set (· == '"')],
        chain [set (· == '\''), many true fun c => !"'\r\n".toList.contains c, set (· == '\'')],
        some_ fun c => !isSpace c && c != ',' && c != ';']))

/-! ### Sensitive values -/

/-- One byte of `quote(value, safe="")`. -/
def quoteByte (n : Nat) : List Char :=
  let c := Char.ofNat n
  if c.isAlphanum ∨ c ∈ "_.-~".toList then [c]
  else ['%', (hexChar (n / 16)).toUpper, (hexChar (n % 16)).toUpper]

/-- `quote(value, safe="")`. -/
def quote (value : String) : List Char := (utf8 value).flatMap fun b => quoteByte b.toNat

/-- One unit of UTF-16, as `json.dumps` escapes it. -/
def escapeUnit (n : Nat) : List Char :=
  ['\\', 'u', hexChar (n / 4096), hexChar (n / 256 % 16), hexChar (n / 16 % 16), hexChar (n % 16)]

/-- One character of `json.dumps(value)[1:-1]`. -/
def escapeAscii (c : Char) : List Char :=
  if c.toNat < 0x7f then escapeChar c
  else if c.toNat < 0x10000 then escapeUnit c.toNat
  else
    let n := c.toNat - 0x10000
    escapeUnit (0xd800 + n / 1024) ++ escapeUnit (0xdc00 + n % 1024)

/-- The forms of a value. -/
def variants (value : String) : List String :=
  [value, String.ofList (quote value), String.ofList (Base64.encode (utf8 value)),
    String.ofList (value.toList.flatMap escapeAscii),
    String.ofList (value.toList.flatMap escapeChar)]

/-- The forms of the values, empty ones left out. -/
def allVariants (values : List String) : List String :=
  (values.filter (· ≠ "")).flatMap variants

/-! ### Redaction -/

def stars : List Char := "***".toList

/-- The mark, with the newlines of what it stands for. -/
def starsFor (text : List Char) : List Char := stars ++ List.replicate (text.count '\n') '\n'

/-- Without notes and control sequences. -/
def withoutNoise (text : List Char) : List Char :=
  sub ansi (fun _ => []) (sub consoleNote (fun _ => []) text)

/-- `_strip_console_noise`. -/
def stripConsoleNoise (text : List Char) : List Char := (withoutNoise text).filter (!isNoise ·)

section
variable (word : Char → Bool)

/-- One form of a value is replaced. -/
def redactVariant (text : List Char) (value : String) : List Char :=
  if 4 ≤ value.length then Replace.replace value.toList (starsFor value.toList) text
  else sub (short word value) (fun _ => stars) text

def redactVariants (forms : List String) (text : List Char) : List Char :=
  forms.foldl (redactVariant word) text

variable (A : Arrangement) (values : List String)

/-- The text when the credentials are looked for. -/
def beforeCredentials (text : List Char) : List Char :=
  let text := redactVariants word (A.arrange (allVariants values)) (withoutNoise text)
  let text := sub privateKey (fun m => starsFor m.taken) text
  let text := sub userInfo (fun m => m.group 1 ++ stars ++ ['@']) text
  sub query (fun m => m.group 1 ++ '?' :: stars) text

/-- `redact_console`. -/
def redactConsole (text : List Char) : List Char :=
  let text := beforeCredentials word A values text
  let text := sub (credential word) (fun m => m.group 1 ++ ' ' :: stars) text
  let text := sub (assignment word) (fun m => m.group 1 ++ stars) text
  text.filter (!isNoise ·)

end

end Orchestrator.JenkinsDiagnostics
