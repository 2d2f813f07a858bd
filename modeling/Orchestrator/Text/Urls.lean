import Mathlib.Data.List.Basic
import Mathlib.Data.List.TakeWhile
import Mathlib.Tactic.ByContra
import Mathlib.Tactic.SplitIfs

/-!
# Text — URLs

`urllib.parse.urlsplit`, and what its result tells of the network location.

* `Rules`: what `urlsplit` asks the modules for Unicode and for IP addresses about.
* `split`, `Parts`: a URL in its five parts.
* `Parts.username`, `Parts.hostAndPort`, `Parts.port`: the network location in its parts.
-/

namespace Orchestrator.Urls

/-- What `_checknetloc` finds of a network location with characters outside ASCII, and
`_check_bracketed_netloc` of one with brackets. -/
structure Rules where
  normal : List Char → Bool
  bracketed : List Char → Bool

structure Parts where
  scheme : List Char
  netloc : List Char
  path : List Char
  query : List Char
  fragment : List Char
  deriving DecidableEq, Repr

/-- A C0 control or a space. -/
def isControl (c : Char) : Bool := c.toNat ≤ 32

/-- `_UNSAFE_URL_BYTES_TO_REMOVE`. -/
def isUnsafe (c : Char) : Bool := c == '\t' || c == '\r' || c == '\n'

def isLetter (c : Char) : Bool := ('a' ≤ c && c ≤ 'z') || ('A' ≤ c && c ≤ 'Z')

def isDigit (c : Char) : Bool := '0' ≤ c && c ≤ '9'

/-- `scheme_chars`. -/
def isSchemeChar (c : Char) : Bool :=
  isLetter c || isDigit c || c == '+' || c == '-' || c == '.'

/-- Where the network location ends. -/
def isDelimiter (c : Char) : Bool := c == '/' || c == '?' || c == '#'

def isAscii (text : List Char) : Bool := text.all fun c => c.toNat < 128

/-- What `urlsplit` reads: nothing before the first visible character, no tabs and no line ends. -/
def clean (url : List Char) : List Char := (url.dropWhile isControl).filter fun c => !isUnsafe c

/-- The scheme, in lower case, and what comes after it. -/
def splitScheme (url : List Char) : List Char × List Char :=
  let before := url.takeWhile (· != ':')
  match url.dropWhile (· != ':') with
  | [] => ([], url)
  | _ :: after =>
      if before.head?.any isLetter && before.all isSchemeChar then (before.map Char.toLower, after)
      else ([], url)

/-- The network location, and what comes after it. -/
def splitNetloc : List Char → List Char × List Char
  | '/' :: '/' :: rest => (rest.takeWhile (!isDelimiter ·), rest.dropWhile (!isDelimiter ·))
  | rest => ([], rest)

/-- What comes after the first `c`, or nothing. -/
def after (c : Char) (text : List Char) : List Char := (text.dropWhile (· != c)).tail

/-- `_check_netloc` and the checks of the brackets. -/
def isNetloc (R : Rules) (netloc : List Char) : Bool :=
  netloc.contains '[' == netloc.contains ']' &&
    (!netloc.contains '[' || R.bracketed netloc) && (isAscii netloc || R.normal netloc)

/-- `urlsplit(url)`; a `ValueError` is `none`. -/
def split (R : Rules) (url : List Char) : Option Parts :=
  let (scheme, rest) := splitScheme (clean url)
  let (netloc, rest) := splitNetloc rest
  if isNetloc R netloc then
    let unmarked := rest.takeWhile (· != '#')
    some { scheme, netloc, path := unmarked.takeWhile (· != '?')
           query := after '?' unmarked, fragment := after '#' rest }
  else none

/-! ### Network locations -/

namespace Parts

/-- `netloc.rpartition("@")`. -/
def cut (p : Parts) : Option (List Char × List Char) :=
  match p.netloc.reverse.dropWhile (· != '@') with
  | [] => none
  | _ :: before => some (before.reverse, (p.netloc.reverse.takeWhile (· != '@')).reverse)

/-- `username`, or nothing where it is `None`. -/
def username (p : Parts) : List Char :=
  match p.cut with
  | some (userinfo, _) => userinfo.takeWhile (· != ':')
  | none => []

/-- `password`, or nothing where it is `None`. -/
def password (p : Parts) : List Char :=
  match p.cut with
  | some (userinfo, _) => after ':' userinfo
  | none => []

/-- `username or password`. -/
def hasCredentials (p : Parts) : Bool := p.username ≠ [] || p.password ≠ []

def hostinfo (p : Parts) : List Char :=
  match p.cut with
  | some (_, hostinfo) => hostinfo
  | none => p.netloc

/-- The name of the host, as it is written, and the port. -/
def hostAndPort (p : Parts) : List Char × List Char :=
  let info := p.hostinfo
  if info.contains '[' then
    let bracketed := after '[' info
    (bracketed.takeWhile (· != ']'), after ':' (after ']' bracketed))
  else (info.takeWhile (· != ':'), after ':' info)

/-- `int(text)`, of digits. -/
def number (digits : List Char) : Nat :=
  digits.foldl (fun n c => 10 * n + (c.toNat - '0'.toNat)) 0

/-- `port`; a `ValueError` is `none`. -/
def port (p : Parts) : Option (Option Nat) :=
  let digits := p.hostAndPort.2
  if digits = [] then some none
  else if digits.all isDigit && number digits ≤ 65535 then some (some (number digits))
  else none

end Parts

end Orchestrator.Urls
