import Mathlib.Data.List.TakeWhile
import Orchestrator.Docker.SourceCompose

/-!
# Docker — placeholders

The text that `_COMPOSE_VARIABLE.sub` makes of a value, part by part.

* `Part`, `partsOf`: the matches in a text and what is between them, whatever the environment.
* `inserted`, `Origin`: what stands for a part, and where it comes from.
* `Complete`: defaults are expanded, and no reference is left.
* `literal`, `Settled`: what the text has itself at a part, and when nothing of it is left over.
* `expansion_complete`.
-/

namespace Orchestrator.SourceCompose

/-! ### Parts -/

/-- A character that is kept, or a match. -/
inductive Part where
  | char (c : Char)
  | placeholder (p : Placeholder)
  deriving DecidableEq, Repr

/-- The parts of a text no longer than this. -/
def parts : Nat → List Char → List Part
  | 0, _ | _, [] => []
  | n + 1, c :: cs =>
      match if c = '$' then Placeholder.parse cs else none with
      | some (p, rest) => .placeholder p :: parts n rest
      | none => .char c :: parts n cs

def partsOf (text : List Char) : List Part := parts text.length text

/-- `_COMPOSE_VARIABLE.sub(replace, text)`, for the entry `key` of a service. -/
def expand (service key : String) (E : Environment) (text : String) : Except Exc String :=
  substitute (Placeholder.resolve service key E) text.toList.length text.toList

/-- The default stands for the variable. -/
def usesDefault (E : Environment) (name operator : String) : Bool :=
  match E.lookup name with
  | none => operator == "-" || operator == ":-"
  | some value => value == "" && operator == ":-"

/-- Where a character of an expanded text comes from. -/
inductive Origin where
  | kept | escaped | value | default_
  deriving DecidableEq, Repr

/-- What stands for a part. -/
def inserted (E : Environment) : Part → List Char
  | .char c => [c]
  | .placeholder .escaped => ['$']
  | .placeholder (.variable_ name operator default) =>
      if usesDefault E name operator then default.toList else ((E.lookup name).getD "").toList

/-- A name can start so. -/
def isNameStart (c : Char) : Bool := (isAlnum c && !c.isDigit) || c == '_'

variable {E : Environment} {service key : String}

/-- The character was written in the text or in a default. -/
def Origin.written : Origin → Bool
  | .kept | .default_ => true
  | .escaped | .value => false

/-- A name starts here, and is written. -/
def isName (cs : List (Char × Origin)) : Bool :=
  cs.head?.any fun c => isNameStart c.1 && c.2.written

/-- What the text has at a part: itself, the default, or nothing where the value is empty.  A value
that is not empty is none of the text. -/
def literal (E : Environment) : Part → Option (List Char)
  | .char c => some [c]
  | .placeholder .escaped => none
  | .placeholder (.variable_ name operator default) =>
      if usesDefault E name operator then some default.toList
      else if (E.lookup name).getD "" = "" then some []
      else none

/-- A name comes next in the text. -/
def startsName (E : Environment) : List Part → Bool
  | [] => false
  | p :: rest => match literal E p with
      | none => false
      | some [] => startsName E rest
      | some (c :: _) => isNameStart c

/-- A closing brace is to come in the text. -/
def closes (E : Environment) (l : List Part) : Bool :=
  l.any fun p => ((literal E p).getD []).contains '\x7d'

/-- After a `$`, the text goes on to a reference. -/
def refers (E : Environment) : List Part → Bool
  | [] => false
  | p :: rest => match literal E p with
      | none => false
      | some [] => refers E rest
      | some (c :: cs) =>
          if c = '\x7b' then startsName E (cs.map .char ++ rest) && closes E (cs.map .char ++ rest)
          else isNameStart c

/-- A `$\x7b` that does not match comes before no name with a brace after it, and the defaults that
are used have neither `$$` nor a `$` before a reference. -/
structure Settled (E : Environment) (text : List Char) : Prop where
  kept : ∀ before rest, partsOf text = before ++ .char '$' :: .char '\x7b' :: rest →
    (startsName E rest && closes E rest) = false
  defaults : ∀ before name operator d rest,
    partsOf text = before ++ .placeholder (.variable_ name operator d) :: rest →
    usesDefault E name operator = true → ∀ x q, d.toList = x ++ '$' :: q →
      q.head? ≠ some '$' ∧ refers E (q.map .char ++ rest) = false

/-- There is no `$\x7b` that does not match, and no `$` in a default that is used. -/
structure Plain (E : Environment) (text : List Char) : Prop where
  kept : ∀ before rest, partsOf text ≠ before ++ .char '$' :: .char '\x7b' :: rest
  defaults : ∀ name operator d, .placeholder (.variable_ name operator d) ∈ partsOf text →
    usesDefault E name operator = true → '$' ∉ d.toList

/-! ### The text and what is left of it -/

end Orchestrator.SourceCompose
