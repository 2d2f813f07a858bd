import Orchestrator.Models.Texts
import Orchestrator.Repository.InMemory
import Orchestrator.Text.Addresses

/-!
# Models — documents

The values PyYAML and the JSON decoder produce, and what Python does with them.

* `Document`: a value.  A mapping is the list of its entries; no key is twice in one that Python
  built (`WellFormed`).
* `truthy`, `text`, `isBool`, `isText`: `bool(x)`, `str(x)`, `x == True` and the like.
* `pyInt`, `Document.toInt`: `int(x)`.
* `field`, `fieldD`, `hasField`: an entry of a mapping, by its text.
-/

namespace Orchestrator
open Addresses (decimalDigit)

/-! ### Values -/

/-- A `float`: with its `repr` and `int(x)`, where it is finite. -/
inductive PyFloat where
  | finite (repr : String) (truncated : Int)
  | nan
  | infinite (negative : Bool)
  deriving DecidableEq, Repr

/-- A key of a mapping: a text, or another hashable value, with its `str`. -/
inductive Key where
  | str (s : String)
  | other (text : String)
  deriving DecidableEq, Repr

inductive Document where
  | null
  | bool (b : Bool)
  | int (n : Int)
  | float (x : PyFloat)
  | str (s : String)
  | list (items : List Document)
  | map (entries : List (Key × Document))
  /-- A date, bytes or a set: its `str`, its `bool`, and its `int`, if it has one. -/
  | other (text : String) (truthy : Bool) (number : Option Int)

/-- The entries of a mapping. -/
abbrev Fields := List (Key × Document)

namespace Key

def text : Key → String
  | str s => s
  | other t => t

/-- `isinstance(key, str)`. -/
def str? : Key → Option String
  | str s => some s
  | other _ => none

end Key

/-- `d.get(key)`, which is `None` for a missing key. -/
def field (d : Fields) (key : String) : Document := (d.lookup (.str key)).getD .null

/-- `key in d`. -/
def hasField (d : Fields) (key : String) : Bool := (d.lookup (.str key)).isSome

/-- `d.get(key, default)`. -/
def fieldD (d : Fields) (key : String) (default : Document) : Document :=
  (d.lookup (.str key)).getD default

/-- Whether every key is one of `allowed`. -/
def fieldsWithin (d : Fields) (allowed : List String) : Bool :=
  d.all fun e => match e.1 with
    | .str s => allowed.contains s
    | .other _ => false

mutual

/-- No mapping in the document has a key twice. -/
def Document.WellFormed : Document → Prop
  | .list items => documentsWellFormed items
  | .map entries => (entries.map Prod.fst).Nodup ∧ entriesWellFormed entries
  | _ => True

def documentsWellFormed : List Document → Prop
  | [] => True
  | d :: l => d.WellFormed ∧ documentsWellFormed l

def entriesWellFormed : List (Key × Document) → Prop
  | [] => True
  | (_, d) :: l => d.WellFormed ∧ entriesWellFormed l

end

/-! ### Texts of values -/

/-- One character of `repr(s)`; the characters beyond ASCII are taken as printable. -/
def reprChar (quote : Char) (c : Char) : List Char :=
  let hex (n : Nat) := "0123456789abcdef".toList.getD n '0'
  if c == '\\' then ['\\', '\\']
  else if c == quote then ['\\', c]
  else if c == '\n' then ['\\', 'n']
  else if c == '\r' then ['\\', 'r']
  else if c == '\t' then ['\\', 't']
  else if c.toNat < 32 || c.toNat == 127 then ['\\', 'x', hex (c.toNat / 16), hex (c.toNat % 16)]
  else [c]

/-- `repr(s)`. -/
def reprText (s : String) : String :=
  let quote := if s.toList.contains '\'' && !s.toList.contains '"' then '"' else '\''
  String.ofList (quote :: s.toList.flatMap (reprChar quote) ++ [quote])

/-- `separator.join(parts)`. -/
def joinTexts (separator : String) : List String → String
  | [] => ""
  | [s] => s
  | s :: l => s ++ separator ++ joinTexts separator l

mutual

/-- `repr(x)`. -/
def Document.repr : Document → String
  | .null => "None"
  | .bool b => if b then "True" else "False"
  | .int n => toString n
  | .float (.finite r _) => r
  | .float .nan => "nan"
  | .float (.infinite negative) => if negative then "-inf" else "inf"
  | .str s => reprText s
  | .list items => "[" ++ joinTexts ", " (documentReprs items) ++ "]"
  | .map entries => "\x7b" ++ joinTexts ", " (entryReprs entries) ++ "\x7d"
  | .other t _ _ => t

def documentReprs : List Document → List String
  | [] => []
  | d :: l => d.repr :: documentReprs l

def entryReprs : List (Key × Document) → List String
  | [] => []
  | (k, d) :: l =>
      ((match k with
        | .str s => reprText s
        | .other t => t) ++ ": " ++ d.repr) :: entryReprs l

end

namespace Document

/-- `str(x)`. -/
def text : Document → String
  | .str s => s
  | d => d.repr

/-- `str(x).lower() if isinstance(x, bool) else str(x)`. -/
def plainText : Document → String
  | .bool b => if b then "true" else "false"
  | d => d.text

/-! ### Tests -/

/-- `bool(x)`. -/
def truthy : Document → Bool
  | null => false
  | bool b => b
  | int n => n != 0
  | float (.finite r _) => r != "0.0" && r != "-0.0"
  | float _ => true
  | str s => s != ""
  | list items => !items.isEmpty
  | map entries => !entries.isEmpty
  | other _ t _ => t

/-- `x is None`. -/
def isNull : Document → Bool
  | null => true
  | _ => false

/-- `x == b`, for a boolean `b`, which is a number to Python. -/
def isBool (b : Bool) : Document → Bool
  | bool b' => b' == b
  | int n => n == if b then 1 else 0
  | float (.finite r _) => if b then r == "1.0" else r == "0.0" || r == "-0.0"
  | _ => false

/-- `x == s`, for a text. -/
def isText (s : String) : Document → Bool
  | str s' => s' == s
  | _ => false

/-- `x in (None, \x7b\x7d)`. -/
def isBare : Document → Bool
  | null | map [] => true
  | _ => false

/-- `hash(x)` raises. -/
def unhashable : Document → Bool
  | list _ | map _ => true
  | _ => false

/-- `x is True`. -/
def isTrue : Document → Bool
  | bool b => b
  | _ => false

end Document

/-! ### Numbers -/

/-- Digits, with a `_` between two of them only. -/
def pyDigits : List Char → Nat → Option Nat
  | [], n => some n
  | '_' :: c :: cs, n => do pyDigits cs (n * 10 + (← decimalDigit c))
  | c :: cs, n => do pyDigits cs (n * 10 + (← decimalDigit c))

/-- Digits, the first of them without a `_` before it. -/
def pyNat : List Char → Option Nat
  | [] => none
  | c :: cs => do pyDigits cs (← decimalDigit c)

/-- `int(s)`. -/
def pyInt (s : String) : Option Int :=
  match (strip s).toList with
  | '-' :: cs => (pyNat cs).map fun n => -(n : Int)
  | '+' :: cs => (pyNat cs).map Int.ofNat
  | cs => (pyNat cs).map Int.ofNat

/-- `int(x)`: `TypeError` and `ValueError` are `none`; that of an infinity is an
`OverflowError`. -/
def Document.toInt : Document → Except Exc (Option Int)
  | .bool b => .ok (some (if b then 1 else 0))
  | .int n => .ok (some n)
  | .float (.finite _ n) => .ok (some n)
  | .float (.infinite _) =>
      .error (exc .overflowError "cannot convert float infinity to integer")
  | .str s => .ok (pyInt s)
  | .other _ _ n => .ok n
  | .null | .float .nan | .list _ | .map _ => .ok none

end Orchestrator
