import Mathlib.Algebra.Group.Nat.Defs
import Mathlib.Algebra.Ring.Int.Defs
import Orchestrator.Models.Documents

/-!
# Models — decimals

`decimal.Decimal`, in the default context: 28 digits, half to even.

* `Decimal`: a coefficient and a power of ten, or one of the special values.
* `parseDecimal`: `Decimal(s)`.
* `mul`, `add`, `toInt`.
-/

namespace Orchestrator
open Addresses (decimalDigit)

inductive Decimal where
  | number (coefficient : Int) (exponent : Int)
  | infinite (negative : Bool)
  | nan
  deriving DecidableEq, Repr

namespace Decimal

/-- The precision of the default context. -/
def precision : Nat := 28

/-- `n / 10 ^ k`, half to even. -/
def roundHalfEven (n k : Nat) : Nat :=
  let q := n / 10 ^ k
  let r := 2 * (n % 10 ^ k)
  if r < 10 ^ k then q else if 10 ^ k < r then q + 1 else q + q % 2

/-- The number, in the context. -/
def rounded (coefficient exponent : Int) : Decimal :=
  let n := coefficient.natAbs
  let extra := (Nat.toDigits 10 n).length - precision
  if extra = 0 then .number coefficient exponent
  else .number (coefficient.sign * roundHalfEven n extra) (exponent + extra)

def mul : Decimal → Decimal → Decimal
  | .number a m, .number b n => rounded (a * b) (m + n)
  | .nan, _ | _, .nan => .nan
  | .infinite s, .number a _ | .number a _, .infinite s =>
      if a = 0 then .nan else .infinite (s != decide (a < 0))
  | .infinite s, .infinite t => .infinite (s != t)

def add : Decimal → Decimal → Decimal
  | .number a m, .number b n =>
      let low := min m n
      rounded (a * 10 ^ (m - low).toNat + b * 10 ^ (n - low).toNat) low
  | .nan, _ | _, .nan => .nan
  | .infinite s, .number _ _ | .number _ _, .infinite s => .infinite s
  | .infinite s, .infinite t => if s = t then .infinite s else .nan

/-- `int(d)`, towards zero. -/
def toInt : Decimal → Except Exc Int
  | .number c e => .ok (if 0 ≤ e then c * 10 ^ e.toNat else c.tdiv (10 ^ (-e).toNat))
  | .infinite _ => .error (exc .overflowError "cannot convert Infinity to integer")
  | .nan => .error (exc .valueError "cannot convert NaN to integer")

/-- `d <= 0`, of a number. -/
def nonpositive : Decimal → Bool
  | .number c _ => c ≤ 0
  | .infinite s => s
  | .nan => false

end Decimal

/-! ### Reading -/

/-- Leading digits, and what follows them. -/
def takeDigits : List Char → List Nat × List Char
  | [] => ([], [])
  | c :: cs =>
      match decimalDigit c with
      | some d => (d :: (takeDigits cs).1, (takeDigits cs).2)
      | none => ([], c :: cs)

/-- The number the digits write. -/
def ofDigits (digits : List Nat) : Nat := digits.foldl (fun n d => n * 10 + d) 0

/-- A sign, if there is one. -/
def takeSign : List Char → Int × List Char
  | '-' :: cs => (-1, cs)
  | '+' :: cs => (1, cs)
  | cs => (1, cs)

/-- The exponent that ends a number. -/
def parseExponent : List Char → Option Int
  | [] => some 0
  | c :: cs =>
      if c != 'e' && c != 'E' then none
      else
        let signed := takeSign cs
        match takeDigits signed.2 with
        | (d :: ds, []) => some (signed.1 * ofDigits (d :: ds))
        | _ => none

/-- `Decimal(s)`, where `s` is one. -/
def parseDecimal (s : String) : Option Decimal :=
  let signed := takeSign ((strip s).toList.filter (· != '_'))
  let word := String.ofList (signed.2.map Char.toLower)
  if word = "inf" ∨ word = "infinity" then some (.infinite (signed.1 < 0))
  else if word = "nan" ∨ word = "snan" then some .nan
  else
    let whole := takeDigits signed.2
    let fraction : List Nat × List Char := match whole.2 with
      | '.' :: cs => takeDigits cs
      | cs => ([], cs)
    if whole.1.isEmpty ∧ fraction.1.isEmpty then none
    else (parseExponent fraction.2).map fun e =>
      .number (signed.1 * ofDigits (whole.1 ++ fraction.1)) (e - fraction.1.length)

end Orchestrator
