import Mathlib.Algebra.Order.Ring.Rat
import Orchestrator.Models.Scalars

/-!
# Models — the values of floats

The number a `float` is: the double nearest to the decimal that its `repr` writes.  Python compares
floats and integers by these numbers, without rounding.

* `nearestEven`, `lastBit`, `double`: the nearest double.
* `FloatText.value`: the number of a `float`.
-/

namespace Orchestrator

/-- A quotient, rounded to the nearest integer, and to the even one of two. -/
def nearestEven (a b : Nat) : Nat :=
  if b < 2 * (a % b) ∨ (2 * (a % b) = b ∧ a / b % 2 = 1) then a / b + 1 else a / b

/-- The exponent of the last bit of a double: 52 places after the first, and of a subnormal no
smaller than any other. -/
def lastBit (num den : Nat) : Int :=
  let e : Int := num.log2 - den.log2
  let leading := if den * 2 ^ e.toNat ≤ num * 2 ^ (-e).toNat then e else e - 1
  max (leading - 52) (-1074)

/-- The double nearest to a fraction. -/
def double (num den : Nat) : ℚ :=
  let e := lastBit num den
  mkRat (nearestEven (num * 2 ^ (-e).toNat) (den * 2 ^ e.toNat) * 2 ^ e.toNat) (2 ^ (-e).toNat)

namespace FloatText

/-- The exponent that is written, where there is one. -/
def exponent (x : FloatText) : Int :=
  match (x.text.toList.dropWhile (· != 'e')).tail with
  | '-' :: digits => -(Nat.ofDigitChars 10 digits 0 : Int)
  | '+' :: digits => Nat.ofDigitChars 10 digits 0
  | digits => Nat.ofDigitChars 10 digits 0

/-- The digits before and after the point. -/
def digits (x : FloatText) : List Char × List Char :=
  let mantissa := (x.text.toList.takeWhile (· != 'e')).filter (· != '-')
  (mantissa.takeWhile (· != '.'), (mantissa.dropWhile (· != '.')).tail)

/-- The number. -/
def value (x : FloatText) : ℚ :=
  let (whole, fraction) := x.digits
  let n := Nat.ofDigitChars 10 (whole ++ fraction) 0
  let scale := x.exponent - fraction.length
  let magnitude := double (n * 10 ^ scale.toNat) (10 ^ (-scale).toNat)
  if x.text.toList.head? = some '-' then -magnitude else magnitude

end FloatText

-- Not the integer that is written.
example : FloatText.value ⟨"1e+23", by decide⟩ = 99999999999999991611392 := by decide

end Orchestrator
