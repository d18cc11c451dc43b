import GateGraph.Binary.Basic
import GateGraph.Decimal.Numeral

/-!
# `GateGraph.Binary.Reading` — numerals read as 64-bit numbers

A numeral is read in two steps. Its leading digits, as many as stay below `2 ^ 64`, make a whole number, the
*significand*, which is rounded to 64-bit floating point. The power of ten that belongs to it is then
multiplied or divided in, each time with one more rounding. The result is therefore not always the number
nearest to the numeral, but it never needs arithmetic on long numbers.

## Contents
- `Numeral.significand` and `Numeral.scale`, the significand and its power of ten.
- `Numeral.double?`, refused when the number is too large.
-/

namespace GateGraph

-- powers of whole numbers are the built-in ones, whatever is imported beside this module
attribute [local instance (2000)] instPowNat

namespace Numeral

/-! ## Significand and power of ten -/

/-- Appends digits to a number as long as it stays below `2 ^ 64`; the digits after that are left. -/
def absorb : Nat → List Char → Nat × List Char
  | n, [] => (n, [])
  | n, d :: ds =>
      if 10 * n + Decimal.value [d] < 2 ^ 64 then absorb (10 * n + Decimal.value [d]) ds
      else (n, d :: ds)

/-- The leading digits, first of the whole part and then of the fraction. -/
def significand (n : Numeral) : Nat := (absorb (absorb 0 n.whole).1 n.fraction).1

/-- The exponent as a number. -/
def Exponent.value (e : Exponent) : Int :=
  if e.negative then -(Decimal.value e.digits : Int) else Decimal.value e.digits

/-- The power of ten of the significand: digits left out of the whole part raise it, digits taken from the
    fraction lower it. -/
def scale (n : Numeral) : Int :=
  let (kept, left) := absorb 0 n.whole
  let taken := n.fraction.length - (absorb kept n.fraction).2.length
  (n.exponent.elim 0 Exponent.value) + left.length - taken

/-! ## Scaling -/

/-- The largest power of ten that is a 64-bit number. -/
def greatestPower : Nat := 308

/-- The 64-bit number nearest to a power of ten. -/
def powerOfTen (k : Nat) : Binary64 := .ofNat .double (10 ^ k)

/-- Divides by the largest power of ten so many times, or until nothing is left. -/
def lower : Nat → Binary64 → Binary64
  | 0, x => x
  | k + 1, x => if x.isZero then x else lower k (x.div (powerOfTen greatestPower))

/-- `x / 10 ^ k`, in steps of the largest power of ten. -/
def divideByPower (x : Binary64) (k : Nat) : Binary64 :=
  let steps := (k - 1) / greatestPower
  (lower steps x).div (powerOfTen (k - greatestPower * steps))

/-- `x * 10 ^ k`, unless it is too large. -/
def multiplyByPower? (x : Binary64) (k : Nat) : Option Binary64 :=
  if x.isZero then some x
  else if greatestPower < k then none
  else
    let y := x.mul (powerOfTen k)
    if y.isFinite then some y else none

/-- The number with a given magnitude that a numeral's sign asks for. -/
def signed (n : Numeral) (x : Binary64) : Binary64 := ⟨n.negative, x.pattern⟩

/-- A numeral read as a 64-bit number; `none` when it is too large for one. -/
def double? (n : Numeral) : Option Binary64 :=
  let x := Binary.ofNat .double n.significand
  let magnitude? :=
    if 0 ≤ n.scale then multiplyByPower? x n.scale.toNat
    else some (divideByPower x (-n.scale).toNat)
  magnitude?.map n.signed

end Numeral

end GateGraph
