/-!
# `GateGraph.Binary.Format` — magnitudes of binary floating-point numbers

A finite magnitude of a binary interchange format is a whole number of the format's smallest steps, its
*units*. The magnitudes are numbered from zero in increasing order: the number of a magnitude, its
*pattern*, holds the exponent field above the fraction field. All arithmetic here is on natural numbers.

## Contents
- `Format`, with `single` and `double`; `Format.infinity`, the pattern above the finite ones.
- `Format.units` takes a pattern to its magnitude, `Format.nearest` takes a quotient of units to the nearest
  pattern, halves to the even neighbour and everything too large to `infinity`.
- `halfEven`, rounding of a quotient to a whole number, with its error bound `halfEven_error`.
-/

namespace GateGraph

-- powers of whole numbers are the built-in ones, whatever is imported beside this module
attribute [local instance (2000)] instPowNat

/-- A binary interchange format: the number of significant bits, the hidden one included, and the width of
    the exponent field. -/
structure Format where
  precision : Nat
  exponentBits : Nat
  deriving DecidableEq, Repr

namespace Format

/-- 32-bit numbers. -/
def single : Format := ⟨24, 8⟩

/-- 64-bit numbers. -/
def double : Format := ⟨53, 11⟩

/-- The number of bits below the exponent field. -/
def fractionBits (f : Format) : Nat := f.precision - 1

/-- The number of bits of a pattern: exponent field and fraction field. -/
def patternBits (f : Format) : Nat := f.exponentBits + f.fractionBits

/-- The pattern of infinity. Smaller patterns are finite, larger ones stand for no number. -/
def infinity (f : Format) : Nat := (2 ^ f.exponentBits - 1) * 2 ^ f.fractionBits

/-- The binary exponent of the unit is `-unitExponent`. -/
def unitExponent (f : Format) : Nat := 2 ^ (f.exponentBits - 1) - 2 + f.fractionBits

/-! ## From patterns to magnitudes -/

/-- The magnitude of a pattern, in units. An exponent field of zero marks the magnitudes that have no
    hidden bit. -/
def units (f : Format) (pattern : Nat) : Nat :=
  let e := pattern / 2 ^ f.fractionBits
  let fraction := pattern % 2 ^ f.fractionBits
  if e = 0 then fraction else (2 ^ f.fractionBits + fraction) * 2 ^ (e - 1)

end Format

/-! ## From magnitudes to patterns -/

/-- The whole number nearest to `num / den`; a half goes to the even neighbour. -/
def halfEven (num den : Nat) : Nat :=
  let q := num / den
  let r := num % den
  if 2 * r < den then q
  else if den < 2 * r then q + 1
  else if q % 2 = 0 then q else q + 1

/-- The pattern nearest to `num / den` units. A quotient of more than `precision` bits is rounded to as
    many; each bit that it loses raises the exponent field by one, and so does a carry out of rounding. -/
def Format.nearest (f : Format) (num den : Nat) : Nat :=
  let excess := (num / den).log2 - f.fractionBits
  min f.infinity (excess * 2 ^ f.fractionBits + halfEven num (den * 2 ^ excess))

/-! ## Rounding to a whole number -/

/-- A whole quotient is kept. -/
theorem halfEven_mul_right {n den : Nat} (h : 0 < den) : halfEven (n * den) den = n := by
  simp [halfEven, Nat.mul_div_cancel _ h, h]

/-- The result is off by at most one half. -/
theorem halfEven_error {num den : Nat} (h : 0 < den) :
    2 * (halfEven num den * den) ≤ 2 * num + den ∧ 2 * num ≤ 2 * (halfEven num den * den) + den := by
  have hdiv := Nat.div_add_mod num den
  have hmod := Nat.mod_lt num h
  rw [Nat.mul_comm] at hdiv
  have hsucc : (num / den + 1) * den = num / den * den + den := Nat.succ_mul _ _
  unfold halfEven
  simp only
  split
  · omega
  · split
    · rw [hsucc]; omega
    · split
      · omega
      · rw [hsucc]; omega

end GateGraph
