import GateGraph.Binary.Format

/-!
# `GateGraph.Binary.Basic` — binary floating-point numbers

A number is a sign and a magnitude pattern. Two equalities live side by side: `=` compares bit for bit,
and `==` compares as numbers do, with both zeros equal and no number equal to one that is not a number.

## Contents
- `Binary`, with `Binary32` and `Binary64`; `ofBits` and `toBits`.
- `isNaN`, `isFinite`, `isZero`; negation, `==` and `<` (`Binary.lt`).
- `ofQuotient`, `ofNat`; `mul` and `div`, each rounded once; `cast` from one format to another.
-/

namespace GateGraph

-- powers of whole numbers are the built-in ones, whatever is imported beside this module
attribute [local instance (2000)] instPowNat

/-- A number of a binary interchange format. -/
structure Binary (f : Format) where
  negative : Bool
  pattern : Fin (2 ^ f.patternBits)
  deriving DecidableEq

/-- The 32-bit numbers. -/
abbrev Binary32 := Binary .single

/-- The 64-bit numbers. -/
abbrev Binary64 := Binary .double

namespace Binary

variable {f g : Format}

/-! ## Bits -/

/-- The number whose sign stands in the bit above the pattern. -/
def ofBits (f : Format) (bits : Nat) : Binary f :=
  ⟨bits / 2 ^ f.patternBits % 2 == 1, Fin.ofNat _ bits⟩

/-- The sign in the bit above the pattern. -/
def toBits (x : Binary f) : Nat :=
  (if x.negative then 2 ^ f.patternBits else 0) + x.pattern

instance : Inhabited (Binary f) := ⟨ofBits f 0⟩

instance : Zero (Binary f) := ⟨ofBits f 0⟩

/-! ## Classes and comparisons -/

/-- Not a number. -/
def isNaN (x : Binary f) : Bool := f.infinity < x.pattern

/-- Neither an infinity nor not a number. -/
def isFinite (x : Binary f) : Bool := x.pattern < f.infinity

/-- One of the two zeros. -/
def isZero (x : Binary f) : Bool := x.pattern == (0 : Nat)

instance : Neg (Binary f) := ⟨fun x => ⟨!x.negative, x.pattern⟩⟩

/-- A whole number that is ordered like the number itself; both zeros have the same. -/
def rank (x : Binary f) : Int := if x.negative then -(x.pattern : Nat) else (x.pattern : Nat)

/-- Equality as numbers. -/
instance : BEq (Binary f) := ⟨fun x y => !x.isNaN && !y.isNaN && x.rank == y.rank⟩

/-- `x` is smaller than `y`, as numbers. -/
def lt (x y : Binary f) : Bool := !x.isNaN && !y.isNaN && x.rank < y.rank

/-- The magnitude of a finite number, in the units of its format. -/
def units (x : Binary f) : Nat := f.units x.pattern

/-! ## Rounding -/

/-- The number nearest to `num / den` of its format's units, with the given sign. -/
def ofRatio (f : Format) (negative : Bool) (num den : Nat) : Binary f :=
  ⟨negative, Fin.ofNat _ (f.nearest num den)⟩

/-- The number nearest to a quotient. -/
def ofQuotient (f : Format) (num den : Nat) : Binary f :=
  ofRatio f false (num * 2 ^ f.unitExponent) den

/-- The number nearest to a natural number. -/
def ofNat (f : Format) (n : Nat) : Binary f := ofQuotient f n 1

/-- The product of two finite numbers, rounded. -/
def mul (x y : Binary f) : Binary f :=
  ofRatio f (x.negative != y.negative) (x.units * y.units) (2 ^ f.unitExponent)

/-- The quotient of a finite number and one that is finite and not zero, rounded. -/
def div (x y : Binary f) : Binary f :=
  ofRatio f (x.negative != y.negative) (x.units * 2 ^ f.unitExponent) y.units

/-- The same number in another format, rounded where that format is coarser. -/
def cast (g : Format) (x : Binary f) : Binary g :=
  if x.isNaN then ⟨x.negative, Fin.ofNat _ (g.infinity + 1)⟩
  else if x.isFinite then
    ofRatio g x.negative (x.units * 2 ^ g.unitExponent) (2 ^ f.unitExponent)
  else ⟨x.negative, Fin.ofNat _ g.infinity⟩

/-! ## Signs -/

/-- A finite number is a number. -/
theorem isNaN_eq_false_of_isFinite {x : Binary f} (h : x.isFinite = true) : x.isNaN = false := by
  simp only [isFinite, decide_eq_true_eq] at h
  simp only [isNaN, decide_eq_false_iff_not]
  omega

end Binary

end GateGraph
