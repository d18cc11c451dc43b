import GateGraph.Binary.Basic
import GateGraph.Decimal.Natural

/-!
# `GateGraph.Binary.Shortest` — the fewest decimal digits that tell a number apart

Every real number nearer to a floating-point number than to its neighbours reads back as that number; so do
the two midpoints when the pattern is even. Among the decimals in this interval the ones with the fewest
digits are wanted, and among those the one nearest to the number. On the grid of decimals with a given
number of digits only the two points around the number have to be tried.

## Contents
- `Scientific`, decimal digits with the power of ten of the first one; `Tie`, what to do with a number
  halfway between two points of the grid.
- `Binary.candidate?` looks at one grid, `Binary.shortest` at one after another.
-/

namespace GateGraph

-- powers of whole numbers are the built-in ones, whatever is imported beside this module
attribute [local instance (2000)] instPowNat

/-- The decimal `d.ddd… · 10 ^ exponent`. -/
structure Scientific where
  digits : List Char
  exponent : Int
  deriving DecidableEq, Repr

/-- Which of two equally near decimals is taken. -/
inductive Tie
  | toEven
  | up
  deriving DecidableEq, Repr

namespace Binary

variable {f : Format}

/-- A numerator and a denominator of `2 ^ unitExponent / 10 ^ q` units: `n` units are
    `n * (power q).1 / (power q).2` times `10 ^ q`. -/
def power (f : Format) (q : Int) : Nat × Nat :=
  (10 ^ (-q).toNat, 10 ^ q.toNat * 2 ^ f.unitExponent)

/-- The power of ten of a nonzero number's first decimal digit. -/
def leadingPower (x : Binary f) : Int :=
  let shift := f.unitExponent
  (Decimal.digits (x.units * 10 ^ shift / 2 ^ f.unitExponent)).length - 1 - shift

/-- Whether `c · 10 ^ q` reads back as the magnitude of `x`. -/
def readsBack (x : Binary f) (q : Int) (c : Nat) : Bool :=
  let (up, down) := power f q
  let below := (f.units (x.pattern - 1) + x.units) * up
  let above := (x.units + f.units (x.pattern + 1)) * up
  let point := 2 * c * down
  if x.pattern.val % 2 = 0 then below ≤ point && point ≤ above else below < point && point < above

/-- The nearest multiple of `10 ^ q` that reads back as `x`, if there is one, in multiples of `10 ^ q`. -/
def candidate? (tie : Tie) (x : Binary f) (q : Int) : Option Nat :=
  let (up, down) := power f q
  let c := x.units * up / down
  match x.readsBack q c, x.readsBack q (c + 1) with
  | false, false => none
  | true, false => some c
  | false, true => some (c + 1)
  | true, true =>
      let twice := 2 * (x.units * up)
      let middle := (2 * c + 1) * down
      if twice < middle then some c
      else if middle < twice then some (c + 1)
      else match tie with
        | .up => some (c + 1)
        | .toEven => some (if c % 2 = 0 then c else c + 1)

/-- The multiple `c` of `10 ^ q` with its digits, zeros at the end left out. -/
def scientific (c : Nat) (q : Int) : Scientific :=
  let ds := Decimal.digits c
  ⟨(ds.reverse.dropWhile (· == '0')).reverse, q + ds.length - 1⟩

/-- The most decimal digits that are ever needed: seventeen tell all 64-bit numbers apart. -/
def enoughDigits : Nat := 17

/-- The fewest digits that read back as the magnitude of a finite number, and of these the nearest to it. -/
def shortest (tie : Tie) (x : Binary f) : Scientific :=
  if x.isZero then ⟨['0'], 0⟩
  else
    let e := x.leadingPower
    let found := (List.range enoughDigits).findSome? fun (n : Nat) =>
      (x.candidate? tie (e - n)).map fun c => scientific c (e - n)
    found.getD ⟨['0'], 0⟩

end Binary

end GateGraph
