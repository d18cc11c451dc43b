import GateGraph.Binary.Text
import GateGraph.Binary.Reading
import GateGraph.Json.Tree

/-!
# `GateGraph.Json.Number` — the numbers of JSON texts

A numeral without point and exponent is a whole number when it lies between `-2 ^ 63` and `2 ^ 64`; every
other numeral is a 64-bit floating-point number. Minus zero is not a whole number.

## Contents
- `Number`, `Number.ofNumeral?` and the readings `natural?`, `double`, `single`.
- `doubleStyle` and `singleStyle`, how floating-point numbers are written, and `Tree.real`.
-/

namespace GateGraph.Json

-- powers of whole numbers are the built-in ones, whatever is imported beside this module
attribute [local instance (2000)] instPowNat

/-- A number of a JSON text. -/
inductive Number
  | natural (n : UInt64)
  /-- The whole number below zero with this magnitude. -/
  | negative (magnitude : UInt64)
  | real (x : Binary64)
  deriving DecidableEq

namespace Number

/-- The number of a numeral; `none` when it is too large. -/
def ofNumeral? (n : Numeral) : Option Number :=
  let magnitude := Decimal.value n.whole
  if n.isWhole ∧ ¬n.negative ∧ magnitude < 2 ^ (64 : Nat) then some (natural (UInt64.ofNat magnitude))
  else if n.isWhole ∧ n.negative ∧ 0 < magnitude ∧ magnitude ≤ 2 ^ (63 : Nat) then
    some (negative (UInt64.ofNat magnitude))
  else n.double?.map real

/-- The whole number that is not below zero. -/
def natural? : Number → Option UInt64
  | natural n => some n
  | _ => none

/-- A number as a 64-bit floating-point number. -/
def double : Number → Binary64
  | natural n => .ofNat .double n.toNat
  | negative n => -.ofNat .double n.toNat
  | real x => x

/-- A number as a 32-bit floating-point number. Whole numbers are rounded once, not by way of 64 bits. -/
def single : Number → Binary32
  | natural n => .ofNat .single n.toNat
  | negative n => -.ofNat .single n.toNat
  | real x => x.cast .single

end Number

/-! ## Writing floating-point numbers -/

/-- 64-bit numbers are written without exponent from `0.00001` up to sixteen places before the point. -/
def doubleStyle : Style := ⟨.toEven, some (-5, 15), true⟩

/-- 32-bit numbers are written without exponent from `0.000001` up to thirteen places before the point. -/
def singleStyle : Style := ⟨.toEven, some (-6, 12), true⟩

/-- A floating-point number in a text; there is no numeral for one that is not finite. -/
def Tree.real {f : Format} (style : Style) (x : Binary f) : Tree :=
  if x.isFinite then .number (style.numeral x) else .null

/-- A natural number in a text. -/
def Tree.natural (n : Nat) : Tree := .number (.ofNat n)

end GateGraph.Json
