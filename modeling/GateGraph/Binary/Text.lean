import GateGraph.Binary.Shortest
import GateGraph.Decimal.Numeral

/-!
# `GateGraph.Binary.Text` — floating-point numbers written in decimal

Everything that may differ between two ways of writing a number is in a `Style`; the digits are the shortest
ones in each.

## Contents
- `Style`, and `Style.numeral`, the numeral of a finite number.
- `Style.message`, the style of messages, and `Binary.text`, which also names what is not finite.
-/

namespace GateGraph

/-- A way of writing numbers: which of two equally near decimals is taken, between which powers of ten the
    number is written without an exponent (everywhere if there are no bounds), and whether a whole number
    keeps a point and a zero. -/
structure Style where
  tie : Tie
  plain : Option (Int × Int)
  keepsPoint : Bool
  deriving DecidableEq, Repr

namespace Style

/-- A number of this decimal exponent is written without one. -/
def isPlain (style : Style) (exponent : Int) : Bool :=
  match style.plain with
  | none => true
  | some (least, most) => least ≤ exponent && exponent ≤ most

/-- The fraction of a whole number. -/
def wholeFraction (style : Style) : List Char := if style.keepsPoint then ['0'] else []

/-- Digits around a point, without an exponent. -/
def positional (style : Style) (negative : Bool) (s : Scientific) : Numeral :=
  if s.exponent < 0 then
    ⟨negative, ['0'], List.replicate (-s.exponent - 1).toNat '0' ++ s.digits, none⟩
  else
    let places := s.exponent.toNat + 1
    let whole := s.digits.take places ++ List.replicate (places - s.digits.length) '0'
    match s.digits.drop places with
    | [] => ⟨negative, whole, style.wholeFraction, none⟩
    | fraction => ⟨negative, whole, fraction, none⟩

/-- One digit before the point, the others behind it, and an exponent. -/
def exponential (negative : Bool) (s : Scientific) : Numeral :=
  ⟨negative, s.digits.take 1, s.digits.drop 1,
    some ⟨s.exponent < 0, Decimal.digits s.exponent.natAbs⟩⟩

/-- The numeral of a finite number. -/
def numeral {f : Format} (style : Style) (x : Binary f) : Numeral :=
  let s := x.shortest style.tie
  if style.isPlain s.exponent then style.positional x.negative s else exponential x.negative s

/-- Numbers in messages never have an exponent, and whole numbers no point. -/
def message : Style := ⟨.up, none, false⟩

end Style

/-- A number as it stands in messages. -/
def Binary.text {f : Format} (x : Binary f) : String :=
  if x.isNaN then "NaN"
  else if x.isFinite then String.ofList (Style.message.numeral x).chars
  else if x.negative then "-inf"
  else "inf"

end GateGraph
