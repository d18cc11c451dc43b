import GateGraph.Shape.Basic
import GateGraph.Decimal.Natural

/-!
# `GateGraph.Shape.Text` — how shapes are shown

A shape is shown as its dimensions in brackets, `[32, ?, 128]`, an open one as `?`; a shape of open rank
is shown as `[...]`.
-/

namespace GateGraph

/-- A dimension as it is shown: its digits, or `?`. -/
def Dim.chars : Dim → List Char
  | none => ['?']
  | some n => Decimal.digits n.toNat

/-- A number of dimensions as it is shown: its digits, or `?`. -/
def Rank.text : Rank → String
  | .static n => Decimal.text n
  | .dynamic => "?"

/-- A shape as it is shown, character by character. -/
def Shape.chars : Shape → List Char
  | .unranked => "[...]".toList
  | .ranked dims => '[' :: List.intercalate ", ".toList (dims.map Dim.chars) ++ [']']

/-- A shape as it is shown. -/
def Shape.text (s : Shape) : String := String.ofList s.chars

end GateGraph
