import GateGraph.Json.Number

/-!
# `GateGraph.Json.Value` — what JSON texts say

A value is a tree whose numerals are numbers and whose strings are strings. Not every tree has one: a
numeral may be too large, half of a surrogate pair may be alone, and containers may be nested too deeply.

## Contents
- `Value`, `Value.ofTree?` and `Value.tree`, the text of a value.
- `nestingLimit`, and the readings `natural?`, `double?`, `string?` and `items?`.
-/

namespace GateGraph.Json

/-- What a JSON text says. The fields of an object stand in the order of the text, repeated keys
    included. -/
inductive Value
  | null
  | bool (b : Bool)
  | number (n : Number)
  | string (s : String)
  | array (items : List Value)
  | object (fields : List (String × Value))

/-- The string that the pieces of a quoted text stand for. -/
def stringOf? (pieces : List Quoted.Piece) : Option String :=
  (Quoted.join? pieces).map String.ofList

/-- A container may stand in at most `nestingLimit - 2` others. -/
def nestingLimit : Nat := 128

namespace Value

/-! ## From trees -/

mutual

/-- The value of a tree; `room` is what is left of the nesting limit. -/
def ofTree? (room : Nat) : Tree → Option Value
  | .null => some null
  | .bool b => some (bool b)
  | .number n => (Number.ofNumeral? n).map number
  | .string ps => (stringOf? ps).map string
  | .array ts => if 1 < room then (ofItems? (room - 1) ts).map array else none
  | .object fs => if 1 < room then (ofFields? (room - 1) fs).map object else none

/-- The values of trees. -/
def ofItems? (room : Nat) : List Tree → Option (List Value)
  | [] => some []
  | t :: ts => do
      let v ← ofTree? room t
      let vs ← ofItems? room ts
      return v :: vs

/-- The keys and values of fields. -/
def ofFields? (room : Nat) : List (List Quoted.Piece × Tree) → Option (List (String × Value))
  | [] => some []
  | (k, t) :: fs => do
      let key ← stringOf? k
      let v ← ofTree? room t
      let rest ← ofFields? room fs
      return (key, v) :: rest

end

/-! ## To trees -/

/-- The text of a number. -/
def numberTree : Number → Tree
  | .natural n => .natural n.toNat
  | .negative n => .number ⟨true, Decimal.digits n.toNat, [], none⟩
  | .real x => .real doubleStyle x

mutual

/-- The text of a value. -/
def tree : Value → Tree
  | null => .null
  | bool b => .bool b
  | number n => numberTree n
  | string s => .text s
  | array vs => .array (itemTrees vs)
  | object fs => .object (fieldTrees fs)

/-- The texts of values. -/
def itemTrees : List Value → List Tree
  | [] => []
  | v :: vs => tree v :: itemTrees vs

/-- The texts of fields. -/
def fieldTrees : List (String × Value) → List (List Quoted.Piece × Tree)
  | [] => []
  | (k, v) :: fs => (k.toList.map .char, tree v) :: fieldTrees fs

end

/-! ## Making values -/

/-- A floating-point number; one that is not finite has no JSON number and becomes `null`. -/
def ofDouble (x : Binary64) : Value := if x.isFinite then number (.real x) else null

/-! ## Readings -/

/-- A natural number below `2 ^ 64`, written without point and exponent. -/
def natural? : Value → Option UInt64
  | number n => n.natural?
  | _ => none

/-- Any number, as a 64-bit one. -/
def double? : Value → Option Binary64
  | number n => some n.double
  | _ => none

/-- A string. -/
def string? : Value → Option String
  | string s => some s
  | _ => none

/-- An array all of whose items can be read. -/
def items? {α : Type} (read : Value → Option α) : Value → Option (List α)
  | array vs => vs.mapM read
  | _ => none

end Value

end GateGraph.Json
