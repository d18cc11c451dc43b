import GateGraph.Error
import GateGraph.Shape.Broadcast

/-!
# `GateGraph.Cell.Inputs` — the shapes of a cell's inputs

A cell takes, in this order, the input `X`, the initial hidden state, the weights `W` and `R` and the bias
`B`. All of them are matrices except the bias, which is a vector; `X` and `W` share their second dimension,
the input size. What a cell may leave out or add beyond the first three is its own matter.

## Contents
- `Cell.inputFault?`, the first thing that is wrong: an open rank anywhere comes before a wrong rank
  anywhere.
- `Cell.checkInputs`, the same as an error that names the node concerned.
-/

namespace GateGraph.Cell

/-- The position of the input `X`. -/
def inputPosition : Nat := 0

/-- The position of the weights `W`. -/
def weightsPosition : Nat := 2

/-- The position of the bias `B`. -/
def biasPosition : Nat := 4

/-- The first input of open rank. -/
def dynamicRankFault? (inputs : List Shape) : Option InputFault :=
  (inputs.findIdx? (·.rank.isDynamic)).map .dynamicRank

/-- What is wrong with the rank of an input at a position, if its rank is known. -/
def wrongRank? (s : Shape) (position : Nat) : Option InputFault :=
  match s.rank with
  | .dynamic => none
  | .static n =>
      if position = biasPosition then if n = 1 then none else some (.wrongBiasRank position n 1)
      else if n = 2 then none else some (.wrongRank position n 2)

/-- The first input of wrong rank. -/
def rankFault? (inputs : List Shape) : Option InputFault :=
  inputs.zipIdx.findSome? fun (s, position) => wrongRank? s position

/-- The input sizes of `X` and `W` may be the same. -/
def sizeFault? (inputs : List Shape) : Option InputFault :=
  match inputs[inputPosition]?, inputs[weightsPosition]? with
  | some x, some w =>
      if Dim.compatible (x.dim 1) (w.dim 1) then none else some (.inputSizeMismatch x w)
  | _, _ => some (.tooFew inputs.length)

/-- The first thing that is wrong with the inputs of a cell. -/
def inputFault? (inputs : List Shape) : Option InputFault :=
  dynamicRankFault? inputs <|> rankFault? inputs <|> sizeFault? inputs

/-- Checks the inputs of a cell on behalf of a node. -/
def checkInputs (node : String) (inputs : List Shape) : Except Error Unit :=
  match inputFault? inputs with
  | some fault => .error (.nodeValidation node fault)
  | none => .ok ()

end GateGraph.Cell
