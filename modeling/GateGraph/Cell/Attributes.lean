import GateGraph.Attribute.Reader
import GateGraph.Attribute.Writer
import GateGraph.Cell.Basic

/-!
# `GateGraph.Cell.Attributes` — a cell's configuration as attributes

## Contents
- `Cell.visit` shows the five attributes to a visitor and brings its answers into form: names in lower case,
  parameters cut or filled up to the number of gates.
- `Cell.toAttributes` and `Cell.ofAttributes`, with a map of JSON values.
-/

namespace GateGraph.Cell

open Attribute (Visitor)

/-- Shows the attributes of a cell to a visitor, one after another; the result is the cell that the
    visitor's answers make. -/
def visit {m : Type → Type} [Monad m] (c : Cell) (visitor : Visitor m) : m Cell := do
  let hiddenSize ← visitor.natural "hidden_size" c.hiddenSize
  let activations ← visitor.strings "activations" c.activations
  let alpha ← visitor.reals GateParam.alpha.attribute c.alpha.positional
  let beta ← visitor.reals GateParam.beta.attribute c.beta.positional
  let clip ← visitor.real "clip" c.clip
  return {
    hiddenSize
    clip
    activations := activations.map Text.lowercase
    alpha := .ofPositional alpha activations.length
    beta := .ofPositional beta activations.length }

/-- The attributes of a cell. -/
def toAttributes (c : Cell) : Attributes := ((c.visit Attributes.writer).run ∅).2

/-- The cell of a map of attributes. What the map does not have stays unset, and the outcome is checked. -/
def ofAttributes (map : Attributes) : Except Error Cell := do
  let (c, faults) := (unset.visit map.reader).run []
  Attribute.finish faults
  create c.hiddenSize c.clip c.activations c.alpha.positional c.beta.positional

end GateGraph.Cell
