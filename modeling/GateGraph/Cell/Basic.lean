import GateGraph.Cell.GateParams
import GateGraph.Error
import GateGraph.Text.Lowercase

/-!
# `GateGraph.Cell.Basic` — the configuration of a recurrent cell

What recurrent cells have in common: the size of the hidden state, a bound to which values are clipped, and
for each gate the name of an activation function, with two optional parameters.

## Contents
- `Cell` and `Cell.unset`; `Cell.create`, which checks a configuration.
-/

namespace GateGraph

/-- The configuration of a recurrent cell. A clip bound of zero means that nothing is clipped. The names of
    the activations are in lower case. -/
structure Cell where
  hiddenSize : UInt64
  clip : Binary32
  activations : List String
  alpha : GateParams
  beta : GateParams
  deriving DecidableEq, BEq

namespace Cell

/-- Nothing is configured. -/
def unset : Cell := ⟨0, 0, [], .empty, .empty⟩

instance : Inhabited Cell := ⟨unset⟩

/-- The number of gates, which is the number of activations. -/
def gateCount (c : Cell) : Nat := c.activations.length

/-! ## Checking a configuration -/

/-- A clip bound is finite and not negative. -/
def clipFault? (clip : Binary32) : Option InvalidOperation :=
  if !clip.isFinite || clip.lt 0 then some (.clipOutOfRange clip) else none

/-- The parameters of the gates are not more than there are gates, and they are finite. -/
def paramsFault? (param : GateParam) (values : List Binary32) (gates : Nat) : Option InvalidOperation :=
  if gates < values.length then some (.tooManyParams param values.length gates)
  else
    (values.zipIdx.find? fun (x, _) => !x.isFinite).map fun (x, i) => .paramNotFinite param i x

/-- The first thing that is wrong with a configuration. -/
def fault? (clip : Binary32) (gates : Nat) (alpha beta : List Binary32) : Option InvalidOperation :=
  clipFault? clip <|> paramsFault? .alpha alpha gates <|> paramsFault? .beta beta gates

/-- The cell of a configuration, if nothing is wrong with it. -/
def create (hiddenSize : UInt64) (clip : Binary32) (activations : List String)
    (alpha beta : List Binary32) : Except Error Cell :=
  let gates := activations.length
  match fault? clip gates alpha beta with
  | some cause => .error (.invalidOperation cause)
  | none =>
      .ok {
        hiddenSize
        clip
        activations := activations.map Text.lowercase
        alpha := .ofPositional alpha gates
        beta := .ofPositional beta gates }

end Cell

end GateGraph
