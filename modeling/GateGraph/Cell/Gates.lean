import GateGraph.Cell.Basic
import GateGraph.Graph.Build

/-!
# `GateGraph.Cell.Gates` — the gates of a cell in a graph

## Contents
- `ActivationKind.resolve` and `Activation.resolve`, what a name stands for.
- `Cell.activation`, the activation function of a gate with its parameters.
- The steps from which gates are built: `Activation.apply`, `Cell.add`, `Cell.subtract`, `Cell.multiply` and
  `Cell.clipped`.
-/

namespace GateGraph

/-- The kind of activation with exactly this name. -/
def ActivationKind.resolve (name : String) : Except Error ActivationKind :=
  match ofName? name with
  | some kind => .ok kind
  | none => .error (.unknownActivation name)

/-- The activation function with this name, in upper or lower case. -/
def Activation.resolve (name : String) : Except Error Activation :=
  (ActivationKind.resolve (Text.lowercase name)).map ofKind

/-- Adds an activation function applied to a node's output. -/
def Activation.apply (function : Activation) (input : NodeId) (name : Option String) : Builder NodeId :=
  addActivation input function name

namespace Cell

/-- The activation function of a gate, with the parameters configured for it. -/
def activation (c : Cell) (gate : Nat) : Except Error Activation :=
  match c.activations[gate]? with
  | none => .error (.gateOutOfRange gate c.gateCount)
  | some name =>
      (Activation.resolve name).map fun f => { f with alpha := c.alpha.get? gate, beta := c.beta.get? gate }

/-! ## Building gates -/

def add (lhs rhs : NodeId) : Builder NodeId := addArith .add lhs rhs none

def subtract (lhs rhs : NodeId) : Builder NodeId := addArith .subtract lhs rhs none

def multiply (lhs rhs : NodeId) : Builder NodeId := addArith .multiply lhs rhs none

/-- Clips a node's output to the cell's bound. -/
def clipped (c : Cell) (input : NodeId) : Builder NodeId := addClip input c.clip

end Cell

end GateGraph
