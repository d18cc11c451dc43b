import GateGraph.Activation
import GateGraph.Shape.Text

/-!
# `GateGraph.Node` — the nodes of a graph

A node is an operation on the outputs of earlier nodes, its parents, with the shape declared for its own
output. Nodes compute nothing.

## Contents
- `NodeId`, `Arith`, `Op` and `Node`; `Op.label`, the word for an operation, is also what automatic names
  begin with.
- `Node.text`, how a node is shown.
-/

namespace GateGraph

/-- The identity of a node within its graph. The first node is number 1. -/
structure NodeId where
  number : Nat
  deriving DecidableEq, Repr

/-- The elementwise operations on two operands. -/
inductive Arith
  | add
  | subtract
  | multiply
  deriving DecidableEq, Repr

/-- What a node does. A parameter is an input or a weight; a clamp keeps its operand between two bounds. -/
inductive Op
  | parameter
  | arith (op : Arith)
  | clamp (min max : Binary32)
  | activation (function : Activation)
  deriving DecidableEq, BEq

/-- A node. The parents stand in the order of the operands. -/
structure Node where
  id : NodeId
  name : String
  op : Op
  shape : Shape
  parents : List NodeId
  deriving DecidableEq, BEq

/-- A number as it is shown. -/
def NodeId.text (id : NodeId) : String := Decimal.text id.number

/-- The word for an elementwise operation at the start of a sentence. -/
def Arith.title : Arith → String
  | add => "Add"
  | subtract => "Subtract"
  | multiply => "Multiply"

/-- The word for an elementwise operation. -/
def Arith.label : Arith → String
  | add => "add"
  | subtract => "subtract"
  | multiply => "multiply"

/-- The word for an operation; an activation goes by the name of its kind. -/
def Op.label : Op → String
  | parameter => "parameter"
  | arith op => op.label
  | clamp _ _ => "clamp"
  | activation f => f.kind.name

/-- A node as it is shown. -/
def Node.text (n : Node) : String :=
  "节点[id=" ++ n.id.text ++ ", name=" ++ n.name ++ ", type=" ++ n.op.label ++ "]"

end GateGraph
