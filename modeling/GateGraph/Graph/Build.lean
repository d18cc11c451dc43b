import GateGraph.Graph.Names
import GateGraph.Shape.Broadcast

/-!
# `GateGraph.Graph.Build` — adding nodes to a graph

## Contents
- `Graph.extend`, a graph with one more node; `Builder`, an action on a graph that gives a result or an
  error; `register`, the one action that adds a node.
- `addParameter`, `addArith`, `addClamp`, `addActivation`. Each looks up its operands first, in order, then
  checks what it asks of them, and claims a name last; so the first of these that fails is the error.
- `addClip`, a clamp that is left out when there is nothing to clip.
- How the shared steps act on a graph: `runOn_bind`, `runOn_operand`, `runOn_claimName` and `runOn_register`.
-/

namespace GateGraph

namespace Graph

/-- The id of the next node. -/
def nextId (g : Graph) : NodeId := ⟨g.lastId + 1⟩

/-- Adds a child to the children of a node. -/
def adopt (child : NodeId) (children : Edges) (parent : NodeId) : Edges :=
  children.insert parent (children.getD parent [] ++ [child])

/-- The graph with one more node, its edges in both directions, and its name taken. -/
def extend (g : Graph) (n : Node) : Graph :=
  { g with
    nodes := g.nodes.push n
    children := n.parents.foldl (adopt n.id) g.children
    parents := g.parents.insert n.id (g.parents.getD n.id [] ++ n.parents)
    names := g.names.insert n.name }

end Graph

/-- An action on a graph that may fail. The graph is there afterwards in either case. -/
abbrev Builder := ExceptT Error (StateM Graph)

namespace Builder

/-- Runs an action on a graph. -/
def runOn {α : Type} (b : Builder α) (g : Graph) : Except Error α × Graph := StateT.run (ExceptT.run b) g

/-! ## Steps that all nodes share -/

/-- The node with an id. -/
def operand (id : NodeId) : Builder Node := do
  match (← get).node id with
  | .ok n => return n
  | .error e => throw e

/-- The name of a new node: the one asked for, unless it is taken, or without one the next automatic name.
    The empty name asks for none. -/
def claimName (asked label : String) : Builder String := do
  let g ← get
  if asked = "" then
    let k := g.freshNumber label
    set { g with counters := g.counters.insert label k }
    return numbered label k
  else if g.names.contains asked then throw (.duplicateNodeName asked g.name)
  else return asked

/-- The id of a new node. No id is given twice. -/
def claimId : Builder NodeId := do
  let g ← get
  set { g with lastId := g.lastId + 1 }
  return g.nextId

/-- Adds a node to the graph. The id comes after the name: when the name is refused, none is used up. -/
def register (asked : Option String) (op : Op) (shape : Shape) (parents : List NodeId) :
    Builder NodeId := do
  let name ← claimName (asked.getD "") op.label
  let id ← claimId
  modify (·.extend ⟨id, name, op, shape, parents⟩)
  return id

end Builder

/-! ## Adding nodes -/

open Builder

/-- Adds an input or a weight of the given shape. -/
def addParameter (shape : Shape) (name : Option String) : Builder NodeId :=
  register name .parameter shape []

/-- Adds an elementwise operation on two nodes whose shapes broadcast. -/
def addArith (op : Arith) (lhs rhs : NodeId) (name : Option String) : Builder NodeId := do
  let l ← operand lhs
  let r ← operand rhs
  match l.shape.broadcast r.shape with
  | some shape => register name (.arith op) shape [lhs, rhs]
  | none => throw (.shapeMismatch op l.shape r.shape)

/-- What is wrong with the bounds of a clamp: they have to be finite, and the lower one not above the
    upper one. -/
def clampFault? (min max : Binary32) : Option InvalidOperation :=
  if !min.isFinite || !max.isFinite then some (.clampNotFinite min max)
  else if max.lt min then some (.clampReversed min max)
  else none

/-- Adds a node that keeps another one's output between two bounds. -/
def addClamp (input : NodeId) (min max : Binary32) (name : Option String) : Builder NodeId := do
  let n ← operand input
  match clampFault? min max with
  | some cause => throw (.invalidOperation cause)
  | none => register name (.clamp min max) n.shape [input]

/-- Adds an activation function applied to another node's output. -/
def addActivation (input : NodeId) (function : Activation) (name : Option String) : Builder NodeId := do
  let n ← operand input
  register name (.activation function) n.shape [input]

/-- Clips another node's output to a bound on either side of zero. With a bound of zero nothing is added and
    the node itself is the result, if it exists. -/
def addClip (input : NodeId) (bound : Binary32) : Builder NodeId :=
  if bound.isZero then do
    let _ ← operand input
    return input
  else addClamp input (-bound) bound none

/-! ## How the shared steps act on a graph -/

namespace Builder

variable {α β : Type} (g : Graph)

/-- A second action starts from the graph that the first one leaves, and only after a success. -/
theorem runOn_bind (b : Builder α) (f : α → Builder β) :
    (b >>= f).runOn g = match b.runOn g with
      | (.ok x, g') => (f x).runOn g'
      | (.error e, g') => (.error e, g') := by
  have hrun : (b >>= f).runOn g = ExceptT.bindCont f (b.runOn g).1 (b.runOn g).2 := rfl
  rw [hrun]
  rcases b.runOn g with ⟨e | x, g'⟩
  · rfl
  · rfl

/-- Looking up an operand changes nothing. -/
@[simp] theorem runOn_operand (id : NodeId) : (operand id).runOn g = (g.node id, g) := by
  unfold operand
  rw [runOn_bind]
  change ((match g.node id with
    | .ok n => pure n
    | .error e => throw e : Builder Node)).runOn g = _
  cases g.node id <;> rfl

/-- A name that is asked for is taken as it is or refused, and changes nothing; an automatic name moves the
    counter of its label. -/
theorem runOn_claimName (asked label : String) :
    (claimName asked label).runOn g =
      if asked = "" then
        (.ok (numbered label (g.freshNumber label)),
          { g with counters := g.counters.insert label (g.freshNumber label) })
      else if g.names.contains asked then (.error (.duplicateNodeName asked g.name), g)
      else (.ok asked, g) := by
  unfold claimName
  rw [runOn_bind]
  change (if asked = "" then _ else if g.names.contains asked = true then _ else _ :
    Builder String).runOn g = _
  split
  · rfl
  · split <;> rfl

/-- Once a node has a name it has an id too, and is added. -/
theorem runOn_register (asked : Option String) (op : Op) (shape : Shape) (parents : List NodeId) :
    (register asked op shape parents).runOn g =
      match (claimName (asked.getD "") op.label).runOn g with
      | (.ok name, g') =>
          (.ok g'.nextId, { g' with lastId := g'.lastId + 1 }.extend ⟨g'.nextId, name, op, shape, parents⟩)
      | (.error e, g') => (.error e, g') := by
  unfold register
  rw [runOn_bind]
  rcases (claimName (asked.getD "") op.label).runOn g with ⟨_ | _, g'⟩ <;> rfl

end Builder

end GateGraph
