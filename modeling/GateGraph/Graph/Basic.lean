import Std.Data.TreeMap
import Std.Data.TreeSet
import GateGraph.Error

/-!
# `GateGraph.Graph.Basic` — graphs and what can be asked of them

A graph holds its nodes in the order in which they were added; a node's number is its place in that order.
Nodes are never changed or removed. Beside them a graph keeps the edges between them, in both directions, the
names that are taken, for each label the last number that an automatic name has used, and the number of the
last id. Most of this could be worked out from the nodes. That the stores agree is no part of the type: it is
so because of the way in which nodes are added.

## Contents
- The order of ids, by which the edges are kept.
- `Graph`, `Graph.empty` and `Graph.defaultName`.
- Queries: `ids`, `size`, `contains`, and by id `node`, `nodeName`, `nodeShape`, `nodeOp`, `nodeParents`,
  `nodeChildren`, `nodeText`; each of these fails with `nodeNotFound` and nothing else.
-/

namespace GateGraph

instance : Ord NodeId := ⟨fun a b => compare a.number b.number⟩

instance : Std.TransOrd NodeId := inferInstanceAs (Std.TransCmp (compareOn NodeId.number))

instance : Std.LawfulEqOrd NodeId where
  eq_of_compare {a b} h := by
    cases a
    cases b
    exact congrArg NodeId.mk (Std.LawfulEqOrd.eq_of_compare h)

/-- For some nodes, those at the other ends of their edges. -/
abbrev Edges := Std.TreeMap NodeId (List NodeId)

/-- A graph under construction. The node with the number `i + 1` stands at index `i`. -/
structure Graph where
  name : String
  nodes : Array Node
  /-- The nodes that have a node as an operand, the earliest first. One that takes it twice is there twice. -/
  children : Edges
  /-- The operands of a node, in order. -/
  parents : Edges
  names : Std.TreeSet String
  counters : Std.TreeMap String Nat
  /-- The number of the id that was given last, or zero. -/
  lastId : Nat

namespace Graph

/-- The name of a graph that is given none. -/
def defaultName : String := "default_graph"

/-- The graph of this name without nodes. -/
def empty (name : String) : Graph := ⟨name, #[], ∅, ∅, ∅, ∅, 0⟩

instance : Inhabited Graph := ⟨empty defaultName⟩

/-! ## Queries -/

/-- The number of nodes. -/
def size (g : Graph) : Nat := g.nodes.size

/-- The ids of all nodes, in increasing order. -/
def ids (g : Graph) : List NodeId := g.nodes.toList.map (·.id)

/-- The index at which a node's data stand. -/
def index? (id : NodeId) : Option Nat :=
  match id.number with
  | 0 => none
  | i + 1 => some i

/-- The node with an id, if there is one. -/
def node? (g : Graph) (id : NodeId) : Option Node := (index? id).bind (g.nodes[·]?)

def contains (g : Graph) (id : NodeId) : Bool := (g.node? id).isSome

/-- The node with an id. -/
def node (g : Graph) (id : NodeId) : Except Error Node :=
  match g.node? id with
  | some n => .ok n
  | none => .error (.nodeNotFound id)

def nodeName (g : Graph) (id : NodeId) : Except Error String := (g.node id).map (·.name)

/-- The shape declared for a node's output. -/
def nodeShape (g : Graph) (id : NodeId) : Except Error Shape := (g.node id).map (·.shape)

def nodeOp (g : Graph) (id : NodeId) : Except Error Op := (g.node id).map (·.op)

/-- The operands of a node, in order. -/
def nodeParents (g : Graph) (id : NodeId) : Except Error (List NodeId) :=
  (g.node id).map fun _ => g.parents.getD id []

/-- The nodes that have a node as an operand, once for each time, in order. -/
def nodeChildren (g : Graph) (id : NodeId) : Except Error (List NodeId) :=
  (g.node id).map fun _ => g.children.getD id []

/-- A node as it is shown. -/
def nodeText (g : Graph) (id : NodeId) : Except Error String := (g.node id).map (·.text)

@[simp] theorem node?_zero (g : Graph) : g.node? ⟨0⟩ = none := rfl

@[simp] theorem node?_succ (g : Graph) (i : Nat) : g.node? ⟨i + 1⟩ = g.nodes[i]? := rfl

theorem node_eq_ok_iff {g : Graph} {id : NodeId} {n : Node} :
    g.node id = .ok n ↔ g.node? id = some n := by
  unfold node
  split <;> simp_all

end Graph

end GateGraph
