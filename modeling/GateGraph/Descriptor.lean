import GateGraph.Graph.Basic

/-!
# `GateGraph.Descriptor` — snapshots of graphs

A descriptor is what remains of a graph when only its name and its nodes are kept, with the version of the
format in front. It may also hold nodes that no graph could have; nothing is checked.
-/

namespace GateGraph

/-- A snapshot of a graph. -/
structure Descriptor where
  version : String
  name : String
  nodes : List Node
  deriving DecidableEq, BEq

namespace Descriptor

/-- The version of the format. -/
def currentVersion : String := "0.1.0"

/-- The snapshot of a graph without nodes. -/
def empty (name : String) : Descriptor := ⟨currentVersion, name, []⟩

/-- Adds a node behind the others. -/
def add (d : Descriptor) (n : Node) : Descriptor := { d with nodes := d.nodes ++ [n] }

end Descriptor

/-- The snapshot of a graph, its nodes in increasing order of their ids, each with the operands that its edges
    lead to. -/
def Graph.describe (g : Graph) : Descriptor :=
  ⟨Descriptor.currentVersion, g.name,
    g.nodes.toList.map fun n => { n with parents := g.parents.getD n.id [] }⟩

end GateGraph
