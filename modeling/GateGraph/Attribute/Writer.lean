import GateGraph.Attribute.Map
import GateGraph.Attribute.Visitor

/-!
# `GateGraph.Attribute.Writer` — attributes put into a map

The writer is a visitor that only looks and puts what it sees into a map. Numbers are widened to 64 bits,
which loses nothing; one that is not finite has no place in JSON and becomes `null`. A name that is visited
again takes the later value.
-/

namespace GateGraph.Attributes

/-- A 32-bit number as a JSON value. -/
def realValue (x : Binary32) : Json.Value := .ofDouble (x.cast .double)

/-- Puts an attribute into the map, given how a value of its type is encoded. -/
def write {α : Type} (encode : α → Json.Value) (name : String) (present : α) : StateM Attributes α := do
  modify (·.insert name (encode present))
  return present

/-- The visitor that puts attributes into a map. -/
def writer : Attribute.Visitor (StateM Attributes) where
  natural := write fun n => .number (.natural n)
  real := write realValue
  strings := write fun s => .array (s.map .string)
  reals := write fun xs => .array (xs.map realValue)

end GateGraph.Attributes
