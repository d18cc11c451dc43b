import Std.Data.TreeMap
import GateGraph.Json.Value

/-!
# `GateGraph.Attribute.Map` — attributes as a JSON object

A map of attributes is a JSON object in which each key counts once: of a repeated key the last value. Its
keys are in the order of their code points.
-/

namespace GateGraph

/-- Named JSON values. -/
abbrev Attributes := Std.TreeMap String Json.Value

namespace Attributes

/-- The map of an object's fields. -/
def ofFields (fields : List (String × Json.Value)) : Attributes :=
  fields.foldl (fun map (name, value) => map.insert name value) ∅

/-- The map of an object in JSON; `none` when the text is no JSON or holds no object. -/
def ofString? (s : String) : Option Attributes := do
  let tree ← Json.Tree.ofString? s
  match ← Json.Value.ofTree? Json.nestingLimit tree with
  | .object fields => return ofFields fields
  | _ => none

/-- The text of a map, without blanks. -/
def render (map : Attributes) : String := (Json.Value.object map.toList).tree.render .compact

end Attributes

end GateGraph
