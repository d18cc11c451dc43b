import GateGraph.Json.Record
import GateGraph.Shape.Basic

/-!
# `GateGraph.Shape.Json` — shapes in JSON

A shape is a record with the one field `dims`: an array of its dimensions, in which `null` is an open one, or
`null` for an open rank. In an object the field may also be missing.
-/

namespace GateGraph

open Json (Tree)

/-- A dimension in JSON. -/
def Dim.tree : Dim → Tree
  | none => .null
  | some n => .natural n.toNat

/-- Reads a dimension. -/
def Dim.ofTree? : Tree → Option Dim
  | .null => some none
  | t => t.natural?.map some

namespace Shape

/-- A shape in JSON. -/
def tree (s : Shape) : Tree :=
  .record [("dims", match s with
    | unranked => .null
    | ranked dims => .array (dims.map Dim.tree))]

/-- The text of a shape in JSON, without blanks. -/
def toJson (s : Shape) : String := s.tree.render .compact

/-- Reads the field of a shape. -/
def ofDims? : Tree → Option Shape
  | .null => some unranked
  | t => (t.list? Dim.ofTree?).map ranked

/-- Reads a shape. -/
def ofTree? (t : Tree) : Option Shape := do
  match ← t.members? ["dims"] with
  | [some dims] => ofDims? dims
  | _ => return unranked

/-- Reads a shape from a text. -/
def ofJson? (text : String) : Option Shape := (Tree.ofString? text).bind ofTree?

end Shape

end GateGraph
