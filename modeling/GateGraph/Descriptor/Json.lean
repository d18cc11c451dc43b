import GateGraph.Descriptor
import GateGraph.Shape.Json

/-!
# `GateGraph.Descriptor.Json` — descriptors in JSON

A descriptor is a record of version, name and nodes, a node one of id, name, operation, shape and parents.
An operation is an object that names its type in the field `type`, before the fields of its own; it is also
read from an array that begins with the type. Numbers that are not finite become `null`, which reads back as
a parameter that is not set, and does not read back as a bound.

## Contents
- `ActivationKind.toJson` and `ofJson?`, `Op.tree` and `ofValue?`, `Node.tree` and `ofTree?`.
- `Descriptor.toJson` and `Descriptor.ofJson?`.
-/

namespace GateGraph

open Json (Tree Value)

/-! ## Kinds of activation -/

namespace ActivationKind

/-- The text of a kind in JSON. -/
def toJson (k : ActivationKind) : String := (Tree.text k.name).render .compact

/-- Reads a kind: its name, or an object with its name as the only key and nothing under it. -/
def ofTree? : Tree → Option ActivationKind
  | .string pieces => (Json.stringOf? pieces).bind ofName?
  | .object [(key, .null)] => (Json.stringOf? key).bind ofName?
  | _ => none

/-- Reads a kind from a text. -/
def ofJson? (text : String) : Option ActivationKind := (Tree.ofString? text).bind ofTree?

/-- Reads a kind inside an operation, where an empty object also counts as nothing. -/
def ofValue? : Value → Option ActivationKind
  | .string s => ofName? s
  | .object [(key, .null)] => ofName? key
  | .object [(key, .object [])] => ofName? key
  | _ => none

end ActivationKind

/-! ## Operations -/

namespace Op

/-- A 32-bit number in JSON. -/
def realTree (x : Binary32) : Tree := .real Json.singleStyle x

/-- The field of a parameter, if it is set. -/
def paramFields (name : String) : Option Binary32 → List (String × Tree)
  | none => []
  | some x => [(name, realTree x)]

/-- The type of an operation in JSON. -/
def typeName : Op → String
  | parameter => "Parameter"
  | arith op => op.title
  | clamp _ _ => "Clamp"
  | activation _ => "Activation"

/-- The fields of an operation behind its type. -/
def fields : Op → List (String × Tree)
  | parameter | arith _ => []
  | clamp min max => [("min", realTree min), ("max", realTree max)]
  | activation f =>
      ("function", .text f.kind.name) :: (paramFields "alpha" f.alpha ++ paramFields "beta" f.beta)

/-- An operation in JSON. -/
def tree (op : Op) : Tree := .record (("type", .text op.typeName) :: op.fields)

/-- Reads a 32-bit number. -/
def real? : Value → Option Binary32
  | .number n => some n.single
  | _ => none

/-- Reads a parameter; `null` is one that is not set. -/
def param? : Value → Option (Option Binary32)
  | .null => some none
  | v => (real? v).map some

/-- Reads a parameter that may be missing. -/
def optionalParam? : Option Value → Option (Option Binary32)
  | none => some none
  | some v => param? v

/-- The names of the fields behind the type. -/
def fieldNames? : String → Option (List String)
  | "Parameter" | "Add" | "Subtract" | "Multiply" => some []
  | "Clamp" => some ["min", "max"]
  | "Activation" => some ["function", "alpha", "beta"]
  | _ => none

/-- The operation of a type and its fields. -/
def ofMembers? (type : String) (members : List (Option Value)) : Option Op :=
  match type, members with
  | "Parameter", [] => some parameter
  | "Add", [] => some (arith .add)
  | "Subtract", [] => some (arith .subtract)
  | "Multiply", [] => some (arith .multiply)
  | "Clamp", [some min, some max] => do
      let min ← real? min
      let max ← real? max
      return clamp min max
  | "Activation", [some function, alpha, beta] => do
      let kind ← ActivationKind.ofValue? function
      let alpha ← optionalParam? alpha
      let beta ← optionalParam? beta
      return activation ⟨kind, alpha, beta⟩
  | _, _ => none

/-- The contents of an array as the fields of a type; parameters at the end may be left out. -/
def positional (type : String) (items : List Value) : List (Option Value) :=
  let missing := if type = "Activation" then 3 - items.length else 0
  items.map some ++ List.replicate missing none

/-- Reads an operation. -/
def ofValue? : Value → Option Op
  | .object fields => do
      match ← Json.field? "type" fields with
      | some (.string type) =>
          let members ← (← fieldNames? type).mapM fun name => Json.field? name fields
          ofMembers? type members
      | _ => none
  | .array (.string type :: items) => ofMembers? type (positional type items)
  | _ => none

end Op

/-! ## Nodes and descriptors -/

/-- A natural number below `2 ^ 64` as an id. -/
def NodeId.ofTree? (t : Tree) : Option NodeId := t.natural?.map fun n => ⟨n.toNat⟩

def NodeId.tree (id : NodeId) : Tree := .natural id.number

namespace Node

/-- A node in JSON. -/
def tree (n : Node) : Tree :=
  .record [
    ("id", n.id.tree),
    ("name", .text n.name),
    ("node_type", n.op.tree),
    ("output_shape", n.shape.tree),
    ("parents", .array (n.parents.map NodeId.tree))]

/-- Reads a node; `room` is what is left of the nesting limit. -/
def ofTree? (room : Nat) (t : Tree) : Option Node := do
  match ← t.members? ["id", "name", "node_type", "output_shape", "parents"] with
  | [some id, some name, some type, some shape, some parents] =>
      return {
        id := ← NodeId.ofTree? id
        name := ← name.string?
        op := ← (Value.ofTree? (room - 1) type).bind Op.ofValue?
        shape := ← Shape.ofTree? shape
        parents := ← parents.list? NodeId.ofTree? }
  | _ => none

/-- Reads a node from a text. -/
def ofJson? (text : String) : Option Node :=
  (Tree.ofString? text).bind (ofTree? Json.nestingLimit)

end Node

namespace Descriptor

/-- A descriptor in JSON. -/
def tree (d : Descriptor) : Tree :=
  .record [
    ("version", .text d.version),
    ("name", .text d.name),
    ("nodes", .array (d.nodes.map Node.tree))]

/-- The text of a descriptor in JSON, one field on a line. -/
def toJson (d : Descriptor) : String := d.tree.render .pretty

/-- Reads a descriptor. A node stands in two containers. -/
def ofTree? (t : Tree) : Option Descriptor := do
  match ← t.members? ["version", "name", "nodes"] with
  | [some version, some name, some nodes] =>
      return {
        version := ← version.string?
        name := ← name.string?
        nodes := ← nodes.list? (Node.ofTree? (Json.nestingLimit - 2)) }
  | _ => none

/-- Reads a descriptor from a text. -/
def ofJson? (text : String) : Option Descriptor := (Tree.ofString? text).bind ofTree?

end Descriptor

end GateGraph
