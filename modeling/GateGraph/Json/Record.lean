import GateGraph.Json.Value

/-!
# `GateGraph.Json.Record` — records in JSON

A record with fields in a fixed order is written as an object. It is read from an object, in which fields
that it does not have count for nothing, or from an array with exactly its fields in order. A field that
stands in an object twice is refused.

## Contents
- `field?`, one field of an object; `Tree.members?`, the fields of a record.
- `Tree.natural?`, `Tree.string?`, `Tree.list?`: what a field may hold.
-/

namespace GateGraph.Json

/-- The content of the field with a name, or `none` inside when there is no such field; refused when there
    are several. -/
def field? {α : Type} (name : String) (fields : List (String × α)) : Option (Option α) :=
  match fields.filter (·.1 == name) with
  | [] => some none
  | [(_, content)] => some (some content)
  | _ => none

namespace Tree

/-- The fields of an object with their keys as strings. -/
def named? (fields : List (List Quoted.Piece × Tree)) : Option (List (String × Tree)) :=
  fields.mapM fun (k, t) => (stringOf? k).map fun key => (key, t)

/-- The fields of a record, in the order of their names; `none` inside for one that an object does not
    have. -/
def members? (names : List String) : Tree → Option (List (Option Tree))
  | object fields => do
      let fields ← named? fields
      names.mapM fun name => field? name fields
  | array items => if items.length = names.length then some (items.map some) else none
  | _ => none

/-- A natural number below `2 ^ 64`. -/
def natural? : Tree → Option UInt64
  | number n => (Number.ofNumeral? n).bind Number.natural?
  | _ => none

/-- A string. -/
def string? : Tree → Option String
  | string pieces => stringOf? pieces
  | _ => none

/-- An array all of whose items can be read. -/
def list? {α : Type} (read : Tree → Option α) : Tree → Option (List α)
  | array items => items.mapM read
  | _ => none

end Tree

end GateGraph.Json
