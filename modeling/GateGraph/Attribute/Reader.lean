import GateGraph.Attribute.Map
import GateGraph.Attribute.Visitor
import GateGraph.Error

/-!
# `GateGraph.Attribute.Reader` — attributes taken from a map

The reader is a visitor that answers with the value of the map under an attribute's name. A name that the map
does not have leaves the attribute as it is. So does a value that is not entirely of the type asked for, and
this is noted as a fault; the faults are reported together when the visit is over.

## Contents
- `Attributes.read`, one attribute; `Attributes.reader`, the visitor.
- `Attribute.finish`, the report.
- `read_of_absent`, `read_of_decoded`, `read_of_illTyped`: the three cases.
-/

namespace GateGraph

namespace Attributes

/-- Reads an attribute, given how a value of its type is decoded. -/
def read {α : Type} (map : Attributes) (kind : Attribute.Kind) (decode : Json.Value → Option α)
    (name : String) (present : α) : StateM (List Attribute.Fault) α :=
  match map[name]? with
  | none => return present
  | some value =>
      match decode value with
      | some x => return x
      | none => do
          modify (· ++ [⟨name, kind⟩])
          return present

/-- A number of any kind, by way of 64-bit floating point. -/
def real? (value : Json.Value) : Option Binary32 := value.double?.map (·.cast .single)

/-- The visitor that takes attributes from a map. -/
def reader (map : Attributes) : Attribute.Visitor (StateM (List Attribute.Fault)) where
  natural := map.read .natural Json.Value.natural?
  real := map.read .real real?
  strings := map.read .strings (Json.Value.items? Json.Value.string?)
  reals := map.read .reals (Json.Value.items? real?)

/-! ## The three cases -/

variable {α : Type} {map : Attributes} {kind : Attribute.Kind} {decode : Json.Value → Option α}
  {name : String} {present : α}

theorem read_of_absent (h : map[name]? = none) (faults : List Attribute.Fault) :
    (map.read kind decode name present).run faults = (present, faults) := by
  simp only [read, h]
  rfl

theorem read_of_decoded {value : Json.Value} {x : α} (h : map[name]? = some value)
    (hx : decode value = some x) (faults : List Attribute.Fault) :
    (map.read kind decode name present).run faults = (x, faults) := by
  simp only [read, h, hx]
  rfl

theorem read_of_illTyped {value : Json.Value} (h : map[name]? = some value) (hx : decode value = none)
    (faults : List Attribute.Fault) :
    (map.read kind decode name present).run faults = (present, faults ++ [⟨name, kind⟩]) := by
  simp only [read, h, hx]
  rfl

end Attributes

/-- Ends a visit: all faults together are one error. -/
def Attribute.finish (faults : List Fault) : Except Error Unit :=
  if faults = [] then .ok () else .error (.invalidOperation (.attributesIllTyped faults))

end GateGraph
