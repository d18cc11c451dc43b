import GateGraph.Attribute.Reader
import GateGraph.Attribute.Writer
import GateGraph.Binary.Exact
import GateGraph.Proofs.Json.Record

/-!
# `GateGraph.Proofs.Attribute.Reading` — what a reader makes of a map

A reader notes faults while it reads, in a state that all its reads share. This module says without the
state what comes out of one read: the value that the attribute has afterwards, and the faults that are added
to those before. What a writer has put into a map is read as it was, as far as JSON has numbers for it.

## Contents
- `Attributes.valueOf`, `Attributes.faultsOf` and `run_read`.
- `Attributes.Yields`: a map has a value of the right type under a name, or nothing. `yields_iff`: that is
  the case exactly when reading notes no fault.
- `finish_eq_ok_iff` and `finish_of_ne_nil`, the report.
- `real?_realValue`, `items?_real?_values` and `items?_string?_values`: what the encodings of the writer are
  read as.
-/

namespace GateGraph

namespace Attributes

open Json (Value)

variable {α : Type} {map : Attributes} {kind : Attribute.Kind} {decode : Value → Option α} {name : String}

/-- What has been put in last is found under its name, and everything else as before. -/
theorem getElem?_insert (map : Attributes) (key name : String) (value : Value) :
    (map.insert key value)[name]? = if key = name then some value else map[name]? := by
  simp only [Std.TreeMap.getElem?_insert, Std.compare_eq_iff_eq]

/-! ## One read -/

/-- What an attribute is after it has been read. -/
def valueOf (map : Attributes) (decode : Value → Option α) (name : String) (present : α) : α :=
  (map[name]?.bind decode).getD present

/-- What reading an attribute adds to the faults. -/
def faultsOf (map : Attributes) (kind : Attribute.Kind) (decode : Value → Option α) (name : String) :
    List Attribute.Fault :=
  match map[name]? with
  | none => []
  | some value => if (decode value).isSome then [] else [⟨name, kind⟩]

/-- **One read**, whatever has been read before. -/
theorem run_read (present : α) (faults : List Attribute.Fault) :
    (map.read kind decode name present).run faults =
      (map.valueOf decode name present, faults ++ map.faultsOf kind decode name) := by
  unfold valueOf faultsOf
  cases hvalue : map[name]? with
  | none =>
      rw [read_of_absent hvalue, List.append_nil]
      rfl
  | some value =>
      cases hx : decode value with
      | none =>
          rw [read_of_illTyped hvalue hx]
          simp only [Option.bind_some, hx, Option.getD_none]
          rfl
      | some x =>
          rw [read_of_decoded hvalue hx]
          simp only [Option.bind_some, hx, Option.getD_some, Option.isSome_some, if_true, List.append_nil]

/-- The map has nothing under the name, and the attribute keeps its value, or it has this value in the right
    type. -/
inductive Yields (map : Attributes) (decode : Value → Option α) (name : String) (present : α) : α → Prop
  | absent : map[name]? = none → Yields map decode name present present
  | present {value : Value} {x : α} : map[name]? = some value → decode value = some x →
      Yields map decode name present x

theorem yields_iff (kind : Attribute.Kind) {present x : α} :
    map.Yields decode name present x ↔
      map.faultsOf kind decode name = [] ∧ map.valueOf decode name present = x := by
  unfold faultsOf valueOf
  constructor
  · rintro (habsent | ⟨hvalue, hx⟩)
    · simp only [habsent, Option.bind_none, Option.getD_none, and_self]
    · simp only [hvalue, hx, Option.isSome_some, if_true, Option.bind_some, Option.getD_some, and_self]
  · cases hvalue : map[name]? with
    | none =>
        rintro ⟨-, rfl⟩
        exact .absent hvalue
    | some value =>
        cases hx : decode value with
        | none =>
            rintro ⟨hfaults, -⟩
            simp only [hx, Option.isSome_none, Bool.false_eq_true, if_false, List.cons_ne_nil] at hfaults
        | some x' =>
            rintro ⟨-, rfl⟩
            rw [Option.bind_some, hx]
            exact .present hvalue hx

/-- A value of the wrong type is a fault. -/
theorem faultsOf_ne_nil {value : Value} (hvalue : map[name]? = some value) (hx : decode value = none) :
    map.faultsOf kind decode name ≠ [] := by
  unfold faultsOf
  simp only [hvalue, hx, Option.isSome_none, Bool.false_eq_true, if_false]
  exact List.cons_ne_nil _ _

end Attributes

/-! ## The report -/

theorem Attribute.finish_eq_ok_iff {faults : List Fault} : finish faults = .ok () ↔ faults = [] := by
  unfold finish
  split
  · next hnil => exact ⟨fun _ => hnil, fun _ => rfl⟩
  · next hfaults => exact ⟨nofun, fun hnil => absurd hnil hfaults⟩

/-- All faults are reported together. -/
theorem Attribute.finish_of_ne_nil {faults : List Fault} (h : faults ≠ []) :
    finish faults = .error (.invalidOperation (.attributesIllTyped faults)) := if_neg h

/-! ## What has been written -/

/-- Infinities and what is no number stay so in 64 bits. -/
theorem Binary.isFinite_cast_double (x : Binary32) : (x.cast .double).isFinite = x.isFinite := by
  cases hx : x.isFinite with
  | true => exact (cast_double x hx).1
  | false =>
      unfold cast
      rw [hx]
      split <;> rfl

namespace Attributes

open Json (Value)

/-- A number is read as it was written, if it is finite, and otherwise not at all. -/
theorem real?_realValue (x : Binary32) : real? (realValue x) = if x.isFinite then some x else none := by
  unfold real? realValue Value.ofDouble
  rw [Binary.isFinite_cast_double]
  cases hx : x.isFinite with
  | true => exact congrArg some (Binary.cast_cast x hx)
  | false => rfl

theorem items?_real?_values {xs : List Binary32} (h : ∀ x ∈ xs, x.isFinite = true) :
    Value.items? real? (.array (xs.map realValue)) = some xs := by
  show (xs.map realValue).mapM real? = some xs
  rw [List.mapM_map]
  refine Json.mapM_eq_some_self fun x hx => ?_
  rw [Function.comp_apply, real?_realValue, if_pos (h x hx)]

/-- One number that is not finite makes the whole list unreadable. -/
theorem items?_real?_values_eq_none {xs : List Binary32} {x : Binary32} (hx : x ∈ xs)
    (h : x.isFinite = false) :
    Value.items? real? (.array (xs.map realValue)) = none := by
  show (xs.map realValue).mapM real? = none
  refine Json.mapM_eq_none.mpr ⟨realValue x, List.mem_map_of_mem hx, ?_⟩
  rw [real?_realValue, h]
  rfl

theorem items?_string?_values (texts : List String) :
    Value.items? Value.string? (.array (texts.map .string)) = some texts := by
  show (texts.map Value.string).mapM Value.string? = some texts
  rw [List.mapM_map]
  exact Json.mapM_eq_some_self fun _ _ => rfl

end Attributes

end GateGraph
