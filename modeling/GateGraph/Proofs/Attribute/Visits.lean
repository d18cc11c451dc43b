import GateGraph.Proofs.Attribute.Reading

/-!
# `GateGraph.Proofs.Attribute.Visits` — visits to any list of attributes

A visitor has an answer for each of the four types of attributes. What it answers to a list of attributes of
any types, in any order and with any names, is said here for the two visitors that go with maps: the reader
reads each attribute on its own and lists the faults in the order of the visit, and the writer puts one value
after another into its map, where a later one takes the place of an earlier one with the same name.

## Contents
- `Content.kind` and `Kind.decode?`: the type of a value, and how values of a type are read.
- `Attributes.illTyped`: a map has something else under a name. `faultsOf_eq_filter`.
- `run_contents_reader`, the visit of a reader.
- `Content.value`, how values are written; `Attributes.ofContents`, the map of a writer's visit, and
  `run_contents_writer`.
- `getElem?_ofContents_last` and `getElem?_ofContents_absent`: what is in that map.
-/

namespace GateGraph

open Json (Value)

namespace Attribute

/-- The type of a value. -/
def Content.kind : Content → Kind
  | natural _ => .natural
  | real _ => .real
  | strings _ => .strings
  | reals _ => .reals

/-- What a JSON value is read as when an attribute of this type is asked for. -/
def Kind.decode? : Kind → Value → Option Content
  | natural, value => value.natural?.map .natural
  | real, value => (Attributes.real? value).map .real
  | strings, value => (Value.items? Value.string? value).map .strings
  | reals, value => (Value.items? Attributes.real? value).map .reals

/-- The fault by which an attribute is reported. -/
def fault (asked : String × Content) : Fault := ⟨asked.1, asked.2.kind⟩

/-- How a value is written. -/
def Content.value : Content → Value
  | natural n => .number (.natural n)
  | real x => Attributes.realValue x
  | strings texts => .array (texts.map .string)
  | reals xs => .array (xs.map Attributes.realValue)

/-- The first attribute is shown to the visitor in its present state, the others in the state after that. -/
theorem run_contents_cons {σ : Type} (v : Visitor (StateM σ)) (name : String) (present : Content)
    (rest : List (String × Content)) (s : σ) :
    (v.contents ((name, present) :: rest)).run s =
      (((v.content name present).run s).1 :: ((v.contents rest).run ((v.content name present).run s).2).1,
        ((v.contents rest).run ((v.content name present).run s).2).2) := by
  unfold Visitor.contents
  rw [List.mapM_cons]
  rfl

end Attribute

open Attribute (Content Kind Fault)

namespace Attributes

variable {α : Type} {map : Attributes} {kind : Kind} {decode : Value → Option α} {wrap : α → Content}
  {name : String}

/-! ## Reading -/

/-- The map has something under the name, and it is not of the type that is expected. -/
def illTyped (map : Attributes) (f : Fault) : Bool :=
  match map[f.name]? with
  | none => false
  | some value => (f.expected.decode? value).isNone

/-- One read adds the fault if the value is of the wrong type. -/
theorem faultsOf_eq_filter (h : ∀ value, kind.decode? value = (decode value).map wrap) :
    map.faultsOf kind decode name = [⟨name, kind⟩].filter map.illTyped := by
  unfold faultsOf
  rw [List.filter_singleton, illTyped]
  cases map[name]? with
  | none => rfl
  | some value =>
      simp only [h, Option.isNone_map]
      cases decode value <;> rfl

/-- A value can be wrapped before or after it is read. -/
theorem valueOf_wrap (h : ∀ value, kind.decode? value = (decode value).map wrap) (present : α) :
    map.valueOf kind.decode? name (wrap present) = wrap (map.valueOf decode name present) := by
  unfold valueOf
  cases map[name]? with
  | none => rfl
  | some value =>
      rw [Option.bind_some, Option.bind_some, h]
      cases decode value <;> rfl

/-- What an attribute of any type is after it has been read. -/
def contentOf (map : Attributes) (name : String) (present : Content) : Content :=
  map.valueOf present.kind.decode? name present

theorem run_content_reader (map : Attributes) (name : String) (present : Content) (faults : List Fault) :
    (map.reader.content name present).run faults =
      (map.contentOf name present, faults ++ [Attribute.fault (name, present)].filter map.illTyped) := by
  have hread {α : Type} {kind : Kind} {decode : Value → Option α} {wrap : α → Content} (x : α)
      (h : ∀ value, kind.decode? value = (decode value).map wrap) :
      (wrap <$> map.read kind decode name x).run faults =
        (map.valueOf kind.decode? name (wrap x), faults ++ [⟨name, kind⟩].filter map.illTyped) := by
    rw [StateT.run_map, run_read, valueOf_wrap h, faultsOf_eq_filter h]
    rfl
  cases present with
  | natural n => exact hread n fun _ => rfl
  | real x => exact hread x fun _ => rfl
  | strings texts => exact hread texts fun _ => rfl
  | reals xs => exact hread xs fun _ => rfl

/-- **The visit of a reader.** Attributes are read one by one, and none of them has an influence on another; the
    faults stand in the order of the visit. -/
theorem run_contents_reader (map : Attributes) (asked : List (String × Content)) (faults : List Fault) :
    (map.reader.contents asked).run faults =
      (asked.map fun (name, present) => map.contentOf name present,
        faults ++ (asked.map Attribute.fault).filter map.illTyped) := by
  induction asked generalizing faults with
  | nil =>
      rw [List.map_nil, List.map_nil, List.filter_nil, List.append_nil]
      rfl
  | cons first rest ih =>
      obtain ⟨name, present⟩ := first
      rw [Attribute.run_contents_cons, run_content_reader, ih, List.append_assoc, ← List.filter_append]
      rfl

/-! ## Writing -/

theorem run_content_writer (map : Attributes) (name : String) (present : Content) :
    (writer.content name present).run map = (present, map.insert name present.value) := by
  cases present <;> rfl

/-- The map that a writer's visit to these attributes makes. -/
def ofContents (written : List (String × Content)) : Attributes := ((writer.contents written).run ∅).2

/-- **The visit of a writer.** It answers with what it sees, and puts one value after another into its map. -/
theorem run_contents_writer (written : List (String × Content)) (map : Attributes) :
    (writer.contents written).run map =
      (written.map (·.2), written.foldl (fun map (name, content) => map.insert name content.value) map) := by
  induction written generalizing map with
  | nil => rfl
  | cons first rest ih =>
      obtain ⟨name, present⟩ := first
      rw [Attribute.run_contents_cons, run_content_writer, ih]
      rfl

theorem getElem?_ofContents_concat (written : List (String × Content)) (other name : String)
    (content : Content) :
    (ofContents (written ++ [(other, content)]))[name]? =
      if other = name then some content.value else (ofContents written)[name]? := by
  unfold ofContents
  rw [run_contents_writer, run_contents_writer, List.foldl_append]
  exact getElem?_insert _ other name content.value

/-- Of several values with one name, the map has the last. -/
theorem getElem?_ofContents_last {before after : List (String × Content)} {name : String} {content : Content}
    (h : name ∉ after.map (·.1)) :
    (ofContents (before ++ (name, content) :: after))[name]? = some content.value := by
  induction after using List.reverseRecOn with
  | nil =>
      rw [getElem?_ofContents_concat, if_pos rfl]
  | append_singleton rest last ih =>
      obtain ⟨other, value⟩ := last
      rw [List.map_append, List.mem_append, not_or] at h
      have hne : other ≠ name := fun heq => h.2 (List.mem_singleton.mpr heq.symm)
      rw [← List.cons_append, ← List.append_assoc, getElem?_ofContents_concat, if_neg hne]
      exact ih h.1

/-- Nothing else is in the map. -/
theorem getElem?_ofContents_absent {written : List (String × Content)} {name : String}
    (h : name ∉ written.map (·.1)) : (ofContents written)[name]? = none := by
  induction written using List.reverseRecOn with
  | nil => rfl
  | append_singleton rest last ih =>
      obtain ⟨other, value⟩ := last
      rw [List.map_append, List.mem_append, not_or] at h
      have hne : other ≠ name := fun heq => h.2 (List.mem_singleton.mpr heq.symm)
      rw [getElem?_ofContents_concat, if_neg hne]
      exact ih h.1

end Attributes

end GateGraph
