import GateGraph.Proofs.Attribute.Visits

/-!
# `GateGraph.Proofs.Attribute.RoundTrip` — what is written is read back

A writer puts attributes into a map and a reader takes them out again. Whoever does both need not keep to an
order, and the attributes may be anything: natural numbers and floating-point numbers have their places among
the numbers of JSON without getting into each other's way, and 32-bit numbers are widened and narrowed without
loss. Only infinities and what is no number have no place there; they are written as `null`, which is none of
the four types, so the reader leaves the attribute as it is and says so.

## Contents
- `Content.finite`, and `decode?_value`: one value that has been written and is read.
- `getElem?_ofContents`: with distinct names, everything that has been written is in the map.
- `ReadBack` and `affected`, what a reader makes of one attribute; `contentOf_ofContents` and
  `illTyped_ofContents`.
- `Attributes.written_read_back`.
-/

namespace GateGraph

open Json (Value)

namespace Attribute

/-- All numbers in a value are finite. -/
def Content.finite : Content → Bool
  | natural _ => true
  | real x => x.isFinite
  | strings _ => true
  | reals xs => xs.all (·.isFinite)

/-- **One value that has been written and is read**: it is the same to the last bit, or it cannot be read. -/
theorem decode?_value (content : Content) :
    content.kind.decode? content.value = if content.finite then some content else none := by
  cases content with
  | natural n => rfl
  | real x =>
      show (Attributes.real? (Attributes.realValue x)).map Content.real = if x.isFinite then _ else _
      rw [Attributes.real?_realValue]
      cases x.isFinite <;> rfl
  | strings texts =>
      show (Value.items? Value.string? (.array (texts.map .string))).map Content.strings = _
      rw [Attributes.items?_string?_values]
      rfl
  | reals xs =>
      show (Value.items? Attributes.real? (.array (xs.map Attributes.realValue))).map Content.reals =
        if xs.all (·.isFinite) then _ else _
      cases hall : xs.all (·.isFinite) with
      | true =>
          rw [Attributes.items?_real?_values (List.all_eq_true.mp hall)]
          rfl
      | false =>
          obtain ⟨x, hx, hinfinite⟩ := List.all_eq_false.mp hall
          rw [Attributes.items?_real?_values_eq_none hx (Bool.not_eq_true _ ▸ hinfinite)]
          rfl

/-- A call to a visitor, without the value that the attribute has: its name and its type. -/
def call (asked : String × Content) : String × Kind := (asked.1, asked.2.kind)

/-- What was written under the name of an attribute comes back, and it has the attribute's type. A value with
    numbers that are not finite does not come back; the attribute then keeps its present value. -/
def ReadBack (written : List (String × Content)) (asked : String × Content) (value : Content) : Prop :=
  ∃ content, (asked.1, content) ∈ written ∧ content.kind = asked.2.kind ∧
    value = if content.finite then content else asked.2

/-- Something was written under the name of an attribute that does not come back. -/
def affected (written : List (String × Content)) (asked : String × Content) : Bool :=
  written.any fun (name, content) => name == asked.1 && !content.finite

end Attribute

open Attribute (Content Kind Fault ReadBack affected call fault)

namespace Attributes

variable {written asked : List (String × Content)} {name : String} {content present : Content}

/-- Where names are distinct, no value takes the place of another one. -/
theorem getElem?_ofContents (hnames : (written.map (·.1)).Nodup) (h : (name, content) ∈ written) :
    (ofContents written)[name]? = some content.value := by
  obtain ⟨before, after, rfl⟩ := List.append_of_mem h
  apply getElem?_ofContents_last
  rw [List.map_append, List.map_cons] at hnames
  exact (List.nodup_cons.mp hnames.of_append_right).1

theorem contentOf_ofContents (hnames : (written.map (·.1)).Nodup) (h : (name, content) ∈ written)
    (hkind : content.kind = present.kind) :
    (ofContents written).contentOf name present = if content.finite then content else present := by
  unfold contentOf valueOf
  rw [getElem?_ofContents hnames h, Option.bind_some, ← hkind, Attribute.decode?_value]
  cases content.finite <;> rfl

theorem illTyped_ofContents (hnames : (written.map (·.1)).Nodup) (h : (name, content) ∈ written)
    (hkind : content.kind = present.kind) :
    (ofContents written).illTyped (fault (name, present)) = affected written (name, present) := by
  have hill : (ofContents written).illTyped (fault (name, present)) = !content.finite := by
    unfold illTyped fault
    simp only [getElem?_ofContents hnames h, ← hkind, Attribute.decode?_value]
    cases content.finite <;> rfl
  rw [hill, eq_comm, Bool.eq_iff_iff]
  unfold affected
  rw [List.any_eq_true]
  constructor
  · rintro ⟨⟨name', content'⟩, hmem, hboth⟩
    obtain ⟨hname, hinfinite⟩ := Bool.and_eq_true_iff.mp hboth
    -- with distinct names it is the same value
    obtain rfl : name' = name := beq_iff_eq.mp hname
    obtain rfl : content' = content := by
      have hsame := List.inj_on_of_nodup_map hnames hmem h rfl
      exact (Prod.mk.inj hsame).2
    exact hinfinite
  · intro hinfinite
    exact ⟨(name, content), h, Bool.and_eq_true_iff.mpr ⟨beq_self_eq_true name, hinfinite⟩⟩

/-- Every call of a reader goes with one of the writer. -/
theorem exists_written (hcalls : (asked.map call).Perm (written.map call)) {a : String × Content}
    (ha : a ∈ asked) : ∃ content, (a.1, content) ∈ written ∧ content.kind = a.2.kind := by
  have hmem : call a ∈ written.map call := hcalls.mem_iff.mp (List.mem_map_of_mem ha)
  obtain ⟨⟨name, content⟩, hwritten, heq⟩ := List.mem_map.mp hmem
  obtain ⟨rfl, hkind⟩ := Prod.mk.inj heq
  exact ⟨content, hwritten, hkind⟩

/-- Something is affected exactly if something has been written that JSON has no numbers for. -/
theorem exists_affected_iff (hcalls : (asked.map call).Perm (written.map call)) :
    (∃ a ∈ asked, affected written a = true) ↔ ∃ a ∈ written, a.2.finite = false := by
  unfold affected
  simp only [List.any_eq_true, Bool.and_eq_true, beq_iff_eq, Bool.not_eq_true']
  constructor
  · rintro ⟨_, -, b, hb, -, hinfinite⟩
    exact ⟨b, hb, hinfinite⟩
  · rintro ⟨b, hb, hinfinite⟩
    -- the value has been asked for, under the name under which it was written
    have hmem : call b ∈ asked.map call := hcalls.mem_iff.mpr (List.mem_map_of_mem hb)
    obtain ⟨a, ha, heq⟩ := List.mem_map.mp hmem
    exact ⟨a, ha, b, hb, (Prod.mk.inj heq).1.symm, hinfinite⟩

/-- **Writing and reading are inverse to each other.** The map of a writer's visit has the last value of each
    name and nothing else. If the names are distinct and a reader makes the same calls, in whatever order and
    with whatever values present, each attribute has the value that was written, unless JSON has no numbers
    for it. Then the attribute keeps its value, and the report lists all such attributes in the order in which
    they were read. -/
theorem written_read_back (written : List (String × Content)) :
    (∀ before name content after, written = before ++ (name, content) :: after →
      name ∉ after.map (·.1) → (ofContents written)[name]? = some content.value) ∧
    (∀ name, name ∉ written.map (·.1) → (ofContents written)[name]? = none) ∧
    ((written.map (·.1)).Nodup → ∀ asked, (asked.map call).Perm (written.map call) →
      ∃ values faults, ((ofContents written).reader.contents asked).run [] = (values, faults) ∧
        List.Forall₂ (ReadBack written) asked values ∧
        (Attribute.finish faults = .ok () ↔ ∀ a ∈ written, a.2.finite = true) ∧
        ((∃ a ∈ written, a.2.finite = false) → Attribute.finish faults =
          .error (.invalidOperation (.attributesIllTyped ((asked.filter (affected written)).map fault))))) := by
  refine ⟨?_, fun name => getElem?_ofContents_absent, ?_⟩
  · rintro before name content after rfl hlast
    exact getElem?_ofContents_last hlast
  · intro hnames asked hcalls
    let faults : List Fault := (asked.filter (affected written)).map fault
    have hfaults : (asked.map fault).filter (ofContents written).illTyped = faults := by
      rw [List.filter_map]
      refine congrArg (List.map fault) (List.filter_congr fun a ha => ?_)
      obtain ⟨content, hwritten, hkind⟩ := exists_written hcalls ha
      exact illTyped_ofContents hnames hwritten hkind
    have hreported : faults ≠ [] ↔ ∃ a ∈ written, a.2.finite = false := by
      rw [← exists_affected_iff hcalls, ne_eq, List.map_eq_nil_iff, List.filter_eq_nil_iff]
      simp only [not_forall, not_not, exists_prop]
    refine ⟨asked.map fun (name, present) => (ofContents written).contentOf name present, faults, ?_, ?_, ?_,
      fun hinfinite => ?_⟩
    · rw [run_contents_reader, hfaults, List.nil_append]
    · rw [List.forall₂_map_right_iff, List.forall₂_same]
      intro a ha
      obtain ⟨content, hwritten, hkind⟩ := exists_written hcalls ha
      exact ⟨content, hwritten, hkind, contentOf_ofContents hnames hwritten hkind⟩
    · rw [Attribute.finish_eq_ok_iff, ← not_ne_iff, hreported]
      simp only [not_exists, not_and, Bool.not_eq_false]
    · exact Attribute.finish_of_ne_nil (hreported.mpr hinfinite)

/-- Four attributes with an empty name and names beyond ASCII, read in another order than they were written: the
    largest natural number, the smallest number above zero and a text with a control character come back, and
    the list with an infinity is reported. -/
theorem written_read_back_infinity :
    ∃ (written asked : List (String × Content)) (values : List Content) (faults : List Fault),
      (written.map (·.1)).Nodup ∧ (asked.map call).Perm (written.map call) ∧
      ((ofContents written).reader.contents asked).run [] = (values, faults) ∧
      List.Forall₂ (ReadBack written) asked values ∧
      Attribute.finish faults = .error (.invalidOperation (.attributesIllTyped [⟨"αΣ", .reals⟩])) := by
  let written : List (String × Content) :=
    [("", .natural 0xffffffffffffffff), ("αΣ", .reals [-0, .ofBits .single 0x7f800000]),
      ("β", .real (.ofBits .single 1)), ("名", .strings ["\x00", "😀"])]
  let asked : List (String × Content) :=
    [("β", .real 0), ("αΣ", .reals []), ("名", .strings ["old"]), ("", .natural 0)]
  have hnames : (written.map (·.1)).Nodup := by decide +kernel
  have hcalls : (asked.map call).Perm (written.map call) := by decide +kernel
  obtain ⟨values, faults, hrun, hvalues, -, hreport⟩ := (written_read_back written).2.2 hnames asked hcalls
  refine ⟨written, asked, values, faults, hnames, hcalls, hrun, hvalues, ?_⟩
  rw [hreport ⟨("αΣ", .reals [-0, .ofBits .single 0x7f800000]), by decide +kernel, by decide +kernel⟩]
  decide +kernel

end Attributes

end GateGraph
