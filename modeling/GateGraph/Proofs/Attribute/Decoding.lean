import GateGraph.Proofs.Attribute.Visits

/-!
# `GateGraph.Proofs.Attribute.Decoding` — what a reader does to each attribute

A reader is asked for attributes of four types, any number of times and under any names. This module says what
the types are, without reference to reading, and holds the reader against that. A sequence is of a type only if
it is an array and each of its items fits; there is no such thing as the readable part of an array. So a call
either takes the whole value or leaves the attribute as it was, and in the latter case the report has an entry
for it unless the map has nothing under the name.

## Contents
- `Attribute.Kind.Fits` and `Attribute.Kind.Decodes`: the values of a type, and what they stand for.
- `decode?_eq_some_iff` and `decode?_eq_none_iff`: decoding is exactly that.
- `Attributes.Answers`, the value that an attribute has after a call, and `Attributes.Refused`, the calls that
  are reported.
- `reader_faithful`.
-/

namespace GateGraph

open Json (Value)

/-! ## Values of a type -/

/-- The value is an array, and all of its items are such values. -/
def Json.Value.IsArrayOf (P : Value → Prop) (value : Value) : Prop :=
  ∃ items, value = .array items ∧ ∀ item ∈ items, P item

namespace Attribute

/-- The value is entirely of the type. -/
def Kind.Fits : Kind → Value → Prop
  | natural, value => ∃ n, value = .number (.natural n)
  | real, value => ∃ n, value = .number n
  | strings, value => value.IsArrayOf fun item => ∃ s, item = .string s
  | reals, value => value.IsArrayOf fun item => ∃ n, item = .number n

/-- A JSON number as an attribute: it is taken with 64 bits and rounded to 32 bits. -/
def narrowed (n : Json.Number) : Binary32 := n.double.cast .single

/-- What a value of the type stands for. -/
inductive Kind.Decodes : Kind → Value → Content → Prop
  | natural (n : UInt64) : Decodes .natural (.number (.natural n)) (.natural n)
  | real (n : Json.Number) : Decodes .real (.number n) (.real (narrowed n))
  | strings (texts : List String) : Decodes .strings (.array (texts.map .string)) (.strings texts)
  | reals (numbers : List Json.Number) :
      Decodes .reals (.array (numbers.map .number)) (.reals (numbers.map narrowed))

end Attribute

namespace Json.Value

variable {value : Value}

theorem isArrayOf_iff {γ : Type} {wrap : γ → Value} :
    (value.IsArrayOf fun item => ∃ c, item = wrap c) ↔ ∃ cs : List γ, value = .array (cs.map wrap) := by
  constructor
  · rintro ⟨items, rfl, hitems⟩
    suffices h : ∃ cs : List γ, items = cs.map wrap from h.imp fun _ => congrArg array
    induction items with
    | nil => exact ⟨[], rfl⟩
    | cons item items ih =>
        obtain ⟨c, rfl⟩ := hitems item List.mem_cons_self
        obtain ⟨cs, rfl⟩ := ih fun other h => hitems other (List.mem_cons_of_mem _ h)
        exact ⟨c :: cs, rfl⟩
  · rintro ⟨cs, rfl⟩
    refine ⟨cs.map wrap, rfl, fun item hitem => ?_⟩
    obtain ⟨c, -, rfl⟩ := List.mem_map.mp hitem
    exact ⟨c, rfl⟩

end Json.Value

/-- Exactly the values of the type stand for something. -/
theorem Attribute.Kind.fits_iff {kind : Kind} {value : Value} :
    kind.Fits value ↔ ∃ content, kind.Decodes value content := by
  constructor
  · intro h
    cases kind with
    | natural =>
        obtain ⟨n, rfl⟩ := h
        exact ⟨_, .natural n⟩
    | real =>
        obtain ⟨n, rfl⟩ := h
        exact ⟨_, .real n⟩
    | strings =>
        obtain ⟨texts, rfl⟩ := Value.isArrayOf_iff.mp h
        exact ⟨_, .strings texts⟩
    | reals =>
        obtain ⟨numbers, rfl⟩ := Value.isArrayOf_iff.mp h
        exact ⟨_, .reals numbers⟩
  · rintro ⟨_, n | n | texts | numbers⟩
    · exact ⟨n, rfl⟩
    · exact ⟨n, rfl⟩
    · exact Value.isArrayOf_iff.mpr ⟨texts, rfl⟩
    · exact Value.isArrayOf_iff.mpr ⟨numbers, rfl⟩

/-! ## Decoding -/

namespace Json.Value

variable {value : Value}

theorem natural?_eq_some_iff {n : UInt64} : value.natural? = some n ↔ value = .number (.natural n) := by
  have hnumber (m : Number) : m.natural? = some n ↔ m = .natural n := by
    unfold Number.natural?
    cases m <;> simp
  unfold natural?
  cases value <;> simp [hnumber]

theorem string?_eq_some_iff {s : String} : value.string? = some s ↔ value = .string s := by
  unfold string?
  cases value <;> simp

theorem double?_eq_some_iff {x : Binary64} :
    value.double? = some x ↔ ∃ n, value = .number n ∧ n.double = x := by
  unfold double?
  cases value <;> simp

/-- An array can be read if all of its items can. -/
theorem items?_eq_some_iff {α γ : Type} {read : Value → Option α} {wrap : γ → Value} {g : γ → α}
    (h : ∀ item a, read item = some a ↔ ∃ c, item = wrap c ∧ a = g c) {as : List α} :
    items? read value = some as ↔ ∃ cs : List γ, value = .array (cs.map wrap) ∧ as = cs.map g := by
  unfold items?
  cases value with
  | array items => simpa only [array.injEq] using mapM_eq_some_iff h
  | _ => simp

theorem items?_string?_eq_some_iff {texts : List String} :
    items? string? value = some texts ↔ value = .array (texts.map .string) := by
  have hitem (item : Value) (s : String) : item.string? = some s ↔ ∃ t, item = .string t ∧ s = id t := by
    rw [string?_eq_some_iff]
    exact ⟨fun h => ⟨s, h, rfl⟩, fun ⟨_, h, hs⟩ => hs ▸ h⟩
  rw [items?_eq_some_iff hitem]
  simp only [List.map_id, exists_eq_right']

end Json.Value

namespace Attributes

variable {value : Value}

theorem real?_eq_some_iff {x : Binary32} :
    real? value = some x ↔ ∃ n, value = .number n ∧ x = Attribute.narrowed n := by
  unfold real?
  simp only [Option.map_eq_some_iff, Value.double?_eq_some_iff]
  constructor
  · rintro ⟨_, ⟨n, rfl, rfl⟩, rfl⟩
    exact ⟨n, rfl, rfl⟩
  · rintro ⟨n, rfl, rfl⟩
    exact ⟨n.double, ⟨n, rfl, rfl⟩, rfl⟩

theorem items?_real?_eq_some_iff {xs : List Binary32} :
    Value.items? real? value = some xs ↔
      ∃ numbers : List Json.Number, value = .array (numbers.map .number) ∧
        xs = numbers.map Attribute.narrowed :=
  Value.items?_eq_some_iff fun _ _ => real?_eq_some_iff

end Attributes

namespace Attribute

/-- **Decoding finds what a value stands for.** -/
theorem Kind.decode?_eq_some_iff {kind : Kind} {value : Value} {content : Content} :
    kind.decode? value = some content ↔ kind.Decodes value content := by
  constructor
  · intro h
    cases kind with
    | natural =>
        obtain ⟨n, hn, rfl⟩ := Option.map_eq_some_iff.mp h
        obtain rfl := Value.natural?_eq_some_iff.mp hn
        exact .natural n
    | real =>
        obtain ⟨x, hx, rfl⟩ := Option.map_eq_some_iff.mp h
        obtain ⟨n, rfl, rfl⟩ := Attributes.real?_eq_some_iff.mp hx
        exact .real n
    | strings =>
        obtain ⟨texts, htexts, rfl⟩ := Option.map_eq_some_iff.mp h
        obtain rfl := Value.items?_string?_eq_some_iff.mp htexts
        exact .strings texts
    | reals =>
        obtain ⟨xs, hxs, rfl⟩ := Option.map_eq_some_iff.mp h
        obtain ⟨numbers, rfl, rfl⟩ := Attributes.items?_real?_eq_some_iff.mp hxs
        exact .reals numbers
  · rintro (n | n | texts | numbers)
    · rfl
    · rfl
    · exact congrArg (Option.map Content.strings) (Value.items?_string?_eq_some_iff.mpr rfl)
    · exact congrArg (Option.map Content.reals) (Attributes.items?_real?_eq_some_iff.mpr ⟨numbers, rfl, rfl⟩)

theorem Kind.decode?_eq_none_iff {kind : Kind} {value : Value} :
    kind.decode? value = none ↔ ¬ kind.Fits value := by
  rw [Option.eq_none_iff_forall_ne_some, Kind.fits_iff, not_exists]
  exact forall_congr' fun content => not_congr Kind.decode?_eq_some_iff

end Attribute

/-! ## Calls -/

namespace Attributes

open Attribute (Content Kind Fault fault)

/-- The map has something under the name, and it is not entirely of the type that is asked for. -/
def Refused (map : Attributes) (call : String × Content) : Prop :=
  ∃ value, map[call.1]? = some value ∧ ¬ call.2.kind.Fits value

/-- The value that an attribute has after a call. It keeps the present one, unless the map has a value of its
    type. -/
inductive Answers (map : Attributes) : String × Content → Content → Prop
  | absent {name : String} {present : Content} : map[name]? = none → Answers map (name, present) present
  | refused {name : String} {present : Content} {value : Value} : map[name]? = some value →
      ¬ present.kind.Fits value → Answers map (name, present) present
  | decoded {name : String} {present content : Content} {value : Value} : map[name]? = some value →
      present.kind.Decodes value content → Answers map (name, present) content

variable {map : Attributes}

theorem illTyped_iff {call : String × Content} : map.illTyped (fault call) = true ↔ map.Refused call := by
  unfold illTyped Refused
  cases hvalue : map[call.1]? with
  | none => simp only [fault, hvalue, Bool.false_eq_true, reduceCtorEq, false_and, exists_false]
  | some value =>
      simp only [fault, hvalue, Option.isNone_iff_eq_none, Kind.decode?_eq_none_iff, Option.some.injEq,
        exists_eq_left']

instance : DecidablePred map.Refused := fun _ => decidable_of_iff _ illTyped_iff

theorem answers_contentOf (name : String) (present : Content) :
    map.Answers (name, present) (map.contentOf name present) := by
  unfold contentOf valueOf
  cases hvalue : map[name]? with
  | none => exact .absent hvalue
  | some value =>
      rw [Option.bind_some]
      cases hdecode : present.kind.decode? value with
      | none => exact .refused hvalue (Kind.decode?_eq_none_iff.mp hdecode)
      | some content => exact .decoded hvalue (Kind.decode?_eq_some_iff.mp hdecode)

/-- What is reported are the calls that are refused. -/
theorem filter_illTyped (asked : List (String × Content)) :
    (asked.map fault).filter map.illTyped = (asked.filter (map.Refused ·)).map fault := by
  rw [List.filter_map]
  refine congrArg (List.map fault) (List.filter_congr fun call _ => ?_)
  rw [Function.comp_apply, Bool.eq_iff_iff, decide_eq_true_iff]
  exact illTyped_iff

/-- **A reader is faithful to its map.** Natural numbers are the numerals below `2 ^ 64` without sign, point and
    exponent. After any calls, whatever has been reported before, each attribute has the value of its type that
    the map has under its name, and otherwise the one that it had. The report is empty exactly if no call is
    refused, and else it has one entry for each such call, in the order of the calls. -/
theorem reader_faithful (map : Attributes) (asked : List (String × Content)) :
    (∀ (numeral : Numeral) (n : UInt64), Json.Number.ofNumeral? numeral = some (.natural n) ↔
      numeral.isWhole = true ∧ numeral.negative = false ∧ Decimal.value numeral.whole = n.toNat) ∧
    ∃ (values : List Content) (faults : List Fault),
      (∀ before, (map.reader.contents asked).run before = (values, before ++ faults)) ∧
      List.Forall₂ map.Answers asked values ∧
      (Attribute.finish faults = .ok () ↔ ∀ call ∈ asked, ¬ map.Refused call) ∧
      ((∃ call ∈ asked, map.Refused call) → ∃ cause : InvalidOperation,
        Attribute.finish faults = .error (.invalidOperation cause) ∧
        cause.message = "属性读取失败：" ++ String.intercalate "；"
          ((asked.filter (map.Refused ·)).map fun (name, present) => name ++ "应为" ++ present.kind.text)) := by
  let faults : List Fault := (asked.filter (map.Refused ·)).map fault
  have hempty : faults = [] ↔ ∀ call ∈ asked, ¬ map.Refused call := by
    rw [List.map_eq_nil_iff, List.filter_eq_nil_iff]
    simp only [decide_eq_true_iff]
  refine ⟨fun _ _ => Json.Number.ofNumeral?_eq_natural_iff, asked.map fun (name, present) =>
    map.contentOf name present, faults, fun before => ?_, ?_, ?_, fun hrefused => ?_⟩
  · rw [run_contents_reader, filter_illTyped]
  · rw [List.forall₂_map_right_iff, List.forall₂_same]
    exact fun (name, present) _ => answers_contentOf name present
  · rw [Attribute.finish_eq_ok_iff, hempty]
  · have hreported : faults ≠ [] := by
      obtain ⟨call, hcall, hrefused⟩ := hrefused
      exact fun hnil => hempty.mp hnil call hcall hrefused
    refine ⟨.attributesIllTyped faults, Attribute.finish_of_ne_nil hreported, ?_⟩
    show _ ++ String.intercalate "；" (faults.map Fault.text) = _
    rw [List.map_map]
    rfl

/-- Seven calls on a map with three names. One array has a text between its numbers, so it is neither an array
    of numbers nor one of texts; one name is asked for in three types; and one is not in the map. -/
theorem reader_faithful_mixed :
    ∃ (map : Attributes) (asked : List (String × Content)) (faults : List Fault) (cause : InvalidOperation),
      asked = [("n", .natural 0), ("xs", .reals [0]), ("absent", .strings ["kept"]), ("n", .reals []),
        ("xs", .strings []), ("名", .strings ["old"]), ("n", .real 0)] ∧
      (map.reader.contents asked).run [] = ([.natural 7, .reals [0], .strings ["kept"], .reals [], .strings [],
        .strings ["x", ""], .real (.ofNat .single 7)], faults) ∧
      Attribute.finish faults = .error (.invalidOperation cause) ∧
      cause.message = "属性读取失败：xs应为数值数组；n应为数值数组；xs应为字符串数组" := by
  let map : Attributes := ofFields [("名", .array [.string "x", .string ""]), ("n", .number (.natural 7)),
    ("xs", .array [.number (.natural 1), .string "2", .number (.real 0)])]
  let asked : List (String × Content) := [("n", .natural 0), ("xs", .reals [0]), ("absent", .strings ["kept"]),
    ("n", .reals []), ("xs", .strings []), ("名", .strings ["old"]), ("n", .real 0)]
  have hvalues : ((map.reader.contents asked).run []).1 = [.natural 7, .reals [0], .strings ["kept"], .reals [],
      .strings [], .strings ["x", ""], .real (.ofNat .single 7)] := by
    decide +kernel
  obtain ⟨-, values, faults, hrun, -, -, hreport⟩ := reader_faithful map asked
  obtain ⟨cause, hfinish, hmessage⟩ := hreport ⟨("n", .reals []), by decide +kernel, by decide +kernel⟩
  refine ⟨map, asked, faults, cause, rfl, ?_, hfinish, hmessage.trans (by decide +kernel)⟩
  rw [hrun] at hvalues ⊢
  exact congrArg (·, faults) hvalues

end Attributes

end GateGraph
