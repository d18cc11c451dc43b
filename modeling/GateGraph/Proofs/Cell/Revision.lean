import GateGraph.Proofs.Attribute.Visits
import GateGraph.Proofs.Cell.Attributes

/-!
# `GateGraph.Proofs.Cell.Revision` — a map read over a cell

A reader can visit a cell that has been configured before. What the map has in the right type takes the place
of what the cell had, and all of it is brought into form again: a map that changes nothing but the names of
the activations also decides how many parameters are left, because the gates have become more or fewer. No
attribute stands in the way of another one. Whoever reads the same map a second time finds everything in its
place and the same faults.

## Contents
- `GateParams.fitted`, parameters for another number of gates; `fitted_map_some`, `Aligned.fitted_eq` and
  `Attributes.fitted_valueOf`: it makes no difference whether they are fitted or shown and brought into form.
- `Cell.schema`, the attributes that a cell asks for, and `Attributes.cellFaults_eq_filter`.
- `Attributes.valueOf_again`, one attribute, and `Attributes.cell_revised_again`, all five.
- `Cell.RevisedBy` and `Cell.revision_exact`.
-/

namespace GateGraph

open Json (Value)
open Attribute (Fault)

/-! ## Parameters for other gates -/

namespace GateParams

/-- An entry for each of so many gates. Entries of further gates are cut off, and a gate that had no entry has
    no parameter. -/
def fitted (p : GateParams) (count : Nat) : GateParams :=
  ⟨p.gates.take count ++ List.replicate (count - p.length) none⟩

theorem fitted_map_some (values : List Binary32) (count : Nat) :
    fitted ⟨values.map some⟩ count = ofPositional values count := by
  unfold fitted ofPositional length
  rw [List.length_map, List.map_take]

/-- Parameters in form lose nothing when they are shown. -/
theorem Aligned.fitted_eq {p : GateParams} {gates : Nat} (h : p.Aligned gates) (count : Nat) :
    p.fitted count = ofPositional p.positional count := by
  obtain ⟨others, hblock⟩ := h.block
  have hlength : p.length = p.positional.length + others := by
    have hboth := congrArg List.length hblock
    rwa [List.length_append, List.length_map, List.length_replicate] at hboth
  -- the gates without a parameter that are left, and those that have been added
  have hothers : min (count - p.positional.length) others + (count - (p.positional.length + others)) =
      count - p.positional.length := by omega
  unfold fitted ofPositional
  rw [hlength, hblock, List.take_append, List.length_map, List.map_take, List.take_replicate,
    List.append_assoc, List.replicate_append_replicate, hothers]

end GateParams

/-! ## The attributes that count -/

/-- The attributes that a cell asks for, with their types, in the order of a visit. -/
def Cell.schema : List Fault :=
  [⟨"hidden_size", .natural⟩, ⟨"activations", .strings⟩, ⟨"activations_alpha", .reals⟩,
    ⟨"activations_beta", .reals⟩, ⟨"clip", .real⟩]

namespace Attributes

variable {α β : Type} {map map' : Attributes} {decode : Value → Option α} {name : String}

/-- The faults are those attributes that are there and do not have their type. -/
theorem cellFaults_eq_filter (map : Attributes) : map.cellFaults = Cell.schema.filter map.illTyped := by
  have hnatural (name : String) : map.faultsOf .natural Value.natural? name =
      [⟨name, .natural⟩].filter map.illTyped := faultsOf_eq_filter fun _ => rfl
  have hstrings (name : String) : map.faultsOf .strings (Value.items? Value.string?) name =
      [⟨name, .strings⟩].filter map.illTyped := faultsOf_eq_filter fun _ => rfl
  have hreals (name : String) : map.faultsOf .reals (Value.items? real?) name =
      [⟨name, .reals⟩].filter map.illTyped := faultsOf_eq_filter fun _ => rfl
  have hreal (name : String) : map.faultsOf .real real? name =
      [⟨name, .real⟩].filter map.illTyped := faultsOf_eq_filter fun _ => rfl
  unfold cellFaults
  rw [hnatural, hstrings, hreals, hreals, hreal]
  simp only [← List.filter_append]
  rfl

/-- Two maps that have the same under the names of a cell's attributes are the same to a cell. -/
theorem revised_congr (h : ∀ asked ∈ Cell.schema, map'[asked.name]? = map[asked.name]?) (d : Configuration) :
    map'.revised d = map.revised d := by
  have hvalue {α : Type} {decode : Value → Option α} (asked : Fault) (hasked : asked ∈ Cell.schema)
      (present : α) : map'.valueOf decode asked.name present = map.valueOf decode asked.name present := by
    unfold valueOf
    rw [h asked hasked]
  refine Configuration.ext ?_ ?_ ?_ ?_ ?_
  · exact hvalue ⟨"hidden_size", .natural⟩ (by decide) _
  · exact hvalue ⟨"clip", .real⟩ (by decide) _
  · exact hvalue ⟨"activations", .strings⟩ (by decide) _
  · exact hvalue ⟨"activations_alpha", .reals⟩ (by decide) _
  · exact hvalue ⟨"activations_beta", .reals⟩ (by decide) _

theorem cellFaults_congr (h : ∀ asked ∈ Cell.schema, map'[asked.name]? = map[asked.name]?) :
    map'.cellFaults = map.cellFaults := by
  rw [cellFaults_eq_filter, cellFaults_eq_filter]
  refine List.filter_congr fun asked hasked => ?_
  unfold illTyped
  rw [h asked hasked]

/-! ## Reading again -/

/-- **Reading an attribute twice is reading it once**, even if it is shown in form in between, as long as form is
    not changed by being shown. -/
theorem valueOf_again {shown : α → α} (form : α → β) (h : ∀ x, form (shown x) = form x) (present : α) :
    form (map.valueOf decode name (shown (map.valueOf decode name present))) =
      form (map.valueOf decode name present) := by
  unfold valueOf
  cases map[name]?.bind decode with
  | none => exact h present
  | some x => rfl

/-- **The cell of the values that have been read** stays as it is when they are read again. -/
theorem cell_revised_again (map : Attributes) (d : Configuration) :
    (map.revised (map.revised d).cell.configuration).cell = (map.revised d).cell := by
  let first : Configuration := map.revised d
  let second : Configuration := map.revised first.cell.configuration
  have hnames : second.activations.map Text.lowercase = first.activations.map Text.lowercase := by
    refine valueOf_again (List.map Text.lowercase) (fun names => ?_) d.activations
    rw [List.map_map]
    exact List.map_congr_left fun name _ => Text.lowercase_lowercase name
  have hgates : second.gates = first.gates := by
    have hlength := congrArg List.length hnames
    rwa [List.length_map, List.length_map] at hlength
  have hparams (param : String) (present : List Binary32) :
      GateParams.ofPositional (map.valueOf (Value.items? real?) param
          (GateParams.ofPositional (map.valueOf (Value.items? real?) param present) first.gates).positional)
        first.gates =
      GateParams.ofPositional (map.valueOf (Value.items? real?) param present) first.gates := by
    rw [GateParams.positional_ofPositional]
    exact valueOf_again (GateParams.ofPositional · first.gates)
      (fun values => GateParams.ofPositional_take values first.gates) present
  show second.cell = first.cell
  unfold Configuration.cell
  rw [hnames, hgates]
  congr 1
  · exact valueOf_again id (fun _ => rfl) d.hiddenSize
  · exact valueOf_again id (fun _ => rfl) d.clip
  · exact hparams GateParam.alpha.attribute d.alpha
  · exact hparams GateParam.beta.attribute d.beta

/-- A list of parameters, one for each of the first gates. -/
def params? (value : Value) : Option GateParams :=
  (Value.items? real? value).map fun values => ⟨values.map some⟩

/-- The parameters that a cell shows are read and brought into form, or its own are fitted. -/
theorem fitted_valueOf {p : GateParams} {gates : Nat} (h : p.Aligned gates) (name : String) (count : Nat) :
    (map.valueOf params? name p).fitted count =
      .ofPositional (map.valueOf (Value.items? real?) name p.positional) count := by
  unfold valueOf params?
  cases map[name]? with
  | none => exact h.fitted_eq count
  | some value =>
      rw [Option.bind_some, Option.bind_some]
      cases Value.items? real? value with
      | none => exact h.fitted_eq count
      | some values => exact GateParams.fitted_map_some values count

end Attributes

namespace Cell

open Attributes (params?)

/-- This cell has, of each attribute, the value that the map has in the right type, and else the value that
    the other cell has. The names are in lower case, and the parameters, wherever they come from, are fitted
    to the gates that there are now. -/
structure RevisedBy (c' c : Cell) (map : Attributes) : Prop where
  hiddenSize : c'.hiddenSize = map.valueOf Value.natural? "hidden_size" c.hiddenSize
  clip : c'.clip = map.valueOf Attributes.real? "clip" c.clip
  activations : c'.activations =
    (map.valueOf (Value.items? Value.string?) "activations" c.activations).map Text.lowercase
  alpha : c'.alpha = (map.valueOf params? "activations_alpha" c.alpha).fitted c'.gateCount
  beta : c'.beta = (map.valueOf params? "activations_beta" c.beta).fitted c'.gateCount

theorem WellFormed.revisedBy {c : Cell} (h : c.WellFormed) (map : Attributes) :
    (map.revised c.configuration).cell.RevisedBy c map := by
  have hgates : (map.revised c.configuration).cell.gateCount = (map.revised c.configuration).gates :=
    List.length_map Text.lowercase
  refine ⟨rfl, rfl, rfl, ?_, ?_⟩
  · rw [hgates, Attributes.fitted_valueOf h.alpha]
    rfl
  · rw [hgates, Attributes.fitted_valueOf h.beta]
    rfl

/-- **Reading a map over a cell.** Each attribute is taken from the map if the map has it in the right type, and
    is kept otherwise, whatever is the matter with the others. The report lists, in the order of the visit,
    the attributes that the map has in a wrong type. Nothing else in the map has any influence. When the map
    is read again, the cell stays as it is, to the last bit, and the report is the same. -/
theorem revision_exact {c : Cell} (h : c.Reachable) (map : Attributes) :
    ∃ c' faults, (c.visit map.reader).run [] = (c', faults) ∧ c'.RevisedBy c map ∧
      (Attribute.finish faults = .ok () ↔ ∀ asked ∈ schema, map.illTyped asked = false) ∧
      ((∃ asked ∈ schema, map.illTyped asked = true) → Attribute.finish faults =
        .error (.invalidOperation (.attributesIllTyped (schema.filter map.illTyped)))) ∧
      (∀ map' : Attributes, (∀ asked ∈ schema, map'[asked.name]? = map[asked.name]?) →
        (c.visit map'.reader).run [] = (c', faults)) ∧
      (c'.visit map.reader).run [] = (c', faults) := by
  have hfaults := map.cellFaults_eq_filter
  refine ⟨(map.revised c.configuration).cell, map.cellFaults, c.run_visit_reader map,
    h.wellFormed.revisedBy map, ?_, ?_, ?_, ?_⟩
  · rw [Attribute.finish_eq_ok_iff, hfaults, List.filter_eq_nil_iff]
    simp only [Bool.not_eq_true]
  · rintro ⟨asked, hasked, hill⟩
    have hmem : asked ∈ map.cellFaults := hfaults ▸ List.mem_filter.mpr ⟨hasked, hill⟩
    rw [Attribute.finish_of_ne_nil (List.ne_nil_of_mem hmem), hfaults]
  · intro map' hsame
    rw [run_visit_reader, Attributes.revised_congr hsame, Attributes.cellFaults_congr hsame]
  · rw [run_visit_reader, Attributes.cell_revised_again]

/-- Two gates become one, whose name has a final sigma. The parameters in the map are no numbers, so the cell
    keeps its own, as far as it still has the gates; the clip bound stays for the same reason. The last name is
    none of a cell's attributes. -/
theorem revision_exact_sigma :
    ∃ (c : Cell) (map : Attributes) (c' : Cell) (faults : List Fault), c.Reachable ∧
      c.alpha = ⟨[some 0, some (.ofNat .single 1)]⟩ ∧ (c.visit map.reader).run [] = (c', faults) ∧
      c'.hiddenSize = 7 ∧ c'.activations = ["ας"] ∧ c'.alpha = ⟨[some 0]⟩ ∧
      Attribute.finish faults =
        .error (.invalidOperation (.attributesIllTyped [⟨"activations_alpha", .reals⟩, ⟨"clip", .real⟩])) ∧
      (c'.visit map.reader).run [] = (c', faults) := by
  let d : Configuration := ⟨8, 0, ["Tanh", "relu"], [0, .ofNat .single 1], []⟩
  let map : Attributes := .ofFields
    [("clip", .null), ("activations", .array [.string "ΑΣ"]), ("hidden_size", .number (.natural 7)),
      ("activations_alpha", .array [.number (.natural 2), .string "2"]), ("Clip", .string "none")]
  have hreachable : d.cell.Reachable :=
    .created (Configuration.checked_eq_ok_iff.mpr ⟨by decide +kernel, rfl⟩)
  obtain ⟨c', faults, hrun, hrevised, -, hreport, -, hagain⟩ := revision_exact hreachable map
  have hactivations : c'.activations = ["ας"] := hrevised.activations.trans (by decide +kernel)
  have hgates : c'.gateCount = 1 := congrArg List.length hactivations
  refine ⟨d.cell, map, c', faults, hreachable, by decide +kernel, hrun, hrevised.hiddenSize.trans rfl,
    hactivations, ?_, ?_, hagain⟩
  · rw [hrevised.alpha, hgates]
    decide +kernel
  · rw [hreport ⟨⟨"clip", .real⟩, by decide, by decide +kernel⟩]
    decide +kernel

end Cell

end GateGraph
