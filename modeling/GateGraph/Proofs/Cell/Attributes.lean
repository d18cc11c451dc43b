import GateGraph.Proofs.Attribute.Reading
import GateGraph.Proofs.Cell.Configuration

/-!
# `GateGraph.Proofs.Cell.Attributes` — cells written to maps and made from maps

A map of attributes is read by a visit to the cell without configuration. The visit brings the values into
form, and only then they are checked. For a cell that has been written to a map this makes no difference,
since its values are in form already: it comes back bit for bit, or it is refused because of a number that
JSON does not have or that no caller could have configured. For other maps it does make a difference, and
just one: parameters for which there are no gates are cut off by the visit, and the check that would refuse
them comes too late.

## Contents
- `Attributes.revised` and `Attributes.cellFaults`, what a visit by a reader comes to: `run_visit_reader`, for
  values and for cells.
- `Attributes.Decodes`: a map has the attributes of a cell in the right types, or does not have them.
  `decodes_iff`: that is the case exactly when a reader notes no fault.
- `Cell.ofAttributes_of_decodes` and `Cell.ofAttributes_of_fault`, the two ways in which a map is taken.
- `Cell.Exportable` and `Cell.rebuilt_exact`: which cells come back from a map.
- `Cell.ofAttributes_checks_cut`: how a map is checked, compared with a caller's values;
  `ofAttributes_hides_excess` is a map that is accepted while its values are not.
-/

namespace GateGraph

open Json (Value)

/-! ## Visits by a reader -/

namespace Attributes

/-- The values after they have been read from a map. -/
def revised (map : Attributes) (d : Configuration) : Configuration where
  hiddenSize := map.valueOf Value.natural? "hidden_size" d.hiddenSize
  clip := map.valueOf real? "clip" d.clip
  activations := map.valueOf (Value.items? Value.string?) "activations" d.activations
  alpha := map.valueOf (Value.items? real?) GateParam.alpha.attribute d.alpha
  beta := map.valueOf (Value.items? real?) GateParam.beta.attribute d.beta

/-- The attributes of a cell that a map has in a wrong type, in the order of a visit. -/
def cellFaults (map : Attributes) : List Attribute.Fault :=
  map.faultsOf .natural Value.natural? "hidden_size" ++
    (map.faultsOf .strings (Value.items? Value.string?) "activations" ++
      (map.faultsOf .reals (Value.items? real?) GateParam.alpha.attribute ++
        (map.faultsOf .reals (Value.items? real?) GateParam.beta.attribute ++
          map.faultsOf .real real? "clip")))

/-- **A reader revises the values** and notes the faults, whatever it has noted before. -/
theorem run_visit_reader (map : Attributes) (d : Configuration) (faults : List Attribute.Fault) :
    (d.visit map.reader).run faults = (map.revised d, faults ++ map.cellFaults) := by
  simp only [Configuration.visit, reader, StateT.run_bind, StateT.run_pure, run_read, cellFaults,
    ← List.append_assoc]
  rfl

/-- Each attribute of a cell is absent from the map, and then it is the present one, or it has the right type.
    These are the values. -/
structure Decodes (map : Attributes) (present d : Configuration) : Prop where
  hiddenSize : map.Yields Value.natural? "hidden_size" present.hiddenSize d.hiddenSize
  activations : map.Yields (Value.items? Value.string?) "activations" present.activations d.activations
  alpha : map.Yields (Value.items? real?) "activations_alpha" present.alpha d.alpha
  beta : map.Yields (Value.items? real?) "activations_beta" present.beta d.beta
  clip : map.Yields real? "clip" present.clip d.clip

/-- **A map has the attributes in the right types when reading them notes no fault.** The values are then the
    revised ones. -/
theorem decodes_iff {map : Attributes} {present d : Configuration} :
    map.Decodes present d ↔ map.cellFaults = [] ∧ map.revised present = d := by
  simp only [cellFaults, List.append_eq_nil_iff]
  constructor
  · intro h
    have hiddenSize := (yields_iff .natural).mp h.hiddenSize
    have activations := (yields_iff .strings).mp h.activations
    have alpha := (yields_iff .reals).mp h.alpha
    have beta := (yields_iff .reals).mp h.beta
    have clip := (yields_iff .real).mp h.clip
    exact ⟨⟨hiddenSize.1, activations.1, alpha.1, beta.1, clip.1⟩,
      Configuration.ext hiddenSize.2 clip.2 activations.2 alpha.2 beta.2⟩
  · rintro ⟨⟨hiddenSize, activations, alpha, beta, clip⟩, rfl⟩
    exact ⟨(yields_iff .natural).mpr ⟨hiddenSize, rfl⟩, (yields_iff .strings).mpr ⟨activations, rfl⟩,
      (yields_iff .reals).mpr ⟨alpha, rfl⟩, (yields_iff .reals).mpr ⟨beta, rfl⟩,
      (yields_iff .real).mpr ⟨clip, rfl⟩⟩

end Attributes

namespace Configuration

/-- The values with parameters for the existing gates only. -/
def cut (d : Configuration) : Configuration :=
  { d with alpha := d.alpha.take d.gates, beta := d.beta.take d.gates }

@[simp] theorem cell_cut (d : Configuration) : d.cut.cell = d.cell := by
  have halpha := GateParams.ofPositional_take d.alpha d.gates
  have hbeta := GateParams.ofPositional_take d.beta d.gates
  unfold gates at halpha hbeta
  simp only [cell, cut, gates, halpha, hbeta]

theorem cut_eq_self {d : Configuration} (halpha : d.alpha.length ≤ d.gates)
    (hbeta : d.beta.length ≤ d.gates) : d.cut = d := by
  unfold cut
  rw [List.take_of_length_le halpha, List.take_of_length_le hbeta]

/-- Checking what the cell shows is checking the values without those that the cell does not have. -/
theorem checked_cell_configuration (d : Configuration) : d.cell.configuration.checked = d.cut.checked := by
  have hfault : d.cell.configuration.fault? = d.cut.fault? := by
    simp only [fault?, gates, cut, Cell.configuration, cell, GateParams.positional_ofPositional,
      List.length_map]
  have hcell : d.cell.configuration.cell = d.cut.cell := by
    rw [cell_cut]
    exact (Cell.wellFormed_cell d).cell_configuration
  rw [checked_eq, checked_eq, hfault, hcell]

end Configuration

/-! ## Cells from maps -/

namespace Cell

theorem run_visit_reader (c : Cell) (map : Attributes) :
    (c.visit map.reader).run [] = ((map.revised c.configuration).cell, map.cellFaults) := by
  rw [run_visit, Attributes.run_visit_reader, List.nil_append]

theorem ofAttributes_eq (map : Attributes) :
    ofAttributes map =
      match Attribute.finish map.cellFaults with
      | .error e => .error e
      | .ok () => (map.revised unset.configuration).cut.checked := by
  rw [← Configuration.checked_cell_configuration]
  unfold ofAttributes
  rw [run_visit_reader]
  simp only
  cases Attribute.finish map.cellFaults <;> rfl

/-- A map that has the attributes in the right types is checked without the parameters that are too many. -/
theorem ofAttributes_of_decodes {map : Attributes} {d : Configuration}
    (h : map.Decodes unset.configuration d) : ofAttributes map = d.cut.checked := by
  obtain ⟨hfaults, hvalues⟩ := Attributes.decodes_iff.mp h
  rw [ofAttributes_eq, hfaults, hvalues]
  rfl

/-- A map that has one of them in a wrong type is refused. -/
theorem ofAttributes_of_fault {map : Attributes} (h : map.cellFaults ≠ []) :
    ofAttributes map = .error (.invalidOperation (.attributesIllTyped map.cellFaults)) := by
  rw [ofAttributes_eq, Attribute.finish_of_ne_nil h]

/-! ## Maps of cells -/

/-- The map of a cell has all five attributes. -/
theorem getElem?_toAttributes (c : Cell) :
    c.toAttributes["hidden_size"]? = some (.number (.natural c.hiddenSize)) ∧
    c.toAttributes["activations"]? = some (.array (c.activations.map .string)) ∧
    c.toAttributes["activations_alpha"]? =
      some (.array (c.alpha.positional.map Attributes.realValue)) ∧
    c.toAttributes["activations_beta"]? =
      some (.array (c.beta.positional.map Attributes.realValue)) ∧
    c.toAttributes["clip"]? = some (Attributes.realValue c.clip) := by
  have hmap : c.toAttributes =
      ((((Std.TreeMap.empty.insert "hidden_size" (.number (.natural c.hiddenSize))).insert
        "activations" (.array (c.activations.map .string))).insert
        "activations_alpha" (.array (c.alpha.positional.map Attributes.realValue))).insert
        "activations_beta" (.array (c.beta.positional.map Attributes.realValue))).insert
        "clip" (Attributes.realValue c.clip) := rfl
  simp only [hmap, Attributes.getElem?_insert, String.reduceEq, if_true, if_false, and_self]

/-- The clip bound is finite and not below zero, where minus zero counts as zero, and every configured
    parameter is finite. -/
structure Exportable (c : Cell) : Prop where
  clip_finite : c.clip.isFinite = true
  clip_not_negative : c.clip.negative = false ∨ c.clip.isZero = true
  alpha : ∀ gate x, c.alpha.get? gate = some x → x.isFinite = true
  beta : ∀ gate x, c.beta.get? gate = some x → x.isFinite = true

/-- All configured parameters are among the leading ones. -/
theorem finite_iff {p : GateParams} {gates : Nat} (h : p.Aligned gates) :
    (∀ gate x, p.get? gate = some x → x.isFinite = true) ↔ ∀ x ∈ p.positional, x.isFinite = true := by
  simp only [h.get?_eq]
  constructor
  · intro hall x hx
    obtain ⟨gate, hgate⟩ := List.mem_iff_getElem?.mp hx
    exact hall gate x hgate
  · intro hall gate x hgate
    exact hall x (List.mem_of_getElem? hgate)

theorem WellFormed.exportable_iff {c : Cell} (h : c.WellFormed) :
    c.Exportable ↔ c.configuration.fault? = none := by
  rw [Configuration.fault?_eq_none_iff]
  constructor
  · rintro ⟨hfinite, hsign, halpha, hbeta⟩
    exact ⟨⟨hfinite, hsign⟩, ⟨h.alpha.length_positional_le, (finite_iff h.alpha).mp halpha⟩,
      h.beta.length_positional_le, (finite_iff h.beta).mp hbeta⟩
  · rintro ⟨⟨hfinite, hsign⟩, ⟨-, halpha⟩, -, hbeta⟩
    exact ⟨hfinite, hsign, (finite_iff h.alpha).mpr halpha, (finite_iff h.beta).mpr hbeta⟩

theorem WellFormed.cut_configuration {c : Cell} (h : c.WellFormed) :
    c.configuration.cut = c.configuration :=
  Configuration.cut_eq_self h.alpha.length_positional_le h.beta.length_positional_le

/-- What a cell shows is in its map, if all of its numbers are finite. -/
theorem decodes_toAttributes {c : Cell} (present : Configuration) (hclip : c.clip.isFinite = true)
    (halpha : ∀ x ∈ c.alpha.positional, x.isFinite = true)
    (hbeta : ∀ x ∈ c.beta.positional, x.isFinite = true) :
    c.toAttributes.Decodes present c.configuration := by
  obtain ⟨hiddenSize, activations, alpha, beta, clip⟩ := c.getElem?_toAttributes
  refine ⟨.present hiddenSize rfl, .present activations (Attributes.items?_string?_values _),
    .present alpha (Attributes.items?_real?_values halpha),
    .present beta (Attributes.items?_real?_values hbeta), .present clip ?_⟩
  rw [Attributes.real?_realValue, if_pos hclip]
  rfl

/-- A number that is not finite is a fault in the map. -/
theorem cellFaults_toAttributes {c : Cell}
    (h : c.clip.isFinite = false ∨ (∃ x ∈ c.alpha.positional, x.isFinite = false) ∨
      ∃ x ∈ c.beta.positional, x.isFinite = false) : c.toAttributes.cellFaults ≠ [] := by
  obtain ⟨-, -, alpha, beta, clip⟩ := c.getElem?_toAttributes
  simp only [Attributes.cellFaults, ne_eq, List.append_eq_nil_iff, GateParam.attribute]
  rintro ⟨-, -, hnoAlpha, hnoBeta, hnoClip⟩
  rcases h with hclip | ⟨x, hx, hinfinite⟩ | ⟨x, hx, hinfinite⟩
  · refine Attributes.faultsOf_ne_nil clip ?_ hnoClip
    rw [Attributes.real?_realValue, hclip]
    rfl
  · exact Attributes.faultsOf_ne_nil alpha (Attributes.items?_real?_values_eq_none hx hinfinite) hnoAlpha
  · exact Attributes.faultsOf_ne_nil beta (Attributes.items?_real?_values_eq_none hx hinfinite) hnoBeta

/-- A cell in form that passes the checks is what its map is read as. -/
theorem WellFormed.ofAttributes_toAttributes {c : Cell} (h : c.WellFormed)
    (hfault : c.configuration.fault? = none) : ofAttributes c.toAttributes = .ok c := by
  obtain ⟨⟨hclip, -⟩, ⟨-, halpha⟩, -, hbeta⟩ := Configuration.fault?_eq_none_iff.mp hfault
  rw [ofAttributes_of_decodes (decodes_toAttributes _ hclip halpha hbeta), h.cut_configuration,
    Configuration.checked_eq_ok_iff]
  exact ⟨hfault, h.cell_configuration.symm⟩

/-- The map of a cell that does not pass the checks is refused. -/
theorem WellFormed.ofAttributes_toAttributes_of_fault {c : Cell} (h : c.WellFormed)
    {fault : InvalidOperation} (hfault : c.configuration.fault? = some fault) :
    ∃ cause, ofAttributes c.toAttributes = .error (.invalidOperation cause) := by
  by_cases hfaults : c.toAttributes.cellFaults = []
  · -- all numbers are finite, so the check comes to its own fault
    have hdecodes : c.toAttributes.Decodes unset.configuration c.configuration := by
      have hfinite := mt (cellFaults_toAttributes (c := c)) (not_not_intro hfaults)
      simp only [not_or, not_exists, not_and, Bool.not_eq_false] at hfinite
      exact decodes_toAttributes _ hfinite.1 hfinite.2.1 hfinite.2.2
    refine ⟨fault, ?_⟩
    rw [ofAttributes_of_decodes hdecodes, h.cut_configuration, Configuration.checked_eq, hfault]
  · exact ⟨_, ofAttributes_of_fault hfaults⟩

/-- Checked values are those that the cell shows, up to the case of letters. -/
theorem fault?_configuration_of_checked {d : Configuration} {c : Cell} (h : d.checked = .ok c) :
    c.configuration.fault? = none := by
  obtain ⟨hfault, rfl⟩ := Configuration.checked_eq_ok_iff.mp h
  obtain ⟨hclip, ⟨hmanyAlpha, halpha⟩, hmanyBeta, hbeta⟩ := Configuration.fault?_eq_none_iff.mp hfault
  have hshown : d.cell.configuration.checked = .ok d.cell := by
    rw [Configuration.checked_cell_configuration, Configuration.cut_eq_self hmanyAlpha hmanyBeta, h]
  exact (Configuration.checked_eq_ok_iff.mp hshown).1

/-- **Which cells come back from their maps.** A cell is rebuilt when its clip bound is finite and not
    negative and all its parameters are finite, and then bit for bit. Every other cell is refused. Whatever
    a caller can configure is rebuilt. -/
theorem rebuilt_exact {c : Cell} (h : c.Reachable) :
    ((∃ c', ofAttributes c.toAttributes = .ok c') ↔ c.Exportable) ∧
    (c.Exportable → ofAttributes c.toAttributes = .ok c) ∧
    (¬ c.Exportable → ∃ cause, ofAttributes c.toAttributes = .error (.invalidOperation cause)) ∧
    ∀ hiddenSize clip activations alpha beta,
      create hiddenSize clip activations alpha beta = .ok c → ofAttributes c.toAttributes = .ok c := by
  have hform := h.wellFormed
  have hok : c.Exportable → ofAttributes c.toAttributes = .ok c := fun hexport =>
    hform.ofAttributes_toAttributes (hform.exportable_iff.mp hexport)
  have herror : ¬ c.Exportable → ∃ cause, ofAttributes c.toAttributes = .error (.invalidOperation cause) := by
    intro hnot
    obtain ⟨fault, hfault⟩ := Option.ne_none_iff_exists'.mp (mt hform.exportable_iff.mpr hnot)
    exact hform.ofAttributes_toAttributes_of_fault hfault
  refine ⟨⟨?_, fun hexport => ⟨c, hok hexport⟩⟩, hok, herror, ?_⟩
  · rintro ⟨c', hc'⟩
    by_contra hnot
    obtain ⟨cause, hcause⟩ := herror hnot
    rw [hcause] at hc'
    cases hc'
  · intro hiddenSize clip activations alpha beta hcreate
    let d : Configuration := ⟨hiddenSize, clip, activations, alpha, beta⟩
    have hchecked : d.checked = .ok c := hcreate
    exact hform.ofAttributes_toAttributes (fault?_configuration_of_checked hchecked)

/-- A cell that comes back: the largest hidden size, a clip bound of minus zero, the smallest and the largest
    parameters, and names that lowercasing has changed in length and in their last letter. -/
theorem rebuilt_exact_extremes :
    ∃ c : Cell, c.Reachable ∧ c.hiddenSize.toNat + 1 = 18446744073709551616 ∧ c.gateCount = 3 ∧
      c.Exportable ∧ ofAttributes c.toAttributes = .ok c :=
  let d : Configuration := ⟨0xffffffffffffffff, .ofBits .single 0x80000000, ["ΑΣ", "İ", "tanh"],
    [.ofBits .single 1, .ofBits .single 0x80000000], [.ofBits .single 0x7f7fffff]⟩
  let c : Cell := d.cell
  have hcreate : create d.hiddenSize d.clip d.activations d.alpha d.beta = .ok c :=
    Configuration.checked_eq_ok_iff.mpr ⟨by decide +kernel, rfl⟩
  have hrebuilt := (rebuilt_exact (.created hcreate)).2.2.2 _ _ _ _ _ hcreate
  ⟨c, .created hcreate, by decide +kernel, by decide +kernel,
    (rebuilt_exact (.created hcreate)).1.mp ⟨c, hrebuilt⟩, hrebuilt⟩

/-! ## Checks that come too late -/

theorem paramsFault?_ne_tooManyParams {param : GateParam} {values : List Binary32} {gates : Nat}
    (h : values.length ≤ gates) (param' : GateParam) (length' gates' : Nat) :
    paramsFault? param values gates ≠ some (.tooManyParams param' length' gates') := by
  unfold paramsFault?
  rw [if_neg (Nat.not_lt_of_le h), ne_eq, Option.map_eq_some_iff]
  rintro ⟨_, -, hcause⟩
  cases hcause

/-- Cutting parameters that are not reported as too many does not cut anything. -/
theorem paramsFault?_take {param : GateParam} {values : List Binary32} {gates : Nat}
    (h : paramsFault? param values gates ≠ some (.tooManyParams param values.length gates)) :
    paramsFault? param (values.take gates) gates = paramsFault? param values gates := by
  have hfew : values.length ≤ gates := by
    by_contra hmany
    exact h (if_pos (Nat.lt_of_not_le hmany))
  rw [List.take_of_length_le hfew]

end Cell

namespace Configuration

variable {d : Configuration}

/-- There are more parameters than gates, and the check says so. -/
def ReportsExcess (d : Configuration) : Prop :=
  ∃ param length gates, d.checked = .error (.invalidOperation (.tooManyParams param length gates))

theorem reportsExcess_iff :
    d.ReportsExcess ↔ ∃ param length gates, d.fault? = some (.tooManyParams param length gates) := by
  unfold ReportsExcess
  rw [checked_eq]
  cases d.fault? <;> simp

/-- Parameters that are not too many are not reported as such. -/
theorem not_reportsExcess (halpha : d.alpha.length ≤ d.gates) (hbeta : d.beta.length ≤ d.gates) :
    ¬ d.ReportsExcess := by
  rw [reportsExcess_iff]
  rintro ⟨param, length, gates, hfault⟩
  unfold fault? Cell.fault? at hfault
  simp only [Option.orElse_eq_orElse, Option.orElse_eq_or, Option.or_eq_some_iff] at hfault
  rcases hfault with hclip | ⟨-, halpha' | ⟨-, hbeta'⟩⟩
  · unfold Cell.clipFault? at hclip
    split at hclip <;> cases hclip
  · exact Cell.paramsFault?_ne_tooManyParams halpha param length gates halpha'
  · exact Cell.paramsFault?_ne_tooManyParams hbeta param length gates hbeta'

/-- Where no excess is reported, something else is wrong before it, or there is none. So the check says the
    same without the parameters that are too many. -/
theorem fault?_cut (h : ¬ d.ReportsExcess) : d.cut.fault? = d.fault? := by
  rw [reportsExcess_iff] at h
  unfold fault? Cell.fault? at h ⊢
  show (Cell.clipFault? d.clip <|> Cell.paramsFault? .alpha (d.alpha.take d.gates) d.gates <|>
    Cell.paramsFault? .beta (d.beta.take d.gates) d.gates) = _
  cases hclip : Cell.clipFault? d.clip with
  | some cause => rfl
  | none =>
      rw [hclip] at h
      rw [Cell.paramsFault?_take fun hexcess => h ⟨.alpha, _, _, by rw [hexcess]; rfl⟩]
      cases halpha : Cell.paramsFault? .alpha d.alpha d.gates with
      | some cause => rfl
      | none =>
          rw [halpha] at h
          exact Cell.paramsFault?_take fun hexcess => h ⟨.beta, _, _, hexcess⟩

/-- **What cutting hides from the check** is the excess, and nothing else. -/
theorem checked_cut_eq_iff : d.cut.checked = d.checked ↔ ¬ d.ReportsExcess := by
  constructor
  · rintro hsame ⟨param, length, gates, hexcess⟩
    refine not_reportsExcess (d := d.cut) ?_ ?_ ⟨param, length, gates, hsame.trans hexcess⟩
    · exact List.length_take_le d.gates d.alpha
    · exact List.length_take_le d.gates d.beta
  · intro hnone
    rw [checked_eq, checked_eq, fault?_cut hnone, cell_cut]

end Configuration

namespace Cell

/-- **How a map is checked.** When a map has each attribute of a cell in the right type or not at all, its
    values are checked as a caller's, but without the parameters for which there are no gates. So the
    outcome is that of a caller's values unless those are refused for too many parameters. -/
theorem ofAttributes_checks_cut {map : Attributes} {d : Configuration}
    (h : map.Decodes ⟨0, 0, [], [], []⟩ d) :
    ofAttributes map = create d.hiddenSize d.clip d.activations (d.alpha.take d.activations.length)
      (d.beta.take d.activations.length) ∧
    (ofAttributes map = create d.hiddenSize d.clip d.activations d.alpha d.beta ↔
      ∀ param length gates, create d.hiddenSize d.clip d.activations d.alpha d.beta ≠
        .error (.invalidOperation (.tooManyParams param length gates))) ∧
    (d.alpha.length ≤ d.activations.length → d.beta.length ≤ d.activations.length →
      ofAttributes map = create d.hiddenSize d.clip d.activations d.alpha d.beta) := by
  have hmap : ofAttributes map = d.cut.checked := ofAttributes_of_decodes h
  have hexcess : ¬ d.ReportsExcess ↔ ∀ param length gates,
      d.checked ≠ .error (.invalidOperation (.tooManyParams param length gates)) := by
    simp only [Configuration.ReportsExcess, not_exists, ne_eq]
  refine ⟨hmap, ?_, fun halpha hbeta => ?_⟩
  · rw [hmap]
    exact Configuration.checked_cut_eq_iff.trans hexcess
  · rw [hmap]
    exact Configuration.checked_cut_eq_iff.mpr (Configuration.not_reportsExcess halpha hbeta)

/-- A parameter that is too large for 32 bits is refused as a caller's infinity is. -/
theorem ofAttributes_checks_infinity :
    ∃ (map : Attributes) (d : Configuration), map.Decodes ⟨0, 0, [], [], []⟩ d ∧
      ofAttributes map = create d.hiddenSize d.clip d.activations d.alpha d.beta ∧
      create d.hiddenSize d.clip d.activations d.alpha d.beta =
        .error (.invalidOperation (.paramNotFinite .beta 1 (.ofBits .single 0x7f800000))) :=
  let large : Binary64 := .ofBits .double 0x48078287f49c4a1d
  let names : Value := .array [.string "Tanh", .string "relu"]
  let params : Value := .array [.number (.negative 1), .number (.real large)]
  let map : Attributes := .ofFields [("activations", names), ("activations_beta", params)]
  let d : Configuration :=
    ⟨0, 0, ["Tanh", "relu"], [], [-.ofNat .single 1, .ofBits .single 0x7f800000]⟩
  have hnames : map["activations"]? = some names := rfl
  have hparams : map["activations_beta"]? = some params := rfl
  have hdecodes : map.Decodes ⟨0, 0, [], [], []⟩ d :=
    ⟨.absent rfl, .present hnames rfl, .absent rfl, .present hparams (by decide +kernel), .absent rfl⟩
  ⟨map, d, hdecodes, (ofAttributes_checks_cut hdecodes).2.2 (by decide) (by decide), rfl⟩

/-- A map with two parameters for one gate: the cell has one of them, but a caller's values would be
    refused. -/
theorem ofAttributes_hides_excess :
    ∃ (map : Attributes) (d : Configuration) (c : Cell), map.Decodes ⟨0, 0, [], [], []⟩ d ∧
      ofAttributes map = .ok c ∧
      create d.hiddenSize d.clip d.activations d.alpha d.beta =
        .error (.invalidOperation (.tooManyParams .alpha 2 1)) := by
  let names : Value := .array [.string "tanh"]
  let params : Value := .array [.number (.natural 1), .number (.natural 2)]
  let map : Attributes := .ofFields [("activations", names), ("activations_alpha", params)]
  let d : Configuration := ⟨0, 0, ["tanh"], [.ofNat .single 1, .ofNat .single 2], []⟩
  have hnames : map["activations"]? = some names := rfl
  have hparams : map["activations_alpha"]? = some params := rfl
  have hdecodes : map.Decodes ⟨0, 0, [], [], []⟩ d :=
    ⟨.absent rfl, .present hnames rfl, .present hparams (by decide +kernel), .absent rfl, .absent rfl⟩
  refine ⟨map, d, d.cell, hdecodes, ?_, rfl⟩
  rw [ofAttributes_of_decodes hdecodes, Configuration.checked_eq_ok_iff]
  exact ⟨by decide +kernel, (Configuration.cell_cut d).symm⟩

end Cell

end GateGraph
