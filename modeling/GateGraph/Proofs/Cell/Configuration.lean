import GateGraph.Cell.Attributes
import GateGraph.Proofs.Text.Lowercase

/-!
# `GateGraph.Proofs.Cell.Configuration` — cells in form

A cell is made from the values of its five attributes. Whoever supplies them, a caller, a map or a visitor
that has seen the attributes of another cell, they are brought into form in one and the same way: names in
lower case, parameters cut or filled up to the number of gates. What a visitor is shown of the parameters is
less than what the cell has, since it sees them up to the first gate without one only. Nothing is lost by
that, because in a cell in form no gate behind that one has a parameter.

## Contents
- `GateParams.Aligned`, parameters of the first gates and of no others; `Aligned.ofPositional_positional`:
  they are determined by what is shown of them.
- `Configuration`, the five values; `Configuration.cell`, the cell in form, and `Cell.visit_eq`: a visit
  makes the cell of the visitor's answers.
- `Cell.Reachable`, the cells that there are, and `Cell.WellFormed`, what holds of all of them.
- `Cell.form_kept`.
-/

namespace GateGraph

open Attribute (Visitor)

/-! ## Parameters in form -/

namespace GateParams

/-- There is an entry for each gate, and the gates with a parameter come before those without. -/
structure Aligned (p : GateParams) (gates : Nat) : Prop where
  length : p.length = gates
  block : ∃ others, p.gates = p.positional.map some ++ List.replicate others none
  configured : ∀ gate, (p.get? gate).isSome = true ↔ gate < p.positional.length

theorem get?_block (values : List Binary32) (others gate : Nat) :
    get? ⟨values.map some ++ List.replicate others none⟩ gate = values[gate]? := by
  unfold get?
  rw [List.getElem?_append, List.length_map]
  by_cases hgate : gate < values.length
  · rw [if_pos hgate, List.getElem?_map, List.getElem?_eq_getElem hgate]
    rfl
  · -- the gates behind the values are there or not, but none of them has a parameter
    rw [if_neg hgate, List.getElem?_replicate, List.getElem?_eq_none (Nat.le_of_not_lt hgate)]
    split <;> rfl

theorem get?_ofPositional (values : List Binary32) (count gate : Nat) :
    (ofPositional values count).get? gate = (values.take count)[gate]? :=
  get?_block _ _ gate

theorem get?_ofPositional_of_le {values : List Binary32} {count : Nat} (h : values.length ≤ count)
    (gate : Nat) : (ofPositional values count).get? gate = values[gate]? := by
  rw [get?_ofPositional, List.take_of_length_le h]

theorem ofPositional_take (values : List Binary32) (count : Nat) :
    ofPositional (values.take count) count = ofPositional values count := by
  have hlength : count - (values.take count).length = count - values.length := by
    rw [List.length_take]
    omega
  unfold ofPositional
  rw [hlength, List.take_take, Nat.min_self]

theorem aligned_ofPositional (values : List Binary32) (count : Nat) :
    (ofPositional values count).Aligned count where
  length := length_ofPositional values count
  block := by
    rw [positional_ofPositional]
    exact ⟨count - values.length, rfl⟩
  configured := by
    intro gate
    simp only [get?_ofPositional, positional_ofPositional, isSome_getElem?]

theorem Aligned.get?_eq {p : GateParams} {gates : Nat} (h : p.Aligned gates) (gate : Nat) :
    p.get? gate = p.positional[gate]? := by
  obtain ⟨others, hblock⟩ := h.block
  have hget := get?_block p.positional others gate
  rwa [← hblock] at hget

theorem Aligned.length_positional_le {p : GateParams} {gates : Nat} (h : p.Aligned gates) :
    p.positional.length ≤ gates := by
  obtain ⟨others, hblock⟩ := h.block
  have hlength := congrArg List.length hblock
  rw [List.length_append, List.length_map] at hlength
  have hgates : p.gates.length = gates := h.length
  omega

/-- **Aligned parameters are determined by their leading values.** -/
theorem Aligned.ofPositional_positional {p : GateParams} {gates : Nat} (h : p.Aligned gates) :
    ofPositional p.positional gates = p := by
  obtain ⟨others, hblock⟩ := h.block
  have hlength := congrArg List.length hblock
  rw [List.length_append, List.length_map, List.length_replicate] at hlength
  have hgates : p.gates.length = gates := h.length
  have hothers : gates - p.positional.length = others := by omega
  unfold ofPositional
  rw [List.take_of_length_le h.length_positional_le, hothers, ← hblock]

end GateParams

/-! ## Configurations -/

/-- Values for the five attributes of a cell, in any form. -/
@[ext] structure Configuration where
  hiddenSize : UInt64
  clip : Binary32
  activations : List String
  alpha : List Binary32
  beta : List Binary32

namespace Configuration

/-- The number of gates. -/
def gates (d : Configuration) : Nat := d.activations.length

/-- The cell that these values make. They are not checked. -/
def cell (d : Configuration) : Cell where
  hiddenSize := d.hiddenSize
  clip := d.clip
  activations := d.activations.map Text.lowercase
  alpha := .ofPositional d.alpha d.gates
  beta := .ofPositional d.beta d.gates

/-- The first thing that is wrong with the values. -/
def fault? (d : Configuration) : Option InvalidOperation := Cell.fault? d.clip d.gates d.alpha d.beta

/-- The cell that these values make, if nothing is wrong with them. -/
def checked (d : Configuration) : Except Error Cell :=
  Cell.create d.hiddenSize d.clip d.activations d.alpha d.beta

/-- Shows the values to a visitor, one after another, and collects its answers. -/
def visit {m : Type → Type} [Monad m] (d : Configuration) (visitor : Visitor m) : m Configuration := do
  let hiddenSize ← visitor.natural "hidden_size" d.hiddenSize
  let activations ← visitor.strings "activations" d.activations
  let alpha ← visitor.reals GateParam.alpha.attribute d.alpha
  let beta ← visitor.reals GateParam.beta.attribute d.beta
  let clip ← visitor.real "clip" d.clip
  return { hiddenSize, clip, activations, alpha, beta }

variable {d : Configuration}

theorem checked_eq (d : Configuration) :
    d.checked = match d.fault? with
      | some cause => .error (.invalidOperation cause)
      | none => .ok d.cell := rfl

theorem checked_eq_ok_iff {c : Cell} : d.checked = .ok c ↔ d.fault? = none ∧ c = d.cell := by
  rw [checked_eq]
  cases d.fault? with
  | some cause => exact ⟨nofun, fun h => nomatch h.1⟩
  | none => exact ⟨fun h => ⟨rfl, (Except.ok.inj h).symm⟩, fun h => congrArg Except.ok h.2.symm⟩

end Configuration

/-! ## The checks -/

/-- A number is not below zero when it has no sign, or when it is one of the two zeros. -/
theorem Binary.lt_zero_eq_false_iff {x : Binary32} (h : x.isFinite = true) :
    x.lt 0 = false ↔ x.negative = false ∨ x.isZero = true := by
  have hzero : (0 : Binary32).isNaN = false ∧ (0 : Binary32).rank = 0 := by decide
  unfold lt
  rw [isNaN_eq_false_of_isFinite h, hzero.1, hzero.2]
  unfold rank isZero
  cases x.negative <;> simp

namespace Cell

theorem clipFault?_eq_none_iff {clip : Binary32} :
    clipFault? clip = none ↔ clip.isFinite = true ∧ (clip.negative = false ∨ clip.isZero = true) := by
  unfold clipFault?
  cases hfinite : clip.isFinite with
  | false => simp
  | true =>
      rw [← Binary.lt_zero_eq_false_iff hfinite]
      cases clip.lt 0 <;> simp

theorem paramsFault?_eq_none_iff {param : GateParam} {values : List Binary32} {gates : Nat} :
    paramsFault? param values gates = none ↔ values.length ≤ gates ∧ ∀ x ∈ values, x.isFinite = true := by
  unfold paramsFault?
  split
  · next hmany => exact ⟨nofun, fun h => absurd h.1 (Nat.not_le_of_lt hmany)⟩
  · next hfew =>
      rw [Option.map_eq_none_iff, List.find?_eq_none]
      constructor
      · intro hall
        refine ⟨Nat.le_of_not_lt hfew, fun x hx => ?_⟩
        obtain ⟨gate, hgate⟩ := List.mem_iff_getElem?.mp hx
        simpa using hall (x, gate) (List.mem_zipIdx_iff_getElem?.mpr hgate)
      · rintro ⟨-, hall⟩ ⟨x, gate⟩ hx
        simp [hall x (List.fst_mem_of_mem_zipIdx hx)]

end Cell

theorem Configuration.fault?_eq_none_iff {d : Configuration} :
    d.fault? = none ↔
      (d.clip.isFinite = true ∧ (d.clip.negative = false ∨ d.clip.isZero = true)) ∧
      (d.alpha.length ≤ d.gates ∧ ∀ x ∈ d.alpha, x.isFinite = true) ∧
      d.beta.length ≤ d.gates ∧ ∀ x ∈ d.beta, x.isFinite = true := by
  unfold fault? Cell.fault?
  simp only [Option.orElse_eq_orElse, Option.orElse_eq_or, Option.or_eq_none_iff,
    Cell.clipFault?_eq_none_iff, Cell.paramsFault?_eq_none_iff]

/-! ## Visits -/

namespace Cell

/-- The values that a cell shows to visitors. -/
def configuration (c : Cell) : Configuration where
  hiddenSize := c.hiddenSize
  clip := c.clip
  activations := c.activations
  alpha := c.alpha.positional
  beta := c.beta.positional

/-- **A visit makes the cell of the visitor's answers.** -/
theorem visit_eq {m : Type → Type} [Monad m] [LawfulMonad m] (c : Cell) (visitor : Visitor m) :
    c.visit visitor = Configuration.cell <$> c.configuration.visit visitor := by
  simp only [visit, Configuration.visit, map_bind, map_pure]
  rfl

theorem run_visit {σ : Type} (c : Cell) (visitor : Visitor (StateM σ)) (s : σ) :
    (c.visit visitor).run s =
      (((c.configuration.visit visitor).run s).1.cell, ((c.configuration.visit visitor).run s).2) := by
  rw [visit_eq]
  rfl

theorem ofAttributes_eq_ok {map : Attributes} {c : Cell} (h : ofAttributes map = .ok c) :
    ∃ d : Configuration, d.checked = .ok c := by
  unfold ofAttributes at h
  generalize (unset.visit map.reader).run [] = visited at h
  obtain ⟨raw, faults⟩ := visited
  cases hfinish : Attribute.finish faults with
  | error e =>
      simp only [hfinish] at h
      cases h
  | ok _ =>
      simp only [hfinish] at h
      exact ⟨raw.configuration, h⟩

/-! ## All cells there are -/

/-- The cells that can be made: without any configuration, from values or from a map, as far as they pass
    the checks, and by visitors, which may put anything in place of what they see. A visitor may have a
    state of any type. -/
inductive Reachable : Cell → Prop
  | unset : Reachable unset
  | created {hiddenSize : UInt64} {clip : Binary32} {activations : List String}
      {alpha beta : List Binary32} {c : Cell} :
      create hiddenSize clip activations alpha beta = .ok c → Reachable c
  | read {map : Attributes} {c : Cell} : ofAttributes map = .ok c → Reachable c
  | visited {σ : Type} {c : Cell} (visitor : Visitor (StateM σ)) (s : σ) :
      Reachable c → Reachable ((c.visit visitor).run s).1

/-- The cell is in form. -/
structure WellFormed (c : Cell) : Prop where
  alpha : c.alpha.Aligned c.gateCount
  beta : c.beta.Aligned c.gateCount
  lowercase : ∀ name ∈ c.activations, Text.lowercase name = name

theorem Reachable.exists_configuration {c : Cell} (h : c.Reachable) : ∃ d : Configuration, c = d.cell := by
  cases h with
  | unset => exact ⟨⟨0, 0, [], [], []⟩, rfl⟩
  | @created hiddenSize clip activations alpha beta _ hcreate =>
      let d : Configuration := ⟨hiddenSize, clip, activations, alpha, beta⟩
      exact ⟨d, (Configuration.checked_eq_ok_iff.mp (show d.checked = .ok c from hcreate)).2⟩
  | read hread =>
      obtain ⟨d, hd⟩ := ofAttributes_eq_ok hread
      exact ⟨d, (Configuration.checked_eq_ok_iff.mp hd).2⟩
  | @visited σ c visitor s _ =>
      rw [run_visit]
      exact ⟨_, rfl⟩

/-- Whatever the values are, the cell that they make is in form. -/
theorem wellFormed_cell (d : Configuration) : d.cell.WellFormed := by
  have hgates : d.cell.gateCount = d.gates := List.length_map Text.lowercase
  refine ⟨?_, ?_, ?_⟩
  · rw [hgates]
    exact GateParams.aligned_ofPositional d.alpha d.gates
  · rw [hgates]
    exact GateParams.aligned_ofPositional d.beta d.gates
  · intro name hname
    obtain ⟨given, -, rfl⟩ := List.mem_map.mp hname
    exact Text.lowercase_lowercase given

theorem Reachable.wellFormed {c : Cell} (h : c.Reachable) : c.WellFormed := by
  obtain ⟨d, rfl⟩ := h.exists_configuration
  exact wellFormed_cell d

/-- **A cell in form is the cell of what it shows.** -/
theorem WellFormed.cell_configuration {c : Cell} (h : c.WellFormed) : c.configuration.cell = c := by
  have hnames : c.activations.map Text.lowercase = c.activations :=
    (List.map_congr_left h.lowercase).trans (List.map_id _)
  have halpha : GateParams.ofPositional c.alpha.positional c.activations.length = c.alpha :=
    h.alpha.ofPositional_positional
  have hbeta : GateParams.ofPositional c.beta.positional c.activations.length = c.beta :=
    h.beta.ofPositional_positional
  simp only [Configuration.cell, configuration, Configuration.gates, hnames, halpha, hbeta]

end Cell

/-! ## Visitors that only look -/

/-- The visitor answers with what it is shown. -/
structure Attribute.Visitor.OnlyLooks {σ : Type} (visitor : Visitor (StateM σ)) : Prop where
  natural : ∀ name n s, ((visitor.natural name n).run s).1 = n
  real : ∀ name x s, ((visitor.real name x).run s).1 = x
  strings : ∀ name texts s, ((visitor.strings name texts).run s).1 = texts
  reals : ∀ name xs s, ((visitor.reals name xs).run s).1 = xs

theorem Attribute.onlyLooks_recorder : recorder.OnlyLooks :=
  ⟨fun _ _ _ => rfl, fun _ _ _ => rfl, fun _ _ _ => rfl, fun _ _ _ => rfl⟩

theorem Configuration.visit_of_onlyLooks {σ : Type} {visitor : Visitor (StateM σ)} (h : visitor.OnlyLooks)
    (d : Configuration) (s : σ) : ((d.visit visitor).run s).1 = d :=
  Configuration.ext (h.natural "hidden_size" _ s) (h.real "clip" _ _) (h.strings "activations" _ _)
    (h.reals GateParam.alpha.attribute _ _) (h.reals GateParam.beta.attribute _ _)

namespace Cell

/-- Visitors that only look leave a cell in form as it is. -/
theorem WellFormed.visit_of_onlyLooks {c : Cell} (h : c.WellFormed) {σ : Type}
    {visitor : Visitor (StateM σ)} (hlooks : visitor.OnlyLooks) (s : σ) :
    ((c.visit visitor).run s).1 = c := by
  rw [run_visit, Configuration.visit_of_onlyLooks hlooks]
  exact h.cell_configuration

/-- **Every cell is in form, whatever visitors have done to it.** There is an entry for each gate, the gates
    with a parameter come first, and the names are in lower case. So a visitor that only looks changes
    nothing, not one bit. -/
theorem form_kept {c : Cell} (h : c.Reachable) :
    c.WellFormed ∧ ∀ {σ : Type} (visitor : Visitor (StateM σ)), visitor.OnlyLooks →
      ∀ s, ((c.visit visitor).run s).1 = c :=
  ⟨h.wellFormed, fun _ hlooks s => h.wellFormed.visit_of_onlyLooks hlooks s⟩

/-- A visitor that leaves fewer gates than there were, with more parameters than gates, none of them a
    number, and names with a final sigma and with a capital that becomes two characters. -/
theorem form_kept_sigma :
    ∃ c : Cell, c.Reachable ∧ c.activations = ["ας", "i\u0307"] ∧ c.alpha.positional.length = 2 ∧
      c.WellFormed ∧ ((c.visit Attribute.recorder).run []).1 = c :=
  let nan : Binary32 := .ofBits .single 0x7fc00000
  let meddler : Visitor (StateM Unit) :=
    ⟨fun _ n => pure (n + 1), fun _ _ => pure nan, fun _ _ => pure ["ΑΣ", "İ"],
      fun _ _ => pure [nan, nan, nan]⟩
  let d : Configuration := ⟨8, 0, ["Tanh", "relu", "tanh"], [0, .ofNat .single 1], []⟩
  let c : Cell := d.cell
  have hcreated : c.Reachable := .created (Configuration.checked_eq_ok_iff.mpr ⟨by decide +kernel, rfl⟩)
  have hvisited : ((c.visit meddler).run ()).1.Reachable := .visited meddler () hcreated
  ⟨((c.visit meddler).run ()).1, hvisited, by decide +kernel, by decide +kernel, (form_kept hvisited).1,
    (form_kept hvisited).2 Attribute.recorder Attribute.onlyLooks_recorder []⟩

end Cell

end GateGraph
