import GateGraph.Proofs.Binary.Magnitude
import GateGraph.Proofs.Cell.Configuration
import GateGraph.Proofs.Error.Precedence

/-!
# `GateGraph.Proofs.Cell.Creation` — which configurations are accepted

A caller's configuration is looked at once, when the cell is made. Three of its five values may be wrong, two
of them in two ways, and several of these things at the same time: the bound, the number of parameters, and
each of the parameters. What is reported is the first of them in a fixed order. A bound of minus zero passes,
because it is compared as a number; parameters that are too many are reported before one that is not finite.

A configuration that is accepted is kept whole. The parameters get an entry for each gate, and each stays at
the gate for which it was given.

## Contents
- `Configuration.Valid`, the configurations that are accepted; `fault?_eq_none_iff_valid`.
- `GateParams.Carries` and `Cell.Carries`, what becomes of the values; `carries_cell`.
- `Configuration.hurdles`, what may be wrong with a configuration, and `stop_hurdles_iff`.
- `Cell.creation_decided`.
-/

namespace GateGraph

open Hurdle

/-! ## What is accepted -/

/-- The configurations that are accepted. -/
structure Configuration.Valid (d : Configuration) : Prop where
  clip_finite : d.clip.isFinite = true
  clip_nonneg : 0 ≤ d.clip.value
  alpha_length : d.alpha.length ≤ d.activations.length
  beta_length : d.beta.length ≤ d.activations.length
  alpha_finite : ∀ x ∈ d.alpha, x.isFinite = true
  beta_finite : ∀ x ∈ d.beta, x.isFinite = true

/-- A finite number is not below zero if it has no sign or is one of the zeros. -/
theorem Binary.value_nonneg_iff {x : Binary32} (h : x.isFinite = true) :
    0 ≤ x.value ↔ x.negative = false ∨ x.isZero = true := by
  have hzero : (0 : Binary32).isFinite = true := by decide
  have hvalue : (0 : Binary32).value = 0 := value_of_isZero (by decide)
  rw [← lt_zero_eq_false_iff h, ← not_lt, ← hvalue, ← lt_iff_value_lt h hzero, Bool.not_eq_true]

theorem Cell.clipFault?_eq_none_iff_value {clip : Binary32} :
    clipFault? clip = none ↔ clip.isFinite = true ∧ 0 ≤ clip.value := by
  rw [clipFault?_eq_none_iff]
  exact and_congr_right fun hfinite => (Binary.value_nonneg_iff hfinite).symm

theorem Cell.clipFault?_eq_some_iff {clip : Binary32} {cause : InvalidOperation} :
    clipFault? clip = some cause ↔
      ¬ (clip.isFinite = true ∧ 0 ≤ clip.value) ∧ cause = .clipOutOfRange clip := by
  rw [← clipFault?_eq_none_iff_value]
  unfold clipFault?
  split <;> simp [eq_comm]

theorem Configuration.fault?_eq_none_iff_valid {d : Configuration} : d.fault? = none ↔ d.Valid := by
  rw [fault?_eq_none_iff, ← Cell.clipFault?_eq_none_iff, Cell.clipFault?_eq_none_iff_value]
  constructor
  · rintro ⟨⟨hfinite, hnonneg⟩, ⟨halpha, halphas⟩, hbeta, hbetas⟩
    exact ⟨hfinite, hnonneg, halpha, hbeta, halphas, hbetas⟩
  · intro h
    exact ⟨⟨h.clip_finite, h.clip_nonneg⟩, ⟨h.alpha_length, h.alpha_finite⟩, h.beta_length, h.beta_finite⟩

/-! ## What is kept -/

/-- These parameters are the given values, one for each of the first gates; the other gates have none, and
    neither has a gate that there is not. -/
structure GateParams.Carries (p : GateParams) (values : List Binary32) (gates : Nat) : Prop where
  length : p.length = gates
  get? : ∀ gate, p.get? gate = values[gate]?
  positional : p.positional = values

theorem GateParams.carries_ofPositional {values : List Binary32} {count : Nat} (h : values.length ≤ count) :
    (ofPositional values count).Carries values count where
  length := length_ofPositional values count
  get? := get?_ofPositional_of_le h
  positional := by rw [positional_ofPositional, List.take_of_length_le h]

/-- The cell has what is configured, with its names in lower case. -/
structure Cell.Carries (c : Cell) (d : Configuration) : Prop where
  hiddenSize : c.hiddenSize = d.hiddenSize
  clip : c.clip = d.clip
  activations : c.activations = d.activations.map Text.lowercase
  gateCount : c.gateCount = d.activations.length
  alpha : c.alpha.Carries d.alpha c.gateCount
  beta : c.beta.Carries d.beta c.gateCount

theorem Configuration.Valid.carries_cell {d : Configuration} (h : d.Valid) : d.cell.Carries d := by
  have hgates : d.cell.gateCount = d.activations.length := List.length_map Text.lowercase
  refine ⟨rfl, rfl, rfl, hgates, ?_, ?_⟩
  · rw [hgates]
    exact GateParams.carries_ofPositional h.alpha_length
  · rw [hgates]
    exact GateParams.carries_ofPositional h.beta_length

/-! ## What is reported -/

/-- The bound is not finite, or it is below zero. -/
def unfitBound (clip : Binary32) : Hurdle := fun e =>
  ¬ (clip.isFinite = true ∧ 0 ≤ clip.value) ∧ e = .invalidOperation (.clipOutOfRange clip)

/-- There are more parameters than gates. -/
def excess (param : GateParam) (values : List Binary32) (gates : Nat) : Hurdle := fun e =>
  gates < values.length ∧ e = .invalidOperation (.tooManyParams param values.length gates)

/-- The parameter of a gate is not finite. -/
def infinite (param : GateParam) (values : List Binary32) : Hurdle := fun e =>
  ∃ gate x, FirstAt (fun _ x => x.isFinite = false) values gate x ∧
    e = .invalidOperation (.paramNotFinite param gate x)

/-- What may be wrong with a configuration, in the order in which it counts. -/
def Configuration.hurdles (d : Configuration) : List Hurdle :=
  [unfitBound d.clip, excess .alpha d.alpha d.activations.length, infinite .alpha d.alpha,
    excess .beta d.beta d.activations.length, infinite .beta d.beta]

theorem unfitBound_iff {clip : Binary32} (e : Error) :
    unfitBound clip e ↔ ∃ cause, Cell.clipFault? clip = some cause ∧ e = .invalidOperation cause := by
  simp only [Cell.clipFault?_eq_some_iff]
  constructor
  · rintro ⟨hunfit, rfl⟩
    exact ⟨_, ⟨hunfit, rfl⟩, rfl⟩
  · rintro ⟨_, ⟨hunfit, rfl⟩, rfl⟩
    exact ⟨hunfit, rfl⟩

/-- The parameters of one kind are checked like this: are they too many, and if not, are they finite? -/
theorem stop_params_iff {param : GateParam} {values : List Binary32} {gates : Nat} (e : Error) :
    Stop [excess param values gates, infinite param values] e ↔
      ∃ cause, Cell.paramsFault? param values gates = some cause ∧ e = .invalidOperation cause := by
  unfold Cell.paramsFault?
  by_cases hmany : gates < values.length
  · have hexcess : ∀ e, excess param values gates e ↔
        e = .invalidOperation (.tooManyParams param values.length gates) :=
      fun e => ⟨fun he => he.2, fun he => ⟨hmany, he⟩⟩
    rw [stop_cons_of_eq hexcess, if_pos hmany]
    simp only [Option.some.injEq, exists_eq_left']
  · have hclear : ∀ e, ¬ excess param values gates e := fun e he => hmany he.1
    have hinfinite (gate : Nat) (x : Binary32) : FirstAt (fun _ x => (!x.isFinite) = true) values gate x ↔
        FirstAt (fun _ x => x.isFinite = false) values gate x := by
      simp only [Bool.not_eq_true']
    rw [stop_cons_of_clear hclear, stop_singleton, if_neg hmany]
    constructor
    · rintro ⟨gate, x, hfirst, rfl⟩
      have hfound := find?_zipIdx_eq_some_iff.mpr ((hinfinite gate x).mpr hfirst)
      exact ⟨_, Option.map_eq_some_iff.mpr ⟨(x, gate), hfound, rfl⟩, rfl⟩
    · rintro ⟨cause, hcause, rfl⟩
      obtain ⟨⟨x, gate⟩, hfound, rfl⟩ := Option.map_eq_some_iff.mp hcause
      exact ⟨gate, x, (hinfinite gate x).mp (find?_zipIdx_eq_some_iff.mp hfound), rfl⟩

/-- **What is reported of a configuration that is refused.** -/
theorem Configuration.stop_hurdles_iff (d : Configuration) (e : Error) :
    Stop d.hurdles e ↔ d.checked = .error e := by
  have hchecks : Stop d.hurdles e ↔ ∃ cause, d.fault? = some cause ∧ e = .invalidOperation cause := by
    apply stop_cons_orElse unfitBound_iff
    apply stop_append_orElse stop_params_iff
    exact stop_params_iff e
  rw [hchecks, checked_eq]
  cases d.fault? with
  | none => simp
  | some cause =>
      simp only [Option.some.injEq, exists_eq_left', Except.error.injEq]
      exact eq_comm

namespace Cell

/-- **What becomes of a configuration.** It is accepted exactly if the bound is finite and not below zero, no
    list of parameters is longer than that of the activations, and all parameters are finite. The cell then has
    what was configured, bit for bit, with its names in lower case: each parameter at the gate for which it
    was given, and none elsewhere. Otherwise the first thing that is wrong is reported: the bound, the
    number of alphas, the first alpha that is not finite, and then the same for the betas. -/
theorem creation_decided (d : Configuration) :
    ((∃ c, create d.hiddenSize d.clip d.activations d.alpha d.beta = .ok c) ↔ d.Valid) ∧
    (∀ c, create d.hiddenSize d.clip d.activations d.alpha d.beta = .ok c → c.Carries d) ∧
    (∀ e, create d.hiddenSize d.clip d.activations d.alpha d.beta = .error e ↔ Stop d.hurdles e) := by
  have haccepted : ∀ c, d.checked = .ok c ↔ d.Valid ∧ c = d.cell := by
    intro c
    rw [Configuration.checked_eq_ok_iff, Configuration.fault?_eq_none_iff_valid]
  refine ⟨⟨?_, fun hvalid => ⟨d.cell, (haccepted d.cell).mpr ⟨hvalid, rfl⟩⟩⟩, ?_,
    fun e => (d.stop_hurdles_iff e).symm⟩
  · rintro ⟨c, hc⟩
    exact ((haccepted c).mp hc).1
  · intro c hc
    obtain ⟨hvalid, rfl⟩ := (haccepted c).mp hc
    exact hvalid.carries_cell

/-- A configuration with a bound of minus zero and the smallest number as the second alpha is accepted. One
    with a beta too many, which is infinite, and an alpha that is no number is refused for the alpha. -/
theorem creation_decided_faults :
    ∃ (d d' : Configuration) (c : Cell) (x nan : Binary32),
      create d.hiddenSize d.clip d.activations d.alpha d.beta = .ok c ∧ d.Valid ∧ c.clip = -0 ∧
      c.activations = ["tanh", "ας", "relu"] ∧ c.alpha.get? 1 = some x ∧ c.alpha.get? 2 = none ∧
      c.alpha.length = 3 ∧ c.alpha.positional = [-0, x] ∧ d'.activations.length < d'.beta.length ∧
      create d'.hiddenSize d'.clip d'.activations d'.alpha d'.beta =
        .error (.invalidOperation (.paramNotFinite .alpha 1 nan)) := by
  let x : Binary32 := .ofBits .single 1
  let nan : Binary32 := .ofBits .single 0x7fc00000
  let infinity : Binary32 := .ofBits .single 0x7f800000
  let d : Configuration := ⟨0xffffffffffffffff, -0, ["TANH", "ΑΣ", "relu"], [-0, x], []⟩
  let d' : Configuration := ⟨4, 0, ["tanh", "relu"], [0, nan], [0, infinity, 0]⟩
  have hcreate : create d.hiddenSize d.clip d.activations d.alpha d.beta = .ok d.cell :=
    Configuration.checked_eq_ok_iff.mpr ⟨by decide +kernel, rfl⟩
  obtain ⟨haccepted, hcarries, -⟩ := creation_decided d
  have hcell : d.cell.Carries d := hcarries d.cell hcreate
  have hstop : Stop d'.hurdles (.invalidOperation (.paramNotFinite .alpha 1 nan)) := by
    refine ⟨[unfitBound d'.clip, excess .alpha d'.alpha 2], _, _, rfl, ?_, 1, nan, ⟨rfl, by decide, ?_⟩, rfl⟩
    · have hbound : d'.clip.isFinite = true ∧ 0 ≤ d'.clip.value :=
        ⟨by decide, (Binary.value_of_isZero (by decide)).ge⟩
      have hfew : ¬ 2 < d'.alpha.length := by decide
      rw [clear_cons, clear_cons]
      exact ⟨fun e he => he.1 hbound, fun e he => hfew he.1, clear_nil⟩
    · intro earlier hearlier y hy
      obtain rfl : earlier = 0 := by omega
      cases hy
      decide
  refine ⟨d, d', d.cell, x, nan, hcreate, haccepted.mp ⟨_, hcreate⟩, hcell.clip, ?_, hcell.alpha.get? 1,
    hcell.alpha.get? 2, ?_, hcell.alpha.positional, by decide, ((creation_decided d').2.2 _).mpr hstop⟩
  · rw [hcell.activations]
    decide +kernel
  · rw [hcell.alpha.length, hcell.gateCount]
    rfl

end Cell

end GateGraph
