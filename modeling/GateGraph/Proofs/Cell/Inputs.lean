import GateGraph.Cell.Inputs
import GateGraph.Proofs.Error.Precedence
import GateGraph.Proofs.Shape.Compatibility
import GateGraph.Proofs.Shape.Queries

/-!
# `GateGraph.Proofs.Cell.Inputs` — which inputs a cell takes

The inputs of a cell are looked at in three passes: first for ranks that are open, then for ranks that are
wrong, and last for the input sizes of `X` and `W`. So an input behind all others may be the one that is
reported, and dimensions are compared only when every rank is known to be right. This module says without the
passes which inputs are taken and what is wrong with the others.

Open dimensions are given the benefit of the doubt. This is neither too strict nor too lenient: inputs are
taken exactly if their open dimensions can be given extents with which they are taken.

## Contents
- `Cell.Takes`, the inputs that a cell takes, and `checkInputs_eq_ok_iff`.
- `Cell.inputHurdles`, what may be wrong with inputs, and `stop_inputHurdles_iff`.
- `Takes.of_refines` and `Takes.exists_filled`: inputs of which less or more is known.
- `Cell.inputs_decided`.
-/

namespace GateGraph

open Hurdle

namespace Cell

/-! ## What is taken, and what may be wrong -/

/-- The rank that an input has to have at its position: the bias is a vector, all others are matrices. -/
def expectedRank (position : Nat) : Nat := if position = biasPosition then 1 else 2

/-- The inputs that a cell takes. -/
structure Takes (inputs : List Shape) : Prop where
  static : ∀ s ∈ inputs, s.isStatic = true
  bias : ∀ s, inputs[4]? = some s → s.rank = .static 1
  others : ∀ position s, position ≠ 4 → inputs[position]? = some s → s.rank = .static 2
  enough : 3 ≤ inputs.length
  inputSize : ∀ x w, inputs[0]? = some x → inputs[2]? = some w →
    x.dim 1 = w.dim 1 ∨ x.dim 1 = none ∨ w.dim 1 = none

/-- The rank of an input is known, and it is not the one for its position. -/
def WrongRank (position : Nat) (s : Shape) : Prop := ∃ n, s.rank = .static n ∧ n ≠ expectedRank position

/-- How a wrong rank is reported. -/
def rankFault (position rank : Nat) : InputFault :=
  if position = 4 then .wrongBiasRank position rank 1 else .wrongRank position rank 2

variable (node : String) (inputs : List Shape)

/-- The rank of an input is open. -/
def openRank : Hurdle := fun e =>
  ∃ position s, FirstAt (fun _ s => s.rank = .dynamic) inputs position s ∧
    e = .nodeValidation node (.dynamicRank position)

/-- The rank of an input is wrong. -/
def wrongRank : Hurdle := fun e =>
  ∃ position s n, FirstAt WrongRank inputs position s ∧ s.rank = .static n ∧
    e = .nodeValidation node (rankFault position n)

/-- There are not as many inputs as every cell has. -/
def missingInputs : Hurdle := fun e =>
  inputs.length < 3 ∧ e = .nodeValidation node (.tooFew inputs.length)

/-- `X` and `W` have input sizes that are known and not the same. -/
def sizesDiffer : Hurdle := fun e =>
  ∃ x w m n, inputs[0]? = some x ∧ inputs[2]? = some w ∧ x.dim 1 = some m ∧ w.dim 1 = some n ∧ m ≠ n ∧
    e = .nodeValidation node (.inputSizeMismatch x w)

/-- What may be wrong with the inputs of a cell, in the order in which it counts. -/
def inputHurdles : List Hurdle :=
  [openRank node inputs, wrongRank node inputs, missingInputs node inputs, sizesDiffer node inputs]

/-! ## The three passes -/

variable {node : String} {inputs : List Shape}

theorem dynamicRankFault?_eq_none_iff :
    dynamicRankFault? inputs = none ↔ ∀ s ∈ inputs, s.isStatic = true := by
  unfold dynamicRankFault?
  rw [Option.map_eq_none_iff, List.findIdx?_eq_none_iff]
  simp only [Rank.isDynamic, Bool.not_eq_false', Shape.isStatic]

theorem isDynamic_rank_iff (s : Shape) : s.rank.isDynamic = true ↔ s.rank = .dynamic := by
  cases s with
  | unranked => exact ⟨fun _ => rfl, fun _ => rfl⟩
  | ranked dims => exact ⟨nofun, nofun⟩

theorem openRank_iff (e : Error) :
    openRank node inputs e ↔ ∃ f, dynamicRankFault? inputs = some f ∧ e = .nodeValidation node f := by
  unfold openRank dynamicRankFault?
  simp only [Option.map_eq_some_iff, findIdx?_eq_some_iff, isDynamic_rank_iff]
  constructor
  · rintro ⟨position, s, hfirst, rfl⟩
    exact ⟨_, ⟨position, ⟨s, hfirst⟩, rfl⟩, rfl⟩
  · rintro ⟨_, ⟨position, ⟨s, hfirst⟩, rfl⟩, rfl⟩
    exact ⟨position, s, hfirst, rfl⟩

theorem wrongRank?_eq_some_iff {s : Shape} {position : Nat} {f : InputFault} :
    wrongRank? s position = some f ↔
      ∃ n, s.rank = .static n ∧ n ≠ expectedRank position ∧ f = rankFault position n := by
  cases s with
  | unranked => exact ⟨nofun, fun ⟨_, h, _⟩ => nomatch h⟩
  | ranked dims =>
      have hrank : (Shape.ranked dims).rank = .static dims.length := rfl
      unfold wrongRank? expectedRank rankFault
      rw [hrank]
      simp only [Rank.static.injEq, exists_eq_left', show biasPosition = 4 from rfl]
      by_cases hbias : position = 4
      · simp only [hbias, if_true]
        split <;> simp [*, eq_comm]
      · simp only [hbias, if_false]
        split <;> simp [*, eq_comm]

theorem wrongRank_iff (e : Error) :
    wrongRank node inputs e ↔ ∃ f, rankFault? inputs = some f ∧ e = .nodeValidation node f := by
  have hanswer (position : Nat) (s : Shape) : WrongRank position s ↔ ∃ f, wrongRank? s position = some f := by
    simp only [wrongRank?_eq_some_iff]
    constructor
    · rintro ⟨n, hrank, hn⟩
      exact ⟨_, n, hrank, hn, rfl⟩
    · rintro ⟨_, n, hrank, hn, -⟩
      exact ⟨n, hrank, hn⟩
  unfold wrongRank rankFault?
  simp only [findSome?_zipIdx_eq_some_iff hanswer, wrongRank?_eq_some_iff]
  constructor
  · rintro ⟨position, s, n, hfirst, hrank, rfl⟩
    obtain ⟨n', hrank', hn'⟩ := hfirst.2.1
    obtain rfl : n' = n := by
      rw [hrank] at hrank'
      exact (Rank.static.inj hrank').symm
    exact ⟨_, ⟨position, s, hfirst, n', hrank, hn', rfl⟩, rfl⟩
  · rintro ⟨_, ⟨position, s, hfirst, n, hrank, -, rfl⟩, rfl⟩
    exact ⟨position, s, n, hfirst, hrank, rfl⟩

/-- Extents are at odds when both are known and they are not the same. -/
theorem incompatible_iff (x y : Dim) :
    Dim.compatible x y = false ↔ ∃ m n, x = some m ∧ y = some n ∧ m ≠ n := by
  cases x with
  | none => exact ⟨nofun, fun ⟨_, _, h, _⟩ => nomatch h⟩
  | some m =>
      cases y with
      | none => exact ⟨nofun, fun ⟨_, _, _, h, _⟩ => nomatch h⟩
      | some n => simp [Dim.compatible]

/-- Three inputs or more have an `X` and a `W`. -/
theorem exists_inputs (h : 3 ≤ inputs.length) : ∃ x w, inputs[0]? = some x ∧ inputs[2]? = some w :=
  ⟨_, _, List.getElem?_eq_getElem (by omega), List.getElem?_eq_getElem (by omega)⟩

theorem sizeFault?_of_few (h : inputs.length < 3) : sizeFault? inputs = some (.tooFew inputs.length) := by
  have hweights : inputs[weightsPosition]? = none := List.getElem?_eq_none (Nat.le_of_lt_succ h)
  unfold sizeFault?
  rw [hweights]
  cases inputs[inputPosition]? <;> rfl

theorem sizeFault?_of_inputs {x w : Shape} (hx : inputs[0]? = some x) (hw : inputs[2]? = some w) :
    sizeFault? inputs =
      if Dim.compatible (x.dim 1) (w.dim 1) then none else some (.inputSizeMismatch x w) := by
  have hinput : inputs[inputPosition]? = some x := hx
  have hweights : inputs[weightsPosition]? = some w := hw
  unfold sizeFault?
  rw [hinput, hweights]

theorem stop_sizes_iff (e : Error) :
    Stop [missingInputs node inputs, sizesDiffer node inputs] e ↔
      ∃ f, sizeFault? inputs = some f ∧ e = .nodeValidation node f := by
  by_cases hfew : inputs.length < 3
  · have hmissing : ∀ e, missingInputs node inputs e ↔ e = .nodeValidation node (.tooFew inputs.length) :=
      fun e => ⟨fun he => he.2, fun he => ⟨hfew, he⟩⟩
    rw [stop_cons_of_eq hmissing, sizeFault?_of_few hfew]
    simp only [Option.some.injEq, exists_eq_left']
  · have hclear : ∀ e, ¬ missingInputs node inputs e := fun e he => hfew he.1
    obtain ⟨x, w, hx, hw⟩ := exists_inputs (Nat.le_of_not_lt hfew)
    have hdiffer : sizesDiffer node inputs e ↔
        Dim.compatible (x.dim 1) (w.dim 1) = false ∧ e = .nodeValidation node (.inputSizeMismatch x w) := by
      unfold sizesDiffer
      rw [incompatible_iff, hx, hw]
      constructor
      · rintro ⟨_, _, m, n, ⟨⟩, ⟨⟩, hm, hn, hne, rfl⟩
        exact ⟨⟨m, n, hm, hn, hne⟩, rfl⟩
      · rintro ⟨⟨m, n, hm, hn, hne⟩, rfl⟩
        exact ⟨x, w, m, n, rfl, rfl, hm, hn, hne, rfl⟩
    rw [stop_cons_of_clear hclear, stop_cons, hdiffer, sizeFault?_of_inputs hx hw]
    simp only [stop_nil, and_false, or_false]
    cases Dim.compatible (x.dim 1) (w.dim 1) <;> simp

/-! ## All passes together -/

theorem checkInputs_eq_error_iff (e : Error) :
    checkInputs node inputs = .error e ↔ ∃ f, inputFault? inputs = some f ∧ e = .nodeValidation node f := by
  unfold checkInputs
  cases inputFault? inputs with
  | none => exact ⟨nofun, fun ⟨_, h, _⟩ => nomatch h⟩
  | some f =>
      simp only [Except.error.injEq, Option.some.injEq, exists_eq_left']
      exact eq_comm

/-- **What is reported of inputs that are not taken.** -/
theorem stop_inputHurdles_iff (e : Error) :
    Stop (inputHurdles node inputs) e ↔ checkInputs node inputs = .error e := by
  rw [checkInputs_eq_error_iff]
  apply stop_cons_orElse openRank_iff
  apply stop_cons_orElse wrongRank_iff
  exact stop_sizes_iff e

theorem wrongRank?_eq_none_iff {s : Shape} (hstatic : s.isStatic = true) (position : Nat) :
    wrongRank? s position = none ↔ s.rank = .static (expectedRank position) := by
  cases s with
  | unranked => cases hstatic
  | ranked dims =>
      rw [Option.eq_none_iff_forall_ne_some]
      simp only [ne_eq, wrongRank?_eq_some_iff, Shape.rank_ranked, Rank.static.injEq, exists_eq_left']
      constructor
      · intro hnone
        by_contra hlength
        exact hnone _ ⟨hlength, rfl⟩
      · rintro hlength f ⟨hne, -⟩
        exact hne hlength

theorem rankFault?_eq_none_iff (hstatic : ∀ s ∈ inputs, s.isStatic = true) :
    rankFault? inputs = none ↔ ∀ (position : Nat) (s : Shape), inputs[position]? = some s →
      s.rank = .static (expectedRank position) := by
  unfold rankFault?
  rw [List.findSome?_eq_none_iff]
  constructor
  · intro hnone position s hs
    rw [← wrongRank?_eq_none_iff (hstatic s (List.mem_of_getElem? hs))]
    exact hnone (s, position) (List.mem_zipIdx_iff_getElem?.mpr hs)
  · rintro hall ⟨s, position⟩ hmem
    have hs : inputs[position]? = some s := List.mem_zipIdx_iff_getElem?.mp hmem
    exact (wrongRank?_eq_none_iff (hstatic s (List.mem_of_getElem? hs)) position).mpr (hall position s hs)

theorem compatible_iff_same_or_open (x y : Dim) : Dim.compatible x y = true ↔ x = y ∨ x = none ∨ y = none := by
  cases x <;> cases y <;> simp [Dim.compatible]

theorem sizeFault?_eq_none_iff :
    sizeFault? inputs = none ↔ 3 ≤ inputs.length ∧ ∀ x w : Shape, inputs[0]? = some x → inputs[2]? = some w →
      x.dim 1 = w.dim 1 ∨ x.dim 1 = none ∨ w.dim 1 = none := by
  by_cases hfew : inputs.length < 3
  · rw [sizeFault?_of_few hfew]
    exact ⟨nofun, fun h => absurd h.1 (Nat.not_le_of_lt hfew)⟩
  · have henough : 3 ≤ inputs.length := Nat.le_of_not_lt hfew
    obtain ⟨x, w, hx, hw⟩ := exists_inputs henough
    have hsizes : sizeFault? inputs = none ↔ x.dim 1 = w.dim 1 ∨ x.dim 1 = none ∨ w.dim 1 = none := by
      rw [sizeFault?_of_inputs hx hw, ← compatible_iff_same_or_open]
      cases Dim.compatible (x.dim 1) (w.dim 1) <;> simp
    rw [hsizes, hx, hw]
    constructor
    · rintro hsame
      refine ⟨henough, ?_⟩
      rintro _ _ ⟨⟩ ⟨⟩
      exact hsame
    · rintro ⟨-, hall⟩
      exact hall x w rfl rfl

/-- **Which inputs are taken.** -/
theorem checkInputs_eq_ok_iff : checkInputs node inputs = .ok () ↔ Takes inputs := by
  have hok : checkInputs node inputs = .ok () ↔ inputFault? inputs = none := by
    unfold checkInputs
    cases inputFault? inputs <;> simp
  rw [hok]
  unfold inputFault?
  simp only [Option.orElse_eq_orElse, Option.orElse_eq_or, Option.or_eq_none_iff,
    dynamicRankFault?_eq_none_iff, sizeFault?_eq_none_iff]
  constructor
  · rintro ⟨hstatic, hrank, henough, hsize⟩
    have hranks := (rankFault?_eq_none_iff hstatic).mp hrank
    refine ⟨hstatic, fun s hs => hranks 4 s hs, fun position s hne hs => ?_, henough, hsize⟩
    rw [hranks position s hs]
    exact congrArg Rank.static (if_neg hne)
  · intro h
    refine ⟨h.static, (rankFault?_eq_none_iff h.static).mpr fun position s hs => ?_, h.enough, h.inputSize⟩
    by_cases hbias : position = 4
    · subst hbias
      exact h.bias s hs
    · rw [h.others position s hbias hs]
      exact congrArg Rank.static (if_neg hbias).symm

/-! ## Open dimensions -/

/-- **Inputs of which less is known are taken too**, as long as their ranks are known. -/
theorem Takes.of_refines {fine coarse : List Shape} (h : Takes fine)
    (hrefines : List.Forall₂ Shape.Refines fine coarse) (hstatic : ∀ s ∈ coarse, s.isStatic = true) :
    Takes coarse := by
  have hfine {position : Nat} {s : Shape} (hs : coarse[position]? = some s) :
      ∃ t, fine[position]? = some t ∧ t.Refines s := by
    have hrel := getElem?_rel hrefines.flip position
    rw [hs] at hrel
    exact exists_of_rel hrel
  have hrank {position : Nat} {s t : Shape} (hs : coarse[position]? = some s) (ht : t.Refines s) :
      s.rank = t.rank := (ht.rank_eq (hstatic s (List.mem_of_getElem? hs))).symm
  refine ⟨hstatic, fun s hs => ?_, fun position s hne hs => ?_, ?_, fun x w hx hw => ?_⟩
  · obtain ⟨t, ht, hst⟩ := hfine hs
    exact (hrank hs hst).trans (h.bias t ht)
  · obtain ⟨t, ht, hst⟩ := hfine hs
    exact (hrank hs hst).trans (h.others position t hne ht)
  · rw [← hrefines.length_eq]
    exact h.enough
  · obtain ⟨x', hx', hxx'⟩ := hfine hx
    obtain ⟨w', hw', hww'⟩ := hfine hw
    -- a dimension that is not open is what it was in the finer shape
    rcases hxx'.dim 1 with hopen | hx1
    · exact .inr (.inl hopen)
    · rcases hww'.dim 1 with hopen | hw1
      · exact .inr (.inr hopen)
      · rw [← hx1, ← hw1]
        exact h.inputSize x' w' hx' hw'

/-- An extent for two dimensions that are the same, or of which one is open. -/
theorem exists_getD_eq {x y : Dim} (h : x = y ∨ x = none ∨ y = none) :
    ∃ n : UInt64, x.getD n = y.getD n := by
  rcases h with rfl | rfl | rfl
  · exact ⟨0, rfl⟩
  · exact ⟨y.getD 0, by cases y <;> rfl⟩
  · exact ⟨x.getD 0, by cases x <;> rfl⟩

/-- **Inputs that are taken can be completed**: one extent for all open dimensions will do. -/
theorem Takes.exists_filled {inputs : List Shape} (h : Takes inputs) :
    ∃ n : UInt64, Takes (inputs.map fun s => .fixed (s.filled n)) := by
  obtain ⟨x, w, hx, hw⟩ := exists_inputs h.enough
  obtain ⟨n, hn⟩ := exists_getD_eq (h.inputSize x w hx hw)
  have hrank {position : Nat} {s : Shape} (hs : inputs[position]? = some s) :
      (Shape.fixed (s.filled n)).rank = s.rank :=
    Shape.rank_fixed_filled n (h.static s (List.mem_of_getElem? hs))
  refine ⟨n, ?_, fun t ht => ?_, fun position t hne ht => ?_, ?_, fun x' w' hx' hw' => .inl ?_⟩
  · intro t ht
    obtain ⟨s, -, rfl⟩ := List.mem_map.mp ht
    rfl
  · rw [List.getElem?_map, Option.map_eq_some_iff] at ht
    obtain ⟨s, hs, rfl⟩ := ht
    exact (hrank hs).trans (h.bias s hs)
  · rw [List.getElem?_map, Option.map_eq_some_iff] at ht
    obtain ⟨s, hs, rfl⟩ := ht
    exact (hrank hs).trans (h.others position s hne hs)
  · rw [List.length_map]
    exact h.enough
  · rw [List.getElem?_map, hx] at hx'
    rw [List.getElem?_map, hw] at hw'
    cases hx'
    cases hw'
    rw [Shape.dim_fixed_filled n (h.others 0 x (by decide) hx) (by decide),
      Shape.dim_fixed_filled n (h.others 2 w (by decide) hw) (by decide), hn]

/-- **What becomes of the inputs of a cell.** They are taken exactly if all ranks are known and right, there
    are three inputs or more, and the input sizes of `X` and `W` are the same or one of them is open. Otherwise
    the error has the node's text as it was given and says the first thing that is wrong: an open rank
    anywhere, then a wrong rank, then too few inputs, then the input sizes. Inputs are taken exactly if their
    ranks are known and there are extents for their open dimensions with which they are taken. Nothing of
    this depends on a cell. -/
theorem inputs_decided (node : String) (inputs : List Shape) :
    (checkInputs node inputs = .ok () ↔ Takes inputs) ∧
    (∀ e, checkInputs node inputs = .error e ↔ Stop (inputHurdles node inputs) e) ∧
    (checkInputs node inputs = .ok () ↔ (∀ s ∈ inputs, s.isStatic = true) ∧
      ∃ concrete : List Extents, List.Forall₂ Shape.Admits inputs concrete ∧
        checkInputs node (concrete.map Shape.fixed) = .ok ()) := by
  refine ⟨checkInputs_eq_ok_iff, fun e => (stop_inputHurdles_iff e).symm, ?_⟩
  simp only [checkInputs_eq_ok_iff]
  constructor
  · intro h
    obtain ⟨n, hfilled⟩ := h.exists_filled
    refine ⟨h.static, inputs.map (Shape.filled n), ?_, ?_⟩
    · rw [List.forall₂_map_right_iff, List.forall₂_same]
      intro s hs
      exact Shape.admits_filled n (h.static s hs)
    · rw [List.map_map]
      exact hfilled
  · rintro ⟨hstatic, concrete, hadmits, htakes⟩
    refine htakes.of_refines ?_ hstatic
    rw [List.forall₂_map_left_iff]
    exact hadmits.flip.imp fun c s hc => (Shape.fixed_refines_iff s c).mpr hc

/-- An input of open rank is reported, although an input before it has a wrong rank. -/
example : checkInputs "lstm" [.fixed [2], .unranked, .fixed [8, 3]] =
    .error (.nodeValidation "lstm" (.dynamicRank 1)) := by decide

end Cell

end GateGraph
