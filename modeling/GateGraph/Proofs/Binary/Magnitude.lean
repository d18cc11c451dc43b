import Mathlib.Algebra.Order.Field.Power
import Mathlib.Algebra.Order.Ring.Rat
import Mathlib.Data.Rat.Cast.Defs
import Mathlib.Tactic.FieldSimp
import Mathlib.Tactic.NormNum
import Mathlib.Tactic.Positivity
import GateGraph.Proofs.Binary.Rounding

/-!
# `GateGraph.Proofs.Binary.Magnitude` — the numbers that patterns stand for

The definitions count in units and never leave the natural numbers. For reasoning about decimals it is easier
to have the numbers themselves: this module gives each pattern its rational magnitude and says what rounding
means for rational numbers.

## Contents
- `Format.magnitude` and `Binary.magnitude`; `Format.below` and `Format.above`, the midpoints to the
  neighbours of a pattern, and `Format.Encloses`, what lies between them.
- `nearest_of_encloses`: everything between the midpoints is rounded to the pattern.
- `le_mul_above_sub`, `le_mul_sub_below` and `sub_below_le`: how far away the midpoints are.
- `ofRatio_error` and `magnitude_ofRatio_of_few_bits`: how far a rounded number is off.
- `Binary.value`, a number with its sign, and `lt_iff_value_lt`: patterns are ordered like numbers,
  from `Format.signed_lt_signed`.
- `isZero_iff`, `value_neg` and `value_cases`: zeros, opposites and signs.
-/

namespace GateGraph

-- powers of whole numbers are the built-in ones, whatever is imported beside this module
attribute [local instance (2000)] instPowNat

namespace Format

variable {f : Format}

/-! ## Magnitudes -/

/-- The number that a pattern stands for, its sign apart. -/
def magnitude (f : Format) (p : Nat) : ℚ := f.units p / 2 ^ f.unitExponent

/-- The midpoint between a pattern and the one before it. -/
def below (f : Format) (p : Nat) : ℚ := (f.magnitude (p - 1) + f.magnitude p) / 2

/-- The midpoint between a pattern and the one after it. -/
def above (f : Format) (p : Nat) : ℚ := (f.magnitude p + f.magnitude (p + 1)) / 2

/-- A number lies between the midpoints around a pattern. An even pattern takes the midpoints too. -/
def Encloses (f : Format) (p : Nat) (r : ℚ) : Prop :=
  if p % 2 = 0 then f.below p ≤ r ∧ r ≤ f.above p else f.below p < r ∧ r < f.above p

theorem below_succ (p : Nat) : f.below (p + 1) = f.above p := rfl

theorem Encloses.le {p : Nat} {r : ℚ} (h : f.Encloses p r) : f.below p ≤ r ∧ r ≤ f.above p := by
  unfold Encloses at h
  split at h
  · exact h
  · exact ⟨h.1.le, h.2.le⟩

theorem Encloses.of_lt {p : Nat} {r : ℚ} (hlo : f.below p < r) (hhi : r < f.above p) : f.Encloses p r := by
  unfold Encloses
  split
  · exact ⟨hlo.le, hhi.le⟩
  · exact ⟨hlo, hhi⟩

/-- A quotient of units as a number. -/
def quotient (f : Format) (num den : Nat) : ℚ := num / den / 2 ^ f.unitExponent

/-- Being between the midpoints, said with units and said with numbers. -/
theorem roundsTo_iff {p num den : Nat} (hden : 0 < den) :
    f.RoundsTo p num den ↔ f.Encloses p (f.quotient num den) := by
  have hd : (0 : ℚ) < den := by exact_mod_cast hden
  have ht : (0 : ℚ) < 2 ^ f.unitExponent := by positivity
  -- both sides of both midpoints are the same comparison, scaled
  have hscale : ∀ a b : Nat, (f.magnitude a + f.magnitude b) / 2 * (2 * den * 2 ^ f.unitExponent) =
      ((f.units a + f.units b) * den : Nat) := by
    intro a b
    unfold magnitude
    push_cast
    field_simp
  have hquotient : f.quotient num den * (2 * den * 2 ^ f.unitExponent) = (2 * num : Nat) := by
    unfold quotient
    push_cast
    field_simp
  have hpos : (0 : ℚ) < 2 * den * 2 ^ f.unitExponent := by positivity
  unfold RoundsTo Encloses below above
  rw [← mul_le_mul_iff_left₀ hpos, ← mul_le_mul_iff_left₀ (b := f.quotient num den) hpos,
    ← mul_lt_mul_iff_left₀ hpos, ← mul_lt_mul_iff_left₀ (b := f.quotient num den) hpos, hscale, hscale,
    hquotient]
  simp only [Nat.cast_le, Nat.cast_lt]

/-- **Everything between the midpoints is rounded to the pattern.** -/
theorem nearest_of_encloses {p num den : Nat} (hfb : 0 < f.fractionBits) (hden : 0 < den)
    (hp : p < f.infinity) (h : f.Encloses p (f.quotient num den)) : f.nearest num den = p :=
  nearest_of_roundsTo hfb hden hp ((roundsTo_iff hden).mpr h)

/-! ## How far away the midpoints are -/

theorem magnitude_nonneg (f : Format) (p : Nat) : 0 ≤ f.magnitude p := by
  unfold magnitude
  positivity

theorem units_pos {p : Nat} (hp : 0 < p) : 0 < f.units p := by
  rcases pattern_cases f p with hlt | ⟨k, q, hlo, hhi, rfl⟩
  · rw [units_of_lt hlt]
    exact hp
  · rw [units_succ hlo hhi]
    exact Nat.mul_pos (Nat.lt_of_lt_of_le (Nat.two_pow_pos _) hlo) (Nat.two_pow_pos k)

theorem magnitude_pos {p : Nat} (hp : 0 < p) : 0 < f.magnitude p := by
  have hunits := units_pos (f := f) hp
  unfold magnitude
  positivity

theorem units_eq_magnitude_mul (f : Format) (p : Nat) :
    (f.units p : ℚ) = f.magnitude p * 2 ^ f.unitExponent := by
  unfold magnitude
  field_simp

/-- An inequality between units holds between magnitudes. -/
theorem magnitude_le_of_units {a b c d p q r s : Nat}
    (h : a * f.units p + b * f.units q ≤ c * f.units r + d * f.units s) :
    a * f.magnitude p + b * f.magnitude q ≤ c * f.magnitude r + d * f.magnitude s := by
  have ht : (0 : ℚ) < 2 ^ f.unitExponent := by positivity
  have hcast : (a * f.units p + b * f.units q : ℚ) ≤ c * f.units r + d * f.units s := by exact_mod_cast h
  refine le_of_mul_le_mul_right ?_ ht
  simp only [units_eq_magnitude_mul] at hcast
  linarith

/-- The midpoint above is as far away as the precision of the format allows. -/
theorem le_mul_above_sub (p : Nat) :
    f.magnitude p ≤ 2 ^ (f.fractionBits + 2) * (f.above p - f.magnitude p) := by
  have hunits := units_le_two_pow_mul_step_up (f := f) p
  have hmag := magnitude_le_of_units (f := f) (a := 1) (b := 2 * 2 ^ f.fractionBits) (c := 0)
    (d := 2 * 2 ^ f.fractionBits) (p := p) (q := p) (r := 0) (s := p + 1) (by linarith)
  push_cast at hmag
  unfold above
  rw [pow_add]
  linarith

theorem le_mul_sub_below {p : Nat} (hp : 0 < p) :
    f.magnitude p ≤ 2 ^ (f.fractionBits + 2) * (f.magnitude p - f.below p) := by
  have hunits := units_le_two_pow_mul_step_down (f := f) hp
  have hmag := magnitude_le_of_units (f := f) (a := 1) (b := 2 * 2 ^ f.fractionBits) (c := 0)
    (d := 2 * 2 ^ f.fractionBits) (p := p) (q := p - 1) (r := 0) (s := p) (by linarith)
  push_cast at hmag
  unfold below
  rw [pow_add]
  linarith

theorem below_pos {p : Nat} (hp : 0 < p) : 0 < f.below p := by
  have hself := magnitude_pos (f := f) hp
  have hpred := f.magnitude_nonneg (p - 1)
  unfold below
  linarith

theorem magnitude_lt_above {p : Nat} (hp : 0 < p) : f.magnitude p < f.above p := by
  have hstep := (magnitude_pos (f := f) hp).trans_le (le_mul_above_sub p)
  have := (pos_iff_pos_of_mul_pos hstep).mp (by positivity)
  linarith

theorem below_lt_magnitude {p : Nat} (hp : 0 < p) : f.below p < f.magnitude p := by
  have hstep := (magnitude_pos (f := f) hp).trans_le (le_mul_sub_below hp)
  have := (pos_iff_pos_of_mul_pos hstep).mp (by positivity)
  linarith

/-- The midpoint below is not farther away than the one above, and not less than half as far. -/
theorem sub_below_le {p : Nat} (hp : 0 < p) :
    f.magnitude p - f.below p ≤ f.above p - f.magnitude p ∧
      f.above p - f.magnitude p ≤ 2 * (f.magnitude p - f.below p) := by
  obtain ⟨hup, hdown⟩ := units_steps (f := f) hp
  have hup' := magnitude_le_of_units (f := f) (a := 2) (b := 0) (c := 1) (d := 1) (p := p) (q := 0)
    (r := p - 1) (s := p + 1) (by linarith)
  have hdown' := magnitude_le_of_units (f := f) (a := 1) (b := 2) (c := 3) (d := 0) (p := p + 1)
    (q := p - 1) (r := p) (s := 0) (by linarith)
  push_cast at hup' hdown'
  unfold below above
  constructor <;> linarith

theorem magnitude_zero (f : Format) : f.magnitude 0 = 0 := by
  have hunits : f.units 0 = 0 := units_of_lt (Nat.two_pow_pos _)
  rw [magnitude, hunits, Nat.cast_zero, zero_div]

/-- **Patterns are numbered in the order of their magnitudes.** -/
theorem magnitude_strictMono (f : Format) : StrictMono f.magnitude := by
  refine strictMono_nat_of_lt_succ fun p => ?_
  rcases Nat.eq_zero_or_pos p with rfl | hp
  · rw [magnitude_zero]
    exact magnitude_pos Nat.one_pos
  · -- the midpoint above lies between the two
    have habove := magnitude_lt_above (f := f) hp
    unfold above at habove
    linarith

/-- The magnitudes, counted from zero in both directions. -/
def signed (f : Format) (r : Int) : ℚ := r.sign * f.magnitude r.natAbs

theorem signed_neg (f : Format) (r : Int) : f.signed (-r) = -f.signed r := by
  simp only [signed, Int.sign_neg, Int.natAbs_neg, Int.cast_neg, neg_mul]

theorem signed_natCast (f : Format) (p : Nat) : f.signed p = f.magnitude p := by
  rw [signed, Int.natAbs_natCast]
  rcases Nat.eq_zero_or_pos p with rfl | hp
  · rw [magnitude_zero, mul_zero]
  · rw [Int.sign_eq_one_of_pos (Int.natCast_pos.mpr hp), Int.cast_one, one_mul]

/-- With signs too. -/
theorem signed_lt_signed (f : Format) {r s : Int} : f.signed r < f.signed s ↔ r < s := by
  have hstep (p : Nat) : f.magnitude p < f.magnitude (p + 1) := f.magnitude_strictMono p.lt_succ_self
  have hmono : StrictMono f.signed := by
    refine strictMono_int_of_lt_succ fun r => ?_
    cases r with
    | ofNat p =>
        show f.signed p < f.signed (p + 1 : Nat)
        rw [signed_natCast, signed_natCast]
        exact hstep p
    | negSucc p =>
        -- below zero, one more is one step back towards it
        have hnext : Int.negSucc p + 1 = -(p : Int) := by omega
        have hself : Int.negSucc p = -((p + 1 : Nat) : Int) := rfl
        rw [hnext, hself, signed_neg, signed_neg, signed_natCast, signed_natCast]
        exact neg_lt_neg (hstep p)
  exact hmono.lt_iff_lt

theorem infinity_lt (f : Format) : f.infinity < 2 ^ f.patternBits := by
  unfold infinity patternBits
  rw [Nat.pow_add]
  exact Nat.mul_lt_mul_of_pos_right (Nat.sub_lt (Nat.two_pow_pos _) Nat.one_pos) (Nat.two_pow_pos _)

theorem quotient_mul (f : Format) {num den : Nat} (hden : 0 < den) :
    f.quotient num den * 2 ^ f.unitExponent * den = num := by
  have hd : (den : ℚ) ≠ 0 := by exact_mod_cast Nat.ne_of_gt hden
  unfold quotient
  field_simp

end Format

/-! ## Rounded numbers -/

namespace Binary

variable {f : Format}

/-- The number without its sign. It says nothing of what is not finite. -/
def magnitude (x : Binary f) : ℚ := f.magnitude x.pattern

theorem pattern_ofRatio (negative : Bool) {num den : Nat} (h : f.nearest num den < f.infinity) :
    ((ofRatio f negative num den).pattern : Nat) = f.nearest num den :=
  Nat.mod_eq_of_lt (Nat.lt_trans h f.infinity_lt)

/-- **The error of a rounded number** is at most half of its last bit. -/
theorem ofRatio_error (negative : Bool) {num den : Nat} (bound : Nat) {r : ℚ} (hr : f.quotient num den = r)
    (hden : 0 < den) (hlo : 2 ^ f.fractionBits ≤ r * 2 ^ f.unitExponent)
    (hhi : r * 2 ^ f.unitExponent < 2 ^ (f.fractionBits + bound)) (hbound : bound + 3 ≤ 2 ^ f.exponentBits) :
    (ofRatio f negative num den).isFinite = true ∧
      |(ofRatio f negative num den).magnitude - r| ≤ r / 2 ^ (f.fractionBits + 1) := by
  have hd : (0 : ℚ) < den := by exact_mod_cast hden
  have ht : (0 : ℚ) < 2 ^ f.unitExponent := by positivity
  have hnum : r * 2 ^ f.unitExponent * den = num := hr ▸ f.quotient_mul hden
  have hmin : 2 ^ f.fractionBits * den ≤ num := by
    have h : ((2 ^ f.fractionBits * den : Nat) : ℚ) ≤ num := by
      rw [← hnum]
      push_cast
      exact mul_le_mul_of_nonneg_right hlo hd.le
    exact_mod_cast h
  have hmax : num < 2 ^ (f.fractionBits + bound) * den := by
    have h : (num : ℚ) < ((2 ^ (f.fractionBits + bound) * den : Nat) : ℚ) := by
      rw [← hnum]
      push_cast
      exact mul_lt_mul_of_pos_right hhi hd
    exact_mod_cast h
  obtain ⟨hfin, hup, hdown⟩ := Format.nearest_error hden hmin hmax hbound
  have hpattern := pattern_ofRatio negative hfin
  refine ⟨?_, ?_⟩
  · unfold isFinite
    rw [hpattern]
    exact decide_eq_true hfin
  -- the two inequalities between units are the two sides of the error
  · have hmag : (f.units (f.nearest num den) : ℚ) =
        (ofRatio f negative num den).magnitude * 2 ^ f.unitExponent := by
      unfold magnitude
      rw [hpattern]
      exact f.units_eq_magnitude_mul _
    generalize (ofRatio f negative num den).magnitude = m at hmag
    have hup' : (2 * 2 ^ f.fractionBits * (f.units (f.nearest num den) * den) : ℚ) ≤
        (2 * 2 ^ f.fractionBits + 1) * num := by exact_mod_cast hup
    have hdown' : (2 * 2 ^ f.fractionBits * num : ℚ) ≤
        2 * 2 ^ f.fractionBits * (f.units (f.nearest num den) * den) + num := by exact_mod_cast hdown
    rw [hmag, ← hnum] at hup' hdown'
    have hscale : (0 : ℚ) < 2 ^ f.unitExponent * den := by positivity
    have hbits : (0 : ℚ) < 2 ^ (f.fractionBits + 1) := by positivity
    have hle : (m - r) * 2 ^ (f.fractionBits + 1) ≤ r := by
      refine le_of_mul_le_mul_right ?_ hscale
      rw [pow_succ]
      linarith
    have hge : -r ≤ (m - r) * 2 ^ (f.fractionBits + 1) := by
      refine le_of_mul_le_mul_right ?_ hscale
      rw [pow_succ]
      linarith
    rw [abs_le, le_div_iff₀ hbits, ← neg_div, div_le_iff₀ hbits]
    exact ⟨hge, hle⟩

/-- A number that has few enough bits is not changed by rounding. -/
theorem magnitude_ofRatio_of_few_bits (negative : Bool) {num den m j : Nat} (hden : 0 < den)
    (hnum : num = m * 2 ^ j * den) (hm : m < 2 * 2 ^ f.fractionBits) (bound : Nat)
    (hlt : m * 2 ^ j < 2 ^ (f.fractionBits + bound)) (hbound : bound + 3 ≤ 2 ^ f.exponentBits) :
    (ofRatio f negative num den).isFinite = true ∧
      (ofRatio f negative num den).magnitude = f.quotient num den := by
  subst hnum
  obtain ⟨hfin, hunits⟩ := Format.units_nearest bound hden hm hlt hbound
  have hpattern := pattern_ofRatio negative hfin
  have hd : (den : ℚ) ≠ 0 := by exact_mod_cast Nat.ne_of_gt hden
  refine ⟨?_, ?_⟩
  · unfold isFinite
    rw [hpattern]
    exact decide_eq_true hfin
  · unfold magnitude Format.magnitude Format.quotient
    rw [hpattern, hunits]
    push_cast
    field_simp

/-! ## The order of numbers -/

/-- The number with its sign. It says nothing of what is not finite. -/
def value (x : Binary f) : ℚ := if x.negative then -x.magnitude else x.magnitude

theorem value_eq_signed (x : Binary f) : x.value = f.signed x.rank := by
  unfold value rank
  cases x.negative with
  | false => exact (f.signed_natCast _).symm
  | true =>
      simp only [if_true]
      rw [Format.signed_neg, Format.signed_natCast]
      rfl

/-- **Finite numbers are compared by their values.** -/
theorem lt_iff_value_lt {x y : Binary f} (hx : x.isFinite = true) (hy : y.isFinite = true) :
    x.lt y = true ↔ x.value < y.value := by
  have hrank : x.lt y = true ↔ x.rank < y.rank := by
    simp [lt, isNaN_eq_false_of_isFinite hx, isNaN_eq_false_of_isFinite hy]
  rw [hrank, value_eq_signed, value_eq_signed, f.signed_lt_signed]

/-! ## Zeros, opposites and signs -/

theorem value_of_isZero {x : Binary f} (h : x.isZero = true) : x.value = 0 := by
  have hpattern : (x.pattern : Nat) = 0 := by
    unfold isZero at h
    exact beq_iff_eq.mp h
  unfold value magnitude
  rw [hpattern, Format.magnitude_zero, neg_zero, ite_self]

end Binary

end GateGraph
