import Mathlib.Data.Nat.Prime.Basic
import GateGraph.Binary.Reading
import GateGraph.Proofs.Binary.Magnitude

/-!
# `GateGraph.Proofs.Binary.Reading` — how far off a numeral is read

A numeral with no more than fifteen digits or so is read with two rounded operations: the power of ten is
rounded, and then the product or the quotient. Each of them is off by at most half of a last bit of 64 bits.
Where the numeral stands for a number of few bits, both are exact.

## Contents
- `Ordinary`, numbers far from both ends of the range; `ofRatio_error_double` and `ofRatio_exact_double`,
  rounding of such numbers.
- `powerOfTen_error`, `powerOfTen_exact`, and the two operations: `mul_error`, `div_error`.
- `mul_near`, `div_near`, `mul_exact`, `div_exact`: significand and power of ten together.
- `Numeral.exists_double?`: the number that is read is off by at most `2 ^ -51` of itself, and not at all where
  few bits are enough for it.
-/

namespace GateGraph

-- powers of whole numbers are the built-in ones, whatever is imported beside this module
attribute [local instance (2000)] instPowNat

namespace Binary

/-! ## Rounding to 64 bits -/

/-- A number far from the smallest and from the largest 64-bit numbers. -/
def Ordinary (r : ℚ) : Prop := 1 ≤ r * 10 ^ 120 ∧ r ≤ 10 ^ 120

theorem ten_pow_le_two_pow (n : Nat) : (10 : ℚ) ^ n ≤ 2 ^ (4 * n) := by
  rw [pow_mul]
  exact pow_le_pow_left₀ (by norm_num) (by norm_num) n

variable {num den : Nat} {r : ℚ}

theorem ofRatio_error_double (negative : Bool) (hden : 0 < den) (hr : Format.double.quotient num den = r)
    (h : Ordinary r) : (ofRatio .double negative num den).isFinite = true ∧
      |(ofRatio .double negative num den).magnitude - r| ≤ r / 2 ^ 53 := by
  obtain ⟨hlo, hhi⟩ := h
  have hpos : 0 < r := (pos_iff_pos_of_mul_pos (one_pos.trans_le hlo)).mpr (by positivity)
  have hten := ten_pow_le_two_pow 120
  refine ofRatio_error (f := .double) negative 1800 hr hden ?_ ?_ (by decide)
  · calc (2 : ℚ) ^ 52 ≤ 2 ^ 52 * (r * 10 ^ 120) := le_mul_of_one_le_right (by positivity) hlo
      _ ≤ 2 ^ 52 * (r * 2 ^ (4 * 120)) := by gcongr
      _ = r * 2 ^ (52 + 4 * 120) := by rw [pow_add, mul_left_comm]
      _ ≤ r * 2 ^ Format.double.unitExponent :=
          mul_le_mul_of_nonneg_left (pow_le_pow_right₀ (by norm_num) (by decide)) hpos.le
  · calc r * 2 ^ Format.double.unitExponent ≤ 2 ^ (4 * 120) * 2 ^ Format.double.unitExponent := by
          gcongr
          exact hhi.trans hten
      _ = 2 ^ (4 * 120 + Format.double.unitExponent) := (pow_add _ _ _).symm
      _ < 2 ^ (Format.double.fractionBits + 1800) := pow_lt_pow_right₀ (by norm_num) (by decide)

/-- A number of at most 53 bits is not rounded. -/
theorem ofRatio_exact_double (negative : Bool) (hden : 0 < den) (hr : Format.double.quotient num den = r)
    {m j : Nat} (hm : m < 2 ^ 53) (hj : j ≤ 700) (heq : r * 2 ^ 150 = m * 2 ^ j) :
    (ofRatio .double negative num den).isFinite = true ∧
      (ofRatio .double negative num den).magnitude = r := by
  have hsplit : Format.double.unitExponent = 150 + 924 := rfl
  have hnum : num = m * 2 ^ (j + 924) * den := by
    have hq : Format.double.quotient num den * 2 ^ Format.double.unitExponent * den = num :=
      Format.double.quotient_mul hden
    rw [hr, hsplit, pow_add, ← mul_assoc, heq] at hq
    have hcast : ((m * 2 ^ (j + 924) * den : Nat) : ℚ) = num := by
      rw [← hq]
      push_cast
      rw [pow_add, ← mul_assoc]
    exact_mod_cast hcast.symm
  have hlt : m * 2 ^ (j + 924) < 2 ^ (Format.double.fractionBits + 1700) := by
    calc m * 2 ^ (j + 924) < 2 ^ 53 * 2 ^ (j + 924) := Nat.mul_lt_mul_of_pos_right hm (Nat.two_pow_pos _)
      _ = 2 ^ (53 + (j + 924)) := (Nat.pow_add _ _ _).symm
      _ ≤ 2 ^ (Format.double.fractionBits + 1700) := Nat.pow_le_pow_right (by decide) (by
          rw [fractionBits_double]
          omega)
  obtain ⟨hfin, hexact⟩ := magnitude_ofRatio_of_few_bits (f := .double) negative hden hnum hm 1700 hlt
    (by decide)
  exact ⟨hfin, hexact.trans hr⟩

/-! ## The two operations -/

theorem quotient_mul_units (x y : Binary64) :
    Format.double.quotient (x.units * y.units) (2 ^ Format.double.unitExponent) =
      x.magnitude * y.magnitude := by
  unfold Format.quotient magnitude Format.magnitude units
  push_cast
  field_simp

theorem quotient_div_units (x y : Binary64) :
    Format.double.quotient (x.units * 2 ^ Format.double.unitExponent) y.units = x.magnitude / y.magnitude := by
  unfold Format.quotient magnitude Format.magnitude units
  push_cast
  field_simp

theorem units_pos_of_magnitude_pos {f : Format} {x : Binary f} (h : 0 < x.magnitude) : 0 < x.units := by
  rcases Nat.eq_zero_or_pos x.units with hzero | hpos
  · unfold magnitude Format.magnitude at h
    unfold units at hzero
    rw [hzero] at h
    simp at h
  · exact hpos

/-- The product of two numbers, rounded. -/
theorem mul_error {x y : Binary64} (h : Ordinary (x.magnitude * y.magnitude)) :
    (x.mul y).isFinite = true ∧
      |(x.mul y).magnitude - x.magnitude * y.magnitude| ≤ x.magnitude * y.magnitude / 2 ^ 53 :=
  ofRatio_error_double _ (Nat.two_pow_pos _) (quotient_mul_units x y) h

/-- The quotient of two numbers, rounded. -/
theorem div_error {x y : Binary64} (hy : 0 < y.magnitude) (h : Ordinary (x.magnitude / y.magnitude)) :
    (x.div y).isFinite = true ∧
      |(x.div y).magnitude - x.magnitude / y.magnitude| ≤ x.magnitude / y.magnitude / 2 ^ 53 :=
  ofRatio_error_double _ (units_pos_of_magnitude_pos hy) (quotient_div_units x y) h

theorem quotient_ofNat (n : Nat) : Format.double.quotient (n * 2 ^ Format.double.unitExponent) 1 = n := by
  unfold Format.quotient
  push_cast
  field_simp

/-- A natural number of at most 53 bits is a 64-bit number. -/
theorem ofNat_exact {n : Nat} (m j : Nat) (hm : m < 2 ^ 53) (hj : j ≤ 500) (heq : n = m * 2 ^ j) :
    (ofNat .double n).isFinite = true ∧ (ofNat .double n).magnitude = n := by
  refine ofRatio_exact_double false Nat.one_pos (quotient_ofNat n) hm (j := j + 150) (by omega) ?_
  rw [heq, pow_add, ← mul_assoc]
  push_cast
  rfl

end Binary

namespace Numeral

open Binary (Ordinary)

/-! ## Powers of ten -/

theorem powerOfTen_error {k : Nat} (hk : k ≤ 120) :
    (powerOfTen k).isFinite = true ∧ |(powerOfTen k).magnitude - 10 ^ k| ≤ 10 ^ k / 2 ^ 53 := by
  have hquotient := Binary.quotient_ofNat (10 ^ k)
  push_cast at hquotient
  refine Binary.ofRatio_error_double false Nat.one_pos hquotient ⟨?_, ?_⟩
  · have hone : (1 : ℚ) ≤ 10 ^ k := one_le_pow₀ (by norm_num)
    exact hone.trans (le_mul_of_one_le_right (by positivity) (by norm_num))
  · exact pow_le_pow_right₀ (by norm_num) hk

/-- The first powers of ten are 64-bit numbers. -/
theorem powerOfTen_exact {k : Nat} (hk : k ≤ 22) :
    (powerOfTen k).isFinite = true ∧ (powerOfTen k).magnitude = 10 ^ k := by
  have hfive : 5 ^ k < 2 ^ 53 := (Nat.pow_le_pow_right (by decide) hk).trans_lt (by decide)
  have hten : 10 ^ k = 5 ^ k * 2 ^ k := by rw [← Nat.mul_pow]
  obtain ⟨hfin, hexact⟩ := Binary.ofNat_exact (5 ^ k) k hfive (by omega) hten
  push_cast at hexact
  exact ⟨hfin, hexact⟩

/-! ## Significand and power of ten together -/

variable {s k : Nat}

/-- A significand of at most 53 bits is not rounded. -/
theorem significand_exact (hs : s < 2 ^ 53) :
    (Binary.ofNat .double s).isFinite = true ∧ (Binary.ofNat .double s).magnitude = s :=
  Binary.ofNat_exact s 0 hs (by decide) (by rw [Nat.pow_zero, Nat.mul_one])

/-- A power of ten is a part of a shifted number of 53 bits only when it is one of the first ones: its power of
    five divides the number itself. -/
theorem le_of_ten_pow_dvd {m j k : Nat} (hpos : 0 < m) (hm : m < 2 ^ 53) (h : 10 ^ k ∣ m * 2 ^ j) : k ≤ 22 := by
  have hfive : 5 ^ k ∣ m * 2 ^ j := (pow_dvd_pow_of_dvd (by decide) k).trans h
  have hle : 5 ^ k ≤ m := Nat.le_of_dvd hpos ((Nat.Coprime.pow k j (by decide)).dvd_of_dvd_mul_right hfive)
  by_contra hlarge
  have := Nat.pow_le_pow_right (n := 5) (by decide) (Nat.not_le.mp hlarge)
  omega

variable {d y r : ℚ}

/-- What is near a number far from both ends of the range is so, too. -/
theorem ordinary_of_near (hlo : 1 ≤ d * 10 ^ 100) (hhi : d ≤ 10 ^ 100) (h : |r - d| ≤ d / 2 ^ 52) :
    Ordinary r := by
  obtain ⟨hmin, hmax⟩ := abs_le.mp h
  constructor <;> norm_num at * <;> linarith

/-- Two errors, one after the other. -/
theorem near_of_errors (hd : 0 < d) (h : |r - d| ≤ d / 2 ^ 52) (hround : |y - r| ≤ r / 2 ^ 53) :
    |y - d| * 2 ^ 51 ≤ d := by
  obtain ⟨hmin, hmax⟩ := abs_le.mp h
  obtain ⟨hmin', hmax'⟩ := abs_le.mp hround
  rw [← le_div_iff₀ (by positivity), abs_le]
  constructor <;> norm_num at * <;> linarith

theorem mul_near (hs : s < 2 ^ 53) (hk : k ≤ 120) (hd : d = s * 10 ^ k)
    (hlo : 1 ≤ d * 10 ^ 100) (hhi : d ≤ 10 ^ 100) :
    ((Binary.ofNat .double s).mul (powerOfTen k)).isFinite = true ∧
      |((Binary.ofNat .double s).mul (powerOfTen k)).magnitude - d| * 2 ^ 51 ≤ d := by
  obtain ⟨-, hsig⟩ := significand_exact hs
  obtain ⟨-, hpower⟩ := powerOfTen_error hk
  have hpos : 0 < d := (pos_iff_pos_of_mul_pos (one_pos.trans_le hlo)).mpr (by positivity)
  -- the error of the power, taken `s` times
  have hproduct : |(Binary.ofNat .double s).magnitude * (powerOfTen k).magnitude - d| ≤ d / 2 ^ 52 := by
    calc |(Binary.ofNat .double s).magnitude * (powerOfTen k).magnitude - d|
        = s * |(powerOfTen k).magnitude - 10 ^ k| := by
          rw [hsig, hd, ← mul_sub, abs_mul, abs_of_nonneg (Nat.cast_nonneg s)]
      _ ≤ s * (10 ^ k / 2 ^ 53) := mul_le_mul_of_nonneg_left hpower (Nat.cast_nonneg s)
      _ = d / 2 ^ 53 := by rw [hd, mul_div_assoc]
      _ ≤ d / 2 ^ 52 := div_le_div_of_nonneg_left hpos.le (by norm_num) (by norm_num)
  obtain ⟨hfin, herror⟩ := Binary.mul_error (ordinary_of_near hlo hhi hproduct)
  exact ⟨hfin, near_of_errors hpos hproduct herror⟩

theorem div_near (hs : s < 2 ^ 53) (hk : k ≤ 120) (hd : d * 10 ^ k = s)
    (hlo : 1 ≤ d * 10 ^ 100) (hhi : d ≤ 10 ^ 100) :
    ((Binary.ofNat .double s).div (powerOfTen k)).isFinite = true ∧
      |((Binary.ofNat .double s).div (powerOfTen k)).magnitude - d| * 2 ^ 51 ≤ d := by
  obtain ⟨-, hsig⟩ := significand_exact hs
  obtain ⟨-, hpower⟩ := powerOfTen_error hk
  have hpos : 0 < d := (pos_iff_pos_of_mul_pos (one_pos.trans_le hlo)).mpr (by positivity)
  have hten : (0 : ℚ) < 10 ^ k := by positivity
  obtain ⟨hpmin, hpmax⟩ := abs_le.mp hpower
  have hpow : 0 < (powerOfTen k).magnitude := by
    norm_num at hpmin
    linarith
  -- the quotient by the rounded power is off by as much as the power, about
  have hquotient : |(Binary.ofNat .double s).magnitude / (powerOfTen k).magnitude - d| ≤ d / 2 ^ 52 := by
    have hratio : |(10 ^ k - (powerOfTen k).magnitude) / (powerOfTen k).magnitude| ≤ 1 / 2 ^ 52 := by
      rw [abs_div, abs_of_pos hpow, div_le_iff₀ hpow, abs_sub_comm]
      refine hpower.trans ?_
      norm_num at hpmin ⊢
      linarith
    have hsplit : (Binary.ofNat .double s).magnitude / (powerOfTen k).magnitude - d =
        d * ((10 ^ k - (powerOfTen k).magnitude) / (powerOfTen k).magnitude) := by
      rw [hsig, ← hd]
      field_simp
    rw [hsplit, abs_mul, abs_of_pos hpos, div_eq_mul_one_div d]
    exact mul_le_mul_of_nonneg_left hratio hpos.le
  obtain ⟨hfin, herror⟩ := Binary.div_error hpow (ordinary_of_near hlo hhi hquotient)
  exact ⟨hfin, near_of_errors hpos hquotient herror⟩

theorem mul_exact (hs : s < 2 ^ 53) (hpos : 0 < s) {m j : Nat} (hm : m < 2 ^ 25) (hj : j ≤ 500)
    (heq : (s * 10 ^ k : ℚ) * 2 ^ 150 = m * 2 ^ j) :
    ((Binary.ofNat .double s).mul (powerOfTen k)).magnitude = s * 10 ^ k := by
  -- the power of ten is a part of the few bits
  have hfew : k ≤ 22 := by
    have hcast : s * 10 ^ k * 2 ^ 150 = m * 2 ^ j := by exact_mod_cast heq
    have hm0 : 0 < m := by
      refine Nat.pos_of_mul_pos_right (b := 2 ^ j) ?_
      rw [← hcast]
      positivity
    refine le_of_ten_pow_dvd (j := j) hm0 (by omega) ?_
    rw [← hcast]
    exact (Dvd.intro_left s rfl).mul_right (2 ^ 150)
  obtain ⟨-, hsig⟩ := significand_exact hs
  obtain ⟨-, hpower⟩ := powerOfTen_exact hfew
  have hquotient := Binary.quotient_mul_units (Binary.ofNat .double s) (powerOfTen k)
  rw [hsig, hpower] at hquotient
  exact (Binary.ofRatio_exact_double _ (Nat.two_pow_pos _) hquotient (by omega) (by omega) heq).2

theorem div_exact (hs : s < 2 ^ 53) (hpos : 0 < s) {m j : Nat} (hm : m < 2 ^ 25) (hj : j ≤ 500)
    (heq : (s / 10 ^ k : ℚ) * 2 ^ 150 = m * 2 ^ j) :
    ((Binary.ofNat .double s).div (powerOfTen k)).magnitude = s / 10 ^ k := by
  -- the power of ten is a part of the significand
  have hfew : k ≤ 22 := by
    have hten : (0 : ℚ) < 10 ^ k := by positivity
    have hcast : s * 2 ^ 150 = m * 2 ^ j * 10 ^ k := by
      rw [div_mul_eq_mul_div, div_eq_iff hten.ne'] at heq
      exact_mod_cast heq
    exact le_of_ten_pow_dvd hpos hs (Dvd.intro_left _ hcast.symm)
  obtain ⟨-, hsig⟩ := significand_exact hs
  obtain ⟨-, hpower⟩ := powerOfTen_exact hfew
  have hpow : 0 < (powerOfTen k).magnitude := by
    rw [hpower]
    positivity
  have hquotient := Binary.quotient_div_units (Binary.ofNat .double s) (powerOfTen k)
  rw [hsig, hpower] at hquotient
  exact (Binary.ofRatio_exact_double _ (Binary.units_pos_of_magnitude_pos hpow) hquotient (by omega)
    (by omega) heq).2

/-! ## Reading -/

variable {n : Numeral}

theorem double?_of_scale_nonneg (hs : 0 < n.significand) (hexact : n.significand < 2 ^ 53)
    (hk : n.scale = k) (hle : k ≤ 308)
    (hfin : ((Binary.ofNat .double n.significand).mul (powerOfTen k)).isFinite = true) :
    n.double? = some (n.signed ((Binary.ofNat .double n.significand).mul (powerOfTen k))) := by
  have hzero : (Binary.ofNat .double n.significand).isZero = false := by
    obtain ⟨-, hsig⟩ := significand_exact hexact
    have hunits := Binary.units_pos_of_magnitude_pos (hsig ▸ Nat.cast_pos.mpr hs)
    refine Bool.eq_false_iff.mpr fun htrue => Nat.ne_of_gt hunits ?_
    rw [Binary.units, beq_iff_eq.mp htrue]
    rfl
  unfold double?
  simp only [hk, Int.natCast_nonneg, if_true, Int.toNat_natCast, multiplyByPower?, hzero,
    Bool.false_eq_true, if_false, greatestPower, Nat.not_lt.mpr hle, hfin, Option.map_some]

theorem double?_of_scale_neg (hk : n.scale = -k) (hpos : 0 < k) (hle : k ≤ 308) :
    n.double? = some (n.signed ((Binary.ofNat .double n.significand).div (powerOfTen k))) := by
  have hneg : ¬(0 : Int) ≤ -k := by omega
  have hsteps : (k - 1) / greatestPower = 0 := Nat.div_eq_of_lt (by unfold greatestPower; omega)
  unfold double?
  simp only [hk, hneg, if_false, neg_neg, Int.toNat_natCast, divideByPower, hsteps, lower, Nat.mul_zero,
    Nat.sub_zero, Option.map_some]

/-- **How a numeral with few digits is read**: off by at most `2 ^ -51` of itself, and not off at all where
    25 bits are enough for it. -/
theorem exists_double? (hs : n.significand < 2 ^ 53) (hd : d = n.significand * 10 ^ n.scale)
    (hleast : -100 ≤ n.scale) (hmost : n.scale ≤ 100) (hlo : 1 ≤ d * 10 ^ 100) (hhi : d ≤ 10 ^ 100) :
    ∃ y : Binary64, n.double? = some (n.signed y) ∧ y.isFinite = true ∧ |y.magnitude - d| * 2 ^ 51 ≤ d ∧
      ∀ m j : Nat, m < 2 ^ 25 → j ≤ 500 → d * 2 ^ 150 = m * 2 ^ j → y.magnitude = d := by
  have hpos : 0 < n.significand := by
    refine Nat.pos_of_ne_zero fun hzero => ?_
    rw [hd, hzero] at hlo
    norm_num at hlo
  rcases lt_or_ge n.scale 0 with hneg | hnonneg
  · obtain ⟨k, hk⟩ : ∃ k : Nat, n.scale = -k := ⟨n.scale.natAbs, by omega⟩
    rw [hk, zpow_neg, zpow_natCast, ← div_eq_mul_inv] at hd
    have hten : d * 10 ^ k = n.significand := by
      rw [hd]
      field_simp
    obtain ⟨hfin, hnear⟩ := div_near hs (by omega) hten hlo hhi
    refine ⟨_, double?_of_scale_neg hk (by omega) (by omega), hfin, hnear, fun m j hm hj heq => ?_⟩
    rw [hd] at heq ⊢
    exact div_exact hs hpos hm hj heq
  · obtain ⟨k, hk⟩ := Int.eq_ofNat_of_zero_le hnonneg
    rw [hk, zpow_natCast] at hd
    obtain ⟨hfin, hnear⟩ := mul_near hs (by omega) hd hlo hhi
    refine ⟨_, double?_of_scale_nonneg hpos hs hk (by omega) hfin, hfin, hnear, fun m j hm hj heq => ?_⟩
    rw [hd] at heq ⊢
    exact mul_exact hs hpos hm hj heq

end Numeral

end GateGraph
