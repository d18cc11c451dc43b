import GateGraph.Binary.Basic

/-!
# `GateGraph.Binary.Exact` — numbers that rounding keeps

A magnitude of a format is the nearest magnitude of that format to itself, and a number that has few enough
bits for a finer format is a magnitude of that one too. So a 32-bit number can be widened to 64 bits and
narrowed again without a change.

## Contents
- `Format.nearest_units`: rounding keeps the magnitudes of its own format.
- `Format.units_nearest`: rounding keeps every whole number of units with few enough bits.
- `Binary.cast_cast`: widening followed by narrowing.
-/

namespace GateGraph

-- powers of whole numbers are the built-in ones, whatever is imported beside this module
attribute [local instance (2000)] instPowNat

namespace Format

variable {f : Format}

/-! ## Fields of a pattern -/

/-- A pattern below the hidden bit counts units itself. -/
theorem units_of_lt {p : Nat} (h : p < 2 ^ f.fractionBits) : f.units p = p := by
  simp [units, Nat.div_eq_of_lt h, Nat.mod_eq_of_lt h]

/-- A pattern with exponent field `k + 1`: the fraction with its hidden bit, shifted by `k`. -/
theorem units_succ {k q : Nat} (hlo : 2 ^ f.fractionBits ≤ q) (hhi : q < 2 * 2 ^ f.fractionBits) :
    f.units (k * 2 ^ f.fractionBits + q) = q * 2 ^ k := by
  obtain ⟨r, rfl⟩ := Nat.exists_eq_add_of_le hlo
  have hr : r < 2 ^ f.fractionBits := by omega
  have hp : k * 2 ^ f.fractionBits + (2 ^ f.fractionBits + r) = r + 2 ^ f.fractionBits * (k + 1) := by
    rw [Nat.mul_succ, Nat.mul_comm]
    omega
  have hdiv : (r + 2 ^ f.fractionBits * (k + 1)) / 2 ^ f.fractionBits = k + 1 := by
    rw [Nat.add_mul_div_left _ _ (Nat.two_pow_pos _), Nat.div_eq_of_lt hr, Nat.zero_add]
  have hmod : (r + 2 ^ f.fractionBits * (k + 1)) % 2 ^ f.fractionBits = r := by
    rw [Nat.add_mul_mod_self_left, Nat.mod_eq_of_lt hr]
  simp [units, hp, hdiv, hmod]

/-- Every pattern is of one of these two kinds. -/
theorem pattern_cases (f : Format) (p : Nat) :
    p < 2 ^ f.fractionBits ∨
      ∃ k q, 2 ^ f.fractionBits ≤ q ∧ q < 2 * 2 ^ f.fractionBits ∧ p = k * 2 ^ f.fractionBits + q := by
  rcases Nat.lt_or_ge p (2 ^ f.fractionBits) with h | h
  · exact Or.inl h
  · have hpos := Nat.two_pow_pos f.fractionBits
    have hmod := Nat.mod_lt p hpos
    have hsplit := Nat.div_add_mod p (2 ^ f.fractionBits)
    obtain ⟨k, hk⟩ : ∃ k, p / 2 ^ f.fractionBits = k + 1 :=
      ⟨p / 2 ^ f.fractionBits - 1, by
        have := Nat.div_pos h hpos
        omega⟩
    refine Or.inr ⟨k, 2 ^ f.fractionBits + p % 2 ^ f.fractionBits, Nat.le_add_right _ _, ?_, ?_⟩
    · omega
    · rw [hk, Nat.mul_succ, Nat.mul_comm] at hsplit
      omega

/-! ## Rounding keeps what it can -/

/-- A whole number of units is a number `q` of at most `precision` bits that has been shifted by `k`, and
    `k` is zero unless `q` has all of them. Then rounding finds its pattern. -/
theorem nearest_shifted {k q den : Nat} (hden : 0 < den) (hhi : q < 2 * 2 ^ f.fractionBits)
    (hlo : k = 0 ∨ 2 ^ f.fractionBits ≤ q) :
    f.nearest (q * 2 ^ k * den) den = min f.infinity (k * 2 ^ f.fractionBits + q) := by
  have hexcess : (q * 2 ^ k).log2 - f.fractionBits = k := by
    rcases hlo with rfl | hlo
    · have hlog : q.log2 ≤ f.fractionBits := by
        rcases Nat.eq_zero_or_pos q with rfl | hq
        · simp
        · have h : q < 2 ^ (f.fractionBits + 1) := by rwa [Nat.pow_succ, Nat.mul_comm]
          exact Nat.le_of_lt_succ ((Nat.log2_lt (Nat.ne_of_gt hq)).mpr h)
      simpa using Nat.sub_eq_zero_of_le hlog
    · have hq : q ≠ 0 := Nat.ne_of_gt (Nat.lt_of_lt_of_le (Nat.two_pow_pos _) hlo)
      have hlog : (q * 2 ^ k).log2 = f.fractionBits + k := by
        rw [Nat.log2_eq_iff (Nat.mul_ne_zero hq (Nat.ne_of_gt (Nat.two_pow_pos k)))]
        constructor
        · rw [Nat.pow_add]
          exact Nat.mul_le_mul_right _ hlo
        · rw [Nat.pow_succ, Nat.pow_add, Nat.mul_right_comm, Nat.mul_comm (2 ^ f.fractionBits) 2]
          exact Nat.mul_lt_mul_of_pos_right hhi (Nat.two_pow_pos k)
      omega
  have hround : halfEven (q * 2 ^ k * den) (den * 2 ^ k) = q := by
    rw [Nat.mul_assoc, Nat.mul_comm (2 ^ k) den]
    exact halfEven_mul_right (Nat.mul_pos hden (Nat.two_pow_pos k))
  simp only [nearest, Nat.mul_div_cancel _ hden, hexcess, hround]

/-- The pattern nearest to a finite magnitude of the format is its own. -/
theorem nearest_units {p den : Nat} (hden : 0 < den) (hp : p < f.infinity) :
    f.nearest (f.units p * den) den = p := by
  rcases pattern_cases f p with h | ⟨k, q, hlo, hhi, rfl⟩
  · have := nearest_shifted (f := f) (k := 0) hden (q := p) (by omega) (Or.inl rfl)
    rw [units_of_lt h]
    simpa [Nat.min_eq_right (Nat.le_of_lt hp)] using this
  · rw [units_succ hlo hhi, nearest_shifted hden hhi (Or.inr hlo), Nat.min_eq_right (Nat.le_of_lt hp)]

/-- A number of at most `precision` bits that is shifted by any amount can be shifted so that `precision`
    bits are used up before the shift is more than zero. -/
theorem exists_shifted {m : Nat} (j : Nat) (hm : m < 2 * 2 ^ f.fractionBits) :
    ∃ k q : Nat, q < 2 * 2 ^ f.fractionBits ∧ (k = 0 ∨ 2 ^ f.fractionBits ≤ q) ∧ m * 2 ^ j = q * 2 ^ k := by
  induction j generalizing m with
  | zero => exact ⟨0, m, hm, Or.inl rfl, rfl⟩
  | succ j ih =>
      rcases Nat.lt_or_ge m (2 ^ f.fractionBits) with h | h
      · obtain ⟨k, q, hhi, hlo, heq⟩ := ih (m := m * 2) (by omega)
        refine ⟨k, q, hhi, hlo, ?_⟩
        rw [← heq, Nat.pow_succ, Nat.mul_assoc, Nat.mul_comm 2]
      · exact ⟨j + 1, m, hm, Or.inr h, rfl⟩

/-- Rounding keeps a number of at most `precision` bits, shifted by any amount, that lies clearly below the
    largest magnitude of the format. -/
theorem units_nearest (bound : Nat) {m j den : Nat} (hden : 0 < den) (hm : m < 2 * 2 ^ f.fractionBits)
    (hlt : m * 2 ^ j < 2 ^ (f.fractionBits + bound)) (hbound : bound + 3 ≤ 2 ^ f.exponentBits) :
    f.nearest (m * 2 ^ j * den) den < f.infinity ∧
      f.units (f.nearest (m * 2 ^ j * den) den) = m * 2 ^ j := by
  obtain ⟨k, q, hhi, hlo, heq⟩ := exists_shifted j hm
  rw [heq] at hlt ⊢
  rw [nearest_shifted hden hhi hlo]
  have hpos := Nat.two_pow_pos f.fractionBits
  have hk : k ≤ bound := by
    rcases hlo with rfl | hlo
    · exact Nat.zero_le _
    · have h : 2 ^ (f.fractionBits + k) < 2 ^ (f.fractionBits + bound) := by
        rw [Nat.pow_add]
        exact Nat.lt_of_le_of_lt (Nat.mul_le_mul_right _ hlo) hlt
      have := (Nat.pow_lt_pow_iff_right (by decide)).mp h
      omega
  have hfin : k * 2 ^ f.fractionBits + q < f.infinity := by
    have h : (k + 2) * 2 ^ f.fractionBits ≤ f.infinity := Nat.mul_le_mul_right _ (by omega)
    rw [Nat.add_mul] at h
    omega
  rw [Nat.min_eq_right (Nat.le_of_lt hfin)]
  refine ⟨hfin, ?_⟩
  rcases Nat.lt_or_ge q (2 ^ f.fractionBits) with h | h
  · obtain rfl : k = 0 := by omega
    simp [units_of_lt h]
  · exact units_succ h hhi

end Format

/-! ## From 32 to 64 bits and back -/

namespace Binary

theorem fractionBits_single : Format.single.fractionBits = 23 := rfl

theorem fractionBits_double : Format.double.fractionBits = 52 := rfl

/-- The unit of 64-bit numbers is `2 ^ 925` times smaller than that of 32-bit numbers. -/
theorem unitExponent_double : Format.double.unitExponent = 925 + Format.single.unitExponent := rfl

theorem infinity_single : Format.single.infinity = 255 * 2 ^ (23 : Nat) := rfl

/-- A shift by a sum is two shifts. -/
theorem shift_add (m i j : Nat) : m * 2 ^ (i + j) = m * 2 ^ i * 2 ^ j := by
  rw [Nat.pow_add, Nat.mul_assoc]

/-- A part of one shift can be moved to another one. -/
theorem shift_shift_add (m i j k : Nat) : m * 2 ^ i * 2 ^ (j + k) = m * 2 ^ (i + j) * 2 ^ k := by
  rw [shift_add, shift_add]

/-- The magnitude of a finite 32-bit number has at most 24 bits, shifted by less than 254. -/
theorem units_single (x : Binary32) (h : x.isFinite = true) :
    ∃ k q : Nat, q < 2 ^ (24 : Nat) ∧ k < 254 ∧ x.units = q * 2 ^ k := by
  have hfin : x.pattern.val < 255 * 2 ^ (23 : Nat) := by
    rw [← infinity_single]
    simpa [isFinite] using h
  rcases Format.pattern_cases .single x.pattern with hp | ⟨k, q, hlo, hhi, hp⟩
  · refine ⟨0, x.pattern, ?_, by decide, ?_⟩
    · exact Nat.lt_trans hp (by decide)
    · rw [units, Format.units_of_lt hp, Nat.pow_zero, Nat.mul_one]
  · refine ⟨k, q, hhi, ?_, ?_⟩
    · rw [fractionBits_single] at hp hlo
      omega
    · rw [units, hp, Format.units_succ hlo hhi]

/-- A finite number of another format, as a sign and a rounded magnitude. -/
theorem cast_of_isFinite {f : Format} (g : Format) {x : Binary f} (h : x.isFinite = true) :
    x.cast g = ofRatio g x.negative (x.units * 2 ^ g.unitExponent) (2 ^ f.unitExponent) := by
  simp [cast, h, isNaN_eq_false_of_isFinite h]

/-- A finite 32-bit number is a 64-bit number: the magnitude is the same, in smaller units. -/
theorem cast_double (x : Binary32) (h : x.isFinite = true) :
    (x.cast .double).isFinite = true ∧ (x.cast .double).negative = x.negative ∧
      (x.cast .double).units = x.units * 2 ^ (925 : Nat) := by
  obtain ⟨k, q, hq, hk, hunits⟩ := units_single x h
  have hlt : q * 2 ^ (k + 925) < 2 ^ (Format.double.fractionBits + 1150) := by
    calc q * 2 ^ (k + 925) < 2 ^ 24 * 2 ^ (k + 925) := Nat.mul_lt_mul_of_pos_right hq (Nat.two_pow_pos _)
      _ = 2 ^ (24 + (k + 925)) := (Nat.pow_add _ _ _).symm
      _ ≤ 2 ^ (Format.double.fractionBits + 1150) :=
          Nat.pow_le_pow_right (by decide) (by rw [fractionBits_double]; omega)
  obtain ⟨hfin, hexact⟩ := Format.units_nearest (f := .double) 1150
    (Nat.two_pow_pos Format.single.unitExponent) (Nat.lt_trans hq (by decide)) hlt (by decide)
  have hratio : x.units * 2 ^ Format.double.unitExponent =
      q * 2 ^ (k + 925) * 2 ^ Format.single.unitExponent := by
    rw [hunits, unitExponent_double]
    exact shift_shift_add q k 925 _
  have hpattern : ((x.cast .double).pattern : Nat) =
      Format.double.nearest (q * 2 ^ (k + 925) * 2 ^ Format.single.unitExponent)
        (2 ^ Format.single.unitExponent) := by
    rw [cast_of_isFinite _ h, ← hratio]
    refine Nat.mod_eq_of_lt (Nat.lt_trans ?_ (show Format.double.infinity < _ by decide))
    rw [← hratio] at hfin
    exact hfin
  refine ⟨?_, ?_, ?_⟩
  · simpa [isFinite, hpattern] using hfin
  · rw [cast_of_isFinite _ h]
    rfl
  · rw [units, hpattern, hexact, hunits]
    exact shift_add q k 925

/-- Widening a finite number to 64 bits and narrowing it again changes nothing. -/
theorem cast_cast (x : Binary32) (h : x.isFinite = true) : (x.cast .double).cast .single = x := by
  obtain ⟨hfin, hneg, hunits⟩ := cast_double x h
  have hp : (x.pattern : Nat) < Format.single.infinity := by simpa [isFinite] using h
  have hratio : (x.cast .double).units * 2 ^ Format.single.unitExponent =
      Format.single.units x.pattern * 2 ^ Format.double.unitExponent := by
    rw [hunits, units, unitExponent_double, Nat.pow_add, Nat.mul_assoc]
  have hpattern : Fin.ofNat (2 ^ Format.single.patternBits)
      (Format.single.nearest ((x.cast .double).units * 2 ^ Format.single.unitExponent)
        (2 ^ Format.double.unitExponent)) = x.pattern := by
    rw [hratio, Format.nearest_units (Nat.two_pow_pos _) hp]
    exact Fin.ofNat_val_eq_self _
  rw [cast_of_isFinite _ hfin, hneg]
  exact congrArg (Binary.mk x.negative) hpattern

end Binary

end GateGraph
