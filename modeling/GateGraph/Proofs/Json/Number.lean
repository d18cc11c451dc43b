import GateGraph.Json.Number
import GateGraph.Proofs.Binary.Midpoints
import GateGraph.Proofs.Binary.Reading
import GateGraph.Proofs.Binary.Text

/-!
# `GateGraph.Proofs.Json.Number` — 32-bit numbers in a text are read back

A 32-bit number is written with the fewest digits that tell it apart, which promises something to a reader who
finds the nearest 32-bit number. This reader does not: it goes by way of 64 bits, with up to three roundings.
The number is read back all the same. The rounding errors could only matter where the decimal is very near a
midpoint; there it has few digits, and a decimal with few digits either keeps away from the midpoints or is one
itself, and then nothing is rounded.

## Contents
- `reread?`, what the numeral of a 32-bit number reads back as.
- `cast_single_eq`: a 64-bit number between the midpoints is narrowed to the number between them.
- `encloses_of_near`: no rounding error carries the decimal past a midpoint.
- `reread?_eq`: every finite number is read back, bit for bit.
-/

namespace GateGraph.Json

-- powers of whole numbers are the built-in ones, whatever is imported beside this module
attribute [local instance (2000)] instPowNat

/-- The 32-bit number that the numeral of a 32-bit number reads back as. -/
def reread? (x : Binary32) : Option Binary32 :=
  (Number.ofNumeral? (singleStyle.numeral x)).map Number.single

/-! ## Numbers that are looked at one by one -/

/-- Both zeros are read back. -/
theorem reread?_zero (negative : Bool) : reread? ⟨negative, 0⟩ = some ⟨negative, 0⟩ := by
  cases negative <;> decide +kernel

/-- The numbers on both sides of the exceptional midpoints are read back. -/
theorem reread?_exception : ∀ km ∈ Binary.exceptions, ∀ side : Fin 2, ∀ negative : Bool,
    reread? ⟨negative, Fin.ofNat _ (km.1 * 2 ^ 23 + km.2 / 2 + side)⟩ =
      some ⟨negative, Fin.ofNat _ (km.1 * 2 ^ 23 + km.2 / 2 + side)⟩ := by
  decide +kernel

/-! ## Narrowing -/

/-- A 64-bit number between the midpoints around a 32-bit number is narrowed to that number. -/
theorem cast_single_eq {x : Binary32} {y : Binary64} (hx : x.isFinite = true) (hy : y.isFinite = true)
    (hsign : y.negative = x.negative) (h : Format.single.Encloses x.pattern y.magnitude) :
    y.cast .single = x := by
  have hp : x.pattern.val < Format.single.infinity := by simpa [Binary.isFinite] using hx
  have hquotient : Format.single.quotient (y.units * 2 ^ Format.single.unitExponent)
      (2 ^ Format.double.unitExponent) = y.magnitude := by
    unfold Format.quotient Binary.magnitude Format.magnitude Binary.units
    push_cast
    field_simp
  have hnearest := Format.nearest_of_encloses (f := .single) (by decide)
    (Nat.two_pow_pos Format.double.unitExponent) hp (hquotient ▸ h)
  rw [Binary.cast_of_isFinite _ hy]
  unfold Binary.ofRatio
  rw [hnearest, hsign]
  exact congrArg (Binary.mk x.negative) (Fin.ofNat_val_eq_self _)

/-! ## No error carries the decimal past a midpoint -/

section Near

variable {x : Binary32} {q : Int} {c : Nat} {y : ℚ}

/-- The decimal of a number is not so near a midpoint that an error of `2 ^ -51` matters, unless the midpoint
    is an exception or the decimal is the midpoint. -/
theorem exact_of_near (hw : x.Written q c) {p : Nat} (hp : p < Format.single.infinity)
    (hregular : ∀ km ∈ Binary.exceptions, p ≠ km.1 * 2 ^ 23 + km.2 / 2)
    (hedge : Format.single.above p = Format.single.below x.pattern ∨
      Format.single.above p = Format.single.above x.pattern)
    (hnear : |c * 10 ^ q - Format.single.above p| * 2 ^ 51 ≤ c * 10 ^ q) :
    ∃ m j : Nat, m < 2 ^ 25 ∧ j ≤ 500 ∧ (c * 10 ^ q : ℚ) * 2 ^ 150 = m * 2 ^ j := by
  have hfew := hw.few_digits _ hedge hnear
  rcases Binary.near_above hp hw.pos hfew hw.least hw.most hnear with heq | ⟨km, hmem, hexception⟩
  · obtain ⟨k, m, hk, -, hm, -, -, habove⟩ := Binary.exists_midpoint hp
    refine ⟨m, k, hm, by omega, ?_⟩
    rw [heq, habove]
    field_simp
  · exact absurd hexception (hregular km hmem)

/-- A number that differs from the decimal by a rounding error lies between the same midpoints as it. -/
theorem encloses_of_near (hw : x.Written q c) (hx : x.isFinite = true) (hpos : 0 < x.pattern.val)
    (hregular : ∀ km ∈ Binary.exceptions, x.pattern.val ≠ km.1 * 2 ^ 23 + km.2 / 2 ∧
      x.pattern.val - 1 ≠ km.1 * 2 ^ 23 + km.2 / 2)
    (hnear : |y - c * 10 ^ q| * 2 ^ 51 ≤ c * 10 ^ q)
    (hexact : ∀ m j : Nat, m < 2 ^ 25 → j ≤ 500 → (c * 10 ^ q : ℚ) * 2 ^ 150 = m * 2 ^ j → y = c * 10 ^ q) :
    Format.single.Encloses x.pattern y := by
  have hp : x.pattern.val < Format.single.infinity := by simpa [Binary.isFinite] using hx
  have hbelow : Format.single.above (x.pattern.val - 1) = Format.single.below x.pattern := by
    rw [← Format.below_succ, Nat.sub_add_cancel hpos]
  obtain ⟨hge, hle⟩ := hw.encloses.le
  by_contra hout
  have hside : y ≤ Format.single.below x.pattern ∨ Format.single.above x.pattern ≤ y := by
    by_contra hin
    push Not at hin
    exact hout (.of_lt hin.1 hin.2)
  -- beyond a midpoint, the error is at least the way to it
  obtain ⟨m, j, hm, hj, heq⟩ : ∃ m j : Nat, m < 2 ^ 25 ∧ j ≤ 500 ∧
      (c * 10 ^ q : ℚ) * 2 ^ 150 = m * 2 ^ j := by
    rcases hside with hside | hside
    · refine exact_of_near hw (by omega) (fun km hmem => (hregular km hmem).2) (Or.inl hbelow) ?_
      refine le_trans ?_ hnear
      rw [hbelow, abs_of_nonneg (by linarith), abs_of_nonpos (by linarith)]
      linarith
    · refine exact_of_near hw hp (fun km hmem => (hregular km hmem).1) (Or.inr rfl) ?_
      refine le_trans ?_ hnear
      rw [abs_of_nonpos (by linarith), abs_of_nonneg (by linarith)]
      linarith
  exact hout (hexact m j hm hj heq ▸ hw.encloses)

end Near

/-! ## What is written is read back -/

/-- The numeral of a 32-bit number other than zero. -/
theorem numeral_single {x : Binary32} {q : Int} {c : Nat} (hw : x.Written q c)
    (hshortest : x.shortest singleStyle.tie = Binary.scientific c q) :
    (singleStyle.numeral x).WellFormed ∧ (singleStyle.numeral x).isWhole = false ∧
      (singleStyle.numeral x).negative = x.negative ∧
      (singleStyle.numeral x).magnitude = c * 10 ^ q ∧
      Decimal.value ((singleStyle.numeral x).whole ++ (singleStyle.numeral x).fraction) < 2 ^ 53 := by
  have hnormal : (x.shortest singleStyle.tie).Normal := hshortest ▸ Binary.normal_scientific hw.pos q
  refine ⟨Style.wellFormed_numeral singleStyle x hnormal, Style.isWhole_numeral singleStyle x hnormal rfl,
    Style.negative_numeral singleStyle x, ?_, ?_⟩
  · rw [Style.magnitude_numeral singleStyle x hnormal, hshortest, Binary.magnitude_scientific]
  · have hdigits : Decimal.value (x.shortest singleStyle.tie).digits < 2 ^ 53 := by
      have hle := Binary.value_scientific_le c q
      rw [← hshortest] at hle
      have := hw.le
      omega
    unfold Style.numeral
    simp only
    split
    · next hplain =>
        have hmost : (x.shortest singleStyle.tie).exponent ≤ 12 :=
          of_decide_eq_true (Bool.and_eq_true_iff.mp hplain).2
        refine Style.value_positional_lt singleStyle _ hnormal hdigits ?_
        have hexponent : (x.shortest singleStyle.tie).exponent.toNat + 2 ≤ 14 := by omega
        exact (Nat.pow_le_pow_right (by decide) hexponent).trans (by decide)
    · simpa only [Style.exponential, List.take_append_drop] using hdigits

/-- The numeral of a finite 32-bit number is one of the grammar. -/
theorem wellFormed_numeral {x : Binary32} (hx : x.isFinite = true) : (singleStyle.numeral x).WellFormed := by
  obtain ⟨negative, pattern⟩ := x
  rcases Nat.eq_zero_or_pos pattern.val with hzero | hpos
  · obtain rfl : pattern = 0 := Fin.ext hzero
    have hnumeral : singleStyle.numeral (⟨negative, 0⟩ : Binary32) = ⟨negative, ['0'], ['0'], none⟩ := by
      cases negative <;> decide
    rw [hnumeral]
    constructor <;> simp
  · obtain ⟨q, c, hshortest, hw⟩ := Binary.exists_written singleStyle.tie hx hpos
    exact (numeral_single hw hshortest).1

/-- The powers of ten of a numeral with at most 53 bits of digits. -/
theorem scale_bounds {d : ℚ} {s : Nat} {k : Int} (hs : s < 2 ^ 53) (hd : d = s * 10 ^ k)
    (hlo : 1 ≤ d * 10 ^ 60) (hhi : d ≤ 10 ^ 60) : -100 ≤ k ∧ k ≤ 100 := by
  have hten : (0 : ℚ) < 10 ^ k := by positivity
  have hdpos : 0 < d := (pos_iff_pos_of_mul_pos (one_pos.trans_le hlo)).mpr (by positivity)
  have hone : (1 : ℚ) ≤ s := by
    have : 0 < s := by exact_mod_cast (pos_iff_pos_of_mul_pos (hd ▸ hdpos)).mpr hten
    exact_mod_cast this
  have hbits : (s : ℚ) < 10 ^ 16 := by
    have : s < 10 ^ 16 := Nat.lt_trans hs (by decide)
    exact_mod_cast this
  constructor
  · have hlower : (10 : ℚ) ^ (-76 : Int) < 10 ^ k := by
      have hmul : d < 10 ^ 16 * 10 ^ k := hd ▸ mul_lt_mul_of_pos_right hbits hten
      have hsmall : (10 : ℚ) ^ (-76 : Int) * (10 ^ 16 * 10 ^ 60) = 1 := by norm_num
      generalize (10 : ℚ) ^ k = p at *
      generalize (10 : ℚ) ^ (-76 : Int) = r at *
      norm_num at *
      linarith
    have := (zpow_lt_zpow_iff_right₀ (by norm_num : (1 : ℚ) < 10)).mp hlower
    omega
  · have hupper : (10 : ℚ) ^ k ≤ 10 ^ (60 : Int) := by
      calc (10 : ℚ) ^ k ≤ s * 10 ^ k := le_mul_of_one_le_left hten.le hone
        _ = d := hd.symm
        _ ≤ 10 ^ (60 : Int) := by exact_mod_cast hhi
    have := (zpow_le_zpow_iff_right₀ (by norm_num : (1 : ℚ) < 10)).mp hupper
    omega

/-- **Every finite 32-bit number is read back** from its numeral, bit for bit. -/
theorem reread?_eq {x : Binary32} (hx : x.isFinite = true) : reread? x = some x := by
  obtain ⟨negative, pattern⟩ := x
  rcases Nat.eq_zero_or_pos pattern.val with hzero | hpos
  · obtain rfl : pattern = 0 := Fin.ext hzero
    exact reread?_zero negative
  by_cases hregular : ∀ km ∈ Binary.exceptions, pattern.val ≠ km.1 * 2 ^ 23 + km.2 / 2 ∧
      pattern.val - 1 ≠ km.1 * 2 ^ 23 + km.2 / 2
  · obtain ⟨q, c, hshortest, hw⟩ := Binary.exists_written singleStyle.tie hx hpos
    obtain ⟨-, hwhole, hsign, hmagnitude, hfew⟩ := numeral_single hw hshortest
    unfold reread?
    generalize singleStyle.numeral ⟨negative, pattern⟩ = n at *
    obtain ⟨hsignificand, hscale⟩ := Numeral.significand_eq (n := n) (by omega)
    have hd : (c * 10 ^ q : ℚ) = n.significand * 10 ^ n.scale := by
      rw [← hmagnitude, hsignificand, hscale]
      rfl
    obtain ⟨hlo, hhi⟩ := hw.range
    rw [← hsignificand] at hfew
    obtain ⟨hleast, hmost⟩ := scale_bounds hfew hd hlo hhi
    obtain ⟨y, hdouble, hfin, hnear, hexact⟩ := Numeral.exists_double? hfew hd hleast hmost
      (hlo.trans (by gcongr <;> norm_num)) (hhi.trans (by norm_num))
    have hencloses := encloses_of_near hw hx hpos hregular hnear hexact
    have hnumber : Number.ofNumeral? n = some (.real (n.signed y)) := by
      unfold Number.ofNumeral?
      simp [hwhole, hdouble]
    rw [hnumber]
    exact congrArg some (cast_single_eq hx hfin hsign hencloses)
  -- the numbers next to an exceptional midpoint
  · push Not at hregular
    obtain ⟨km, hmem, hside⟩ := hregular
    obtain ⟨side, hpattern⟩ : ∃ side : Fin 2, pattern.val = km.1 * 2 ^ 23 + km.2 / 2 + side := by
      by_cases hlow : pattern.val = km.1 * 2 ^ 23 + km.2 / 2
      · exact ⟨0, hlow.trans (Nat.add_zero _).symm⟩
      · refine ⟨1, ?_⟩
        have := hside hlow
        show pattern.val = km.1 * 2 ^ 23 + km.2 / 2 + 1
        omega
    obtain rfl : Fin.ofNat _ (km.1 * 2 ^ 23 + km.2 / 2 + side) = pattern := by
      rw [← hpattern]
      exact Fin.ofNat_val_eq_self pattern
    exact reread?_exception km hmem side negative

end GateGraph.Json
