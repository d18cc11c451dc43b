import GateGraph.Binary.Reading
import GateGraph.Binary.Text
import GateGraph.Proofs.Binary.Shortest

/-!
# `GateGraph.Proofs.Binary.Text` — the numerals that numbers are written as

A style sets the digits of a number around a point, with zeros where digits are missing, or behind an
exponent. This module shows that none of that changes the number, and that the numeral is one that the
grammar of numerals admits.

## Contents
- `Scientific.magnitude` and `Numeral.magnitude`, what decimals and numerals stand for.
- `Scientific.Normal`, no zero in front; `wellFormed_numeral` and `magnitude_numeral`: what a style makes of
  such a decimal.
- `value_positional_lt` and `isWhole_numeral`: how long the numeral is, and that it keeps its point.
- `Numeral.significand_eq`: reading takes a numeral apart without loss when its digits are few.
-/

namespace GateGraph

-- powers of whole numbers are the built-in ones, whatever is imported beside this module
attribute [local instance (2000)] instPowNat

/-! ## Decimals -/

namespace Scientific

/-- The number that a decimal stands for. -/
def magnitude (s : Scientific) : ℚ := Decimal.value s.digits * 10 ^ (s.exponent + 1 - s.digits.length)

/-- A decimal with digits and with no zero in front of them. -/
structure Normal (s : Scientific) : Prop where
  isDigit : ∀ c ∈ s.digits, c.isDigit = true
  first : ∃ d ds, s.digits = d :: ds ∧ d ≠ '0'

end Scientific

namespace Binary

/-- The digits of a decimal and the zeros that were left out. -/
theorem digits_scientific (c : Nat) (q : Int) :
    ∃ zeros, Decimal.digits c = (scientific c q).digits ++ List.replicate zeros '0' := by
  obtain ⟨ds, hds⟩ : ∃ ds, ds = (Decimal.digits c).reverse := ⟨_, rfl⟩
  have hzeros : ds.takeWhile (· == '0') = List.replicate (ds.takeWhile (· == '0')).length '0' :=
    List.eq_replicate_iff.mpr ⟨rfl, fun d hd => by
      simpa using List.all_eq_true.mp List.all_takeWhile d hd⟩
  refine ⟨(ds.takeWhile (· == '0')).length, ?_⟩
  have hsplit := congrArg List.reverse (List.takeWhile_append_dropWhile (p := (· == '0')) (l := ds))
  rw [List.reverse_append, hzeros, List.reverse_replicate, hds, List.reverse_reverse] at hsplit
  rw [hds]
  exact hsplit.symm

theorem magnitude_scientific (c : Nat) (q : Int) : (scientific c q).magnitude = c * 10 ^ q := by
  obtain ⟨zeros, hdigits⟩ := digits_scientific c q
  have hvalue : c = Decimal.value (scientific c q).digits * 10 ^ zeros := by
    rw [← Decimal.value_append_zeros, ← hdigits, Decimal.value_digits]
  have hexponent : (scientific c q).exponent + 1 - (scientific c q).digits.length = zeros + q := by
    have hlen := congrArg List.length hdigits
    rw [List.length_append, List.length_replicate] at hlen
    have hdef : (scientific c q).exponent = q + (Decimal.digits c).length - 1 := rfl
    omega
  unfold Scientific.magnitude
  rw [hexponent, zpow_add₀ (by norm_num), zpow_natCast, ← mul_assoc]
  congr 1
  exact_mod_cast hvalue.symm

/-- Leaving out zeros does not make the digits a larger number. -/
theorem value_scientific_le (c : Nat) (q : Int) : Decimal.value (scientific c q).digits ≤ c := by
  obtain ⟨zeros, hdigits⟩ := digits_scientific c q
  have hvalue := congrArg Decimal.value hdigits
  rw [Decimal.value_digits, Decimal.value_append_zeros] at hvalue
  calc Decimal.value (scientific c q).digits
      ≤ Decimal.value (scientific c q).digits * 10 ^ zeros :=
        Nat.le_mul_of_pos_right _ (Nat.pow_pos (by decide : 0 < 10))
    _ = c := hvalue.symm

theorem normal_scientific {c : Nat} (hc : 0 < c) (q : Int) : (scientific c q).Normal := by
  obtain ⟨zeros, hdigits⟩ := digits_scientific c q
  obtain ⟨d, ds, hcons, hd⟩ := Decimal.digits_eq_cons hc
  refine ⟨fun e he => Decimal.isDigit_of_mem_digits (n := c) ?_, ?_⟩
  · rw [hdigits]
    exact List.mem_append_left _ he
  · cases hs : (scientific c q).digits with
    | nil =>
        rw [hs, List.nil_append, hcons] at hdigits
        have : d ∈ List.replicate zeros '0' := hdigits ▸ List.mem_cons_self
        exact absurd (List.eq_of_mem_replicate this) hd
    | cons e es =>
        rw [hs, hcons, List.cons_append] at hdigits
        exact ⟨e, es, rfl, (List.cons.inj hdigits).1 ▸ hd⟩

end Binary

/-! ## Numerals -/

namespace Numeral

/-- The number that a numeral stands for, its sign apart. -/
def magnitude (n : Numeral) : ℚ :=
  Decimal.value (n.whole ++ n.fraction) * 10 ^ (n.exponent.elim 0 Exponent.value - n.fraction.length)

theorem absorb_nil (n : Nat) : absorb n [] = (n, []) := rfl

theorem absorb_cons (n : Nat) (d : Char) (ds : List Char) :
    absorb n (d :: ds) = if 10 * n + Decimal.value [d] < 2 ^ 64 then absorb (10 * n + Decimal.value [d]) ds
      else (n, d :: ds) := rfl

/-- As long as the digits are few, all of them are taken. -/
theorem absorb_eq {n : Nat} {ds : List Char} (h : n * 10 ^ ds.length + Decimal.value ds < 2 ^ 64) :
    absorb n ds = (n * 10 ^ ds.length + Decimal.value ds, []) := by
  induction ds generalizing n with
  | nil => simp [absorb_nil, Decimal.value]
  | cons d ds ih =>
      have hsplit : n * 10 ^ (d :: ds).length + Decimal.value (d :: ds) =
          (10 * n + Decimal.value [d]) * 10 ^ ds.length + Decimal.value ds := by
        have := Decimal.value_append [d] ds
        rw [List.singleton_append] at this
        rw [this, List.length_cons, Nat.pow_succ]
        ring
      rw [hsplit] at h ⊢
      have hfirst : 10 * n + Decimal.value [d] < 2 ^ 64 :=
        (Nat.le_trans (Nat.le_mul_of_pos_right _ (Nat.pow_pos (by decide))) (Nat.le_add_right _ _)).trans_lt h
      rw [absorb_cons, if_pos hfirst, ih h]

/-- Reading loses nothing of a numeral with few digits. -/
theorem significand_eq {n : Numeral} (h : Decimal.value (n.whole ++ n.fraction) < 2 ^ 64) :
    n.significand = Decimal.value (n.whole ++ n.fraction) ∧
      n.scale = n.exponent.elim 0 Exponent.value - n.fraction.length := by
  rw [Decimal.value_append] at h ⊢
  have hle : Decimal.value n.whole ≤ Decimal.value n.whole * 10 ^ n.fraction.length :=
    Nat.le_mul_of_pos_right _ (Nat.pow_pos (by decide))
  have hwhole : absorb 0 n.whole = (Decimal.value n.whole, []) := by
    have hall : absorb 0 n.whole = (0 * 10 ^ n.whole.length + Decimal.value n.whole, []) :=
      absorb_eq (by omega)
    rwa [Nat.zero_mul, Nat.zero_add] at hall
  have hfraction := absorb_eq (n := Decimal.value n.whole) h
  constructor
  · unfold significand
    rw [hwhole, hfraction]
  · unfold scale
    rw [hwhole]
    simp only [hfraction, List.length_nil, Nat.sub_zero, Nat.cast_zero, add_zero]

end Numeral

/-! ## Styles -/

namespace Style

variable (style : Style) (negative : Bool) {s : Scientific}

/-- A decimal below one: zeros stand between the point and its digits. -/
theorem positional_of_neg (h : s.exponent < 0) : style.positional negative s =
    ⟨negative, ['0'], List.replicate (-s.exponent - 1).toNat '0' ++ s.digits, none⟩ := by
  unfold positional
  rw [if_pos h]

/-- A whole decimal: zeros stand between its digits and the point. -/
theorem positional_of_length_le (h : 0 ≤ s.exponent) (hlen : s.digits.length ≤ s.exponent.toNat + 1) :
    style.positional negative s =
      ⟨negative, s.digits ++ List.replicate (s.exponent.toNat + 1 - s.digits.length) '0',
        style.wholeFraction, none⟩ := by
  unfold positional
  rw [if_neg (Int.not_lt.mpr h)]
  simp only [List.take_of_length_le hlen, List.drop_of_length_le hlen]

/-- Any other decimal: the point stands among its digits. -/
theorem positional_of_lt_length (h : 0 ≤ s.exponent) (hlen : s.exponent.toNat + 1 < s.digits.length) :
    style.positional negative s =
      ⟨negative, s.digits.take (s.exponent.toNat + 1), s.digits.drop (s.exponent.toNat + 1), none⟩ := by
  have hnone : s.exponent.toNat + 1 - s.digits.length = 0 := by omega
  unfold positional
  rw [if_neg (Int.not_lt.mpr h)]
  simp only [hnone, List.replicate_zero, List.append_nil]
  split
  · next hdrop =>
      have := List.drop_eq_nil_iff.mp hdrop
      omega
  · rfl

/-- A whole number in a text ends in a point and a zero, or in nothing. -/
theorem wholeFraction_eq : ∃ zeros ≤ 1, style.wholeFraction = List.replicate zeros '0' := by
  unfold wholeFraction
  split
  · exact ⟨1, Nat.le_refl 1, rfl⟩
  · exact ⟨0, Nat.zero_le 1, rfl⟩

theorem magnitude_positional : (style.positional negative s).magnitude = s.magnitude := by
  unfold Numeral.magnitude Scientific.magnitude
  rcases lt_or_ge s.exponent 0 with hneg | hnonneg
  · rw [positional_of_neg style negative hneg]
    have hzeros : ['0'] ++ (List.replicate (-s.exponent - 1).toNat '0' ++ s.digits) =
        List.replicate ((-s.exponent - 1).toNat + 1) '0' ++ s.digits := rfl
    simp only [hzeros, Decimal.value_zeros_append, Option.elim_none, List.length_append,
      List.length_replicate]
    congr 2
    omega
  · rcases Nat.lt_or_ge (s.exponent.toNat + 1) s.digits.length with hlong | hshort
    · rw [positional_of_lt_length style negative hnonneg hlong]
      simp only [List.take_append_drop, Option.elim_none, List.length_drop]
      congr 2
      omega
    · rw [positional_of_length_le style negative hnonneg hshort]
      obtain ⟨zeros, -, hpoint⟩ := style.wholeFraction_eq
      simp only [hpoint, List.append_assoc, List.replicate_append_replicate, Decimal.value_append_zeros,
        Option.elim_none, List.length_replicate]
      push_cast
      rw [mul_assoc, ← zpow_natCast, ← zpow_add₀ (by norm_num)]
      congr 2
      omega

theorem magnitude_exponential (hs : s.Normal) : (exponential negative s).magnitude = s.magnitude := by
  obtain ⟨d, ds, hdigits, -⟩ := hs.first
  have hexponent : Numeral.Exponent.value ⟨s.exponent < 0, Decimal.digits s.exponent.natAbs⟩ = s.exponent := by
    unfold Numeral.Exponent.value
    simp only [decide_eq_true_eq, Decimal.value_digits]
    split <;> omega
  unfold Numeral.magnitude Scientific.magnitude exponential
  simp only [List.take_append_drop, Option.elim_some, hexponent, hdigits, List.length_drop,
    List.length_cons]
  congr 2
  omega

/-- **No style changes the number.** -/
theorem magnitude_numeral {f : Format} (x : Binary f) (hs : (x.shortest style.tie).Normal) :
    (style.numeral x).magnitude = (x.shortest style.tie).magnitude := by
  unfold numeral
  simp only
  split
  · exact magnitude_positional style _
  · exact magnitude_exponential _ hs

/-- The digits around a point make a number that is not much longer than the one before the point. -/
theorem value_positional_lt (hs : s.Normal) {bound : Nat} (hdigits : Decimal.value s.digits < bound)
    (hexponent : 10 ^ (s.exponent.toNat + 2) ≤ bound) :
    Decimal.value ((style.positional negative s).whole ++ (style.positional negative s).fraction) < bound := by
  rcases lt_or_ge s.exponent 0 with hneg | hnonneg
  · rw [positional_of_neg style negative hneg]
    have hzeros : ['0'] ++ (List.replicate (-s.exponent - 1).toNat '0' ++ s.digits) =
        List.replicate ((-s.exponent - 1).toNat + 1) '0' ++ s.digits := rfl
    simpa only [hzeros, Decimal.value_zeros_append] using hdigits
  · rcases Nat.lt_or_ge (s.exponent.toNat + 1) s.digits.length with hlong | hshort
    · rw [positional_of_lt_length style negative hnonneg hlong]
      simpa only [List.take_append_drop] using hdigits
    · rw [positional_of_length_le style negative hnonneg hshort]
      obtain ⟨zeros, hle, hpoint⟩ := style.wholeFraction_eq
      simp only [hpoint, List.append_assoc, List.replicate_append_replicate, Decimal.value_append_zeros]
      refine Nat.lt_of_lt_of_le ?_ hexponent
      calc Decimal.value s.digits * 10 ^ (s.exponent.toNat + 1 - s.digits.length + zeros)
          < 10 ^ s.digits.length * 10 ^ (s.exponent.toNat + 1 - s.digits.length + zeros) :=
            Nat.mul_lt_mul_of_pos_right (Decimal.value_lt hs.isDigit) (Nat.pow_pos (by decide))
        _ = 10 ^ (s.digits.length + (s.exponent.toNat + 1 - s.digits.length + zeros)) :=
            (Nat.pow_add _ _ _).symm
        _ ≤ 10 ^ (s.exponent.toNat + 2) := Nat.pow_le_pow_right (by decide) (by omega)

theorem wellFormed_positional (hs : s.Normal) : (style.positional negative s).WellFormed := by
  obtain ⟨d, ds, hdigits, hd⟩ := hs.first
  rcases lt_or_ge s.exponent 0 with hneg | hnonneg
  · rw [positional_of_neg style negative hneg]
    refine ⟨by simp, by simp, by simp, ?_, by simp, by simp⟩
    intro c hc
    rcases List.mem_append.mp hc with hzero | hdigit
    · rw [List.eq_of_mem_replicate hzero]
      decide
    · exact hs.isDigit c hdigit
  · rcases Nat.lt_or_ge (s.exponent.toNat + 1) s.digits.length with hlong | hshort
    · rw [positional_of_lt_length style negative hnonneg hlong]
      refine ⟨?_, fun c hc => hs.isDigit c (List.mem_of_mem_take hc), ?_,
        fun c hc => hs.isDigit c (List.mem_of_mem_drop hc), by simp, by simp⟩
      · simp [hdigits]
      · intro c cs h
        rw [hdigits, List.take_succ_cons] at h
        exact hd (List.cons.inj h).1
    · rw [positional_of_length_le style negative hnonneg hshort]
      refine ⟨?_, ?_, ?_, ?_, by simp, by simp⟩
      · simp [hdigits]
      · intro c hc
        rcases List.mem_append.mp hc with hdigit | hzero
        · exact hs.isDigit c hdigit
        · rw [List.eq_of_mem_replicate hzero]
          decide
      · intro c cs h
        rw [hdigits, List.cons_append] at h
        exact hd (List.cons.inj h).1
      · intro c hc
        unfold wholeFraction at hc
        split at hc
        · obtain rfl := List.mem_singleton.mp hc
          decide
        · simp at hc

theorem wellFormed_exponential (hs : s.Normal) : (exponential negative s).WellFormed := by
  obtain ⟨d, ds, hdigits, hd⟩ := hs.first
  refine ⟨?_, fun c hc => hs.isDigit c (List.mem_of_mem_take hc), ?_,
    fun c hc => hs.isDigit c (List.mem_of_mem_drop hc), ?_, ?_⟩
  · simp [exponential, hdigits]
  · simp [exponential, hdigits]
  · simp [exponential, Decimal.digits_ne_nil]
  · simp only [exponential, Option.mem_def, Option.some.injEq, forall_eq']
    exact fun c => Decimal.isDigit_of_mem_digits

/-- What a style writes is a numeral of the grammar. -/
theorem wellFormed_numeral {f : Format} (x : Binary f) (hs : (x.shortest style.tie).Normal) :
    (style.numeral x).WellFormed := by
  unfold numeral
  simp only
  split
  · exact wellFormed_positional style _ hs
  · exact wellFormed_exponential _ hs

/-- A style that keeps the point writes nothing that looks like a whole number. -/
theorem isWhole_numeral {f : Format} (x : Binary f) (hs : (x.shortest style.tie).Normal)
    (hpoint : style.keepsPoint = true) : (style.numeral x).isWhole = false := by
  obtain ⟨d, ds, hdigits, -⟩ := hs.first
  unfold numeral
  simp only
  split
  · rcases lt_or_ge (x.shortest style.tie).exponent 0 with hneg | hnonneg
    · rw [positional_of_neg style _ hneg]
      simp [Numeral.isWhole, hdigits]
    · rcases Nat.lt_or_ge ((x.shortest style.tie).exponent.toNat + 1)
          (x.shortest style.tie).digits.length with hlong | hshort
      · rw [positional_of_lt_length style _ hnonneg hlong]
        simp only [Numeral.isWhole, Bool.and_eq_false_iff, List.isEmpty_eq_false_iff]
        left
        intro hnil
        have := List.drop_eq_nil_iff.mp hnil
        omega
      · rw [positional_of_length_le style _ hnonneg hshort]
        simp [Numeral.isWhole, wholeFraction, hpoint]
  · simp [Numeral.isWhole, exponential]

theorem negative_numeral {f : Format} (x : Binary f) : (style.numeral x).negative = x.negative := by
  unfold numeral
  simp only
  split
  · unfold positional
    split
    · rfl
    · simp only
      split <;> rfl
  · rfl

end Style

end GateGraph
