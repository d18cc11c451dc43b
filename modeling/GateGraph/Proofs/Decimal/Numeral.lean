import GateGraph.Decimal.Numeral

/-!
# `GateGraph.Proofs.Decimal.Numeral` — numerals that are read back as they were written

Reading takes as many characters as it can, so a numeral is read back only when what follows it cannot be
taken for a part of it; and only when its own digits are such as the grammar of numerals asks for.

## Contents
- `Numeral.WellFormed`, what the grammar asks for, and `Numeral.Ends`, what may follow.
- `Numeral.scan?_chars`: a well-formed numeral is read back; `wellFormed_ofNat`.
- `Decimal.value_append`, and the number of digits of a number: `lt_ten_pow_length`, `ten_pow_length_le`.
-/

namespace GateGraph

-- powers of whole numbers are the built-in ones, whatever is imported beside this module
attribute [local instance (2000)] instPowNat

namespace Decimal

/-! ## Digits -/

theorem digits_ne_nil (n : Nat) : digits n ≠ [] := Nat.toDigits_ne_nil

theorem isDigit_of_mem_digits {n : Nat} {c : Char} (h : c ∈ digits n) : c.isDigit = true :=
  Nat.isDigit_of_mem_toDigits (by decide) (by decide) h

theorem value_append (ds es : List Char) : value (ds ++ es) = value ds * 10 ^ es.length + value es := by
  unfold value
  rw [Nat.ofDigitChars_append, Nat.ofDigitChars_eq_ofDigitChars_zero, Nat.mul_comm]

theorem value_replicate_zero (n : Nat) : value (List.replicate n '0') = 0 := by
  simp [value, Nat.ofDigitChars_replicate_zero]

/-- Zeros in front count for nothing. -/
theorem value_zeros_append (n : Nat) (ds : List Char) : value (List.replicate n '0' ++ ds) = value ds := by
  rw [value_append, value_replicate_zero, Nat.zero_mul, Nat.zero_add]

/-- Zeros at the end count tenfold each. -/
theorem value_append_zeros (ds : List Char) (n : Nat) :
    value (ds ++ List.replicate n '0') = value ds * 10 ^ n := by
  rw [value_append, value_replicate_zero, List.length_replicate, Nat.add_zero]

theorem value_lt {ds : List Char} (h : ∀ c ∈ ds, c.isDigit = true) : value ds < 10 ^ ds.length := by
  induction ds with
  | nil => decide
  | cons d ds ih =>
      have hd : value [d] ≤ 9 := by
        have := h d List.mem_cons_self
        simp only [Char.isDigit, Bool.and_eq_true, decide_eq_true_eq] at this
        have hmost : d.toNat ≤ '9'.toNat := this.2
        show 10 * 0 + (d.toNat - '0'.toNat) ≤ 9
        simp only [Char.reduceToNat] at hmost ⊢
        omega
      have hrest := ih fun c hc => h c (List.mem_cons_of_mem d hc)
      have hcons := value_append [d] ds
      rw [List.singleton_append] at hcons
      rw [hcons, List.length_cons, Nat.pow_succ]
      have hmul : value [d] * 10 ^ ds.length ≤ 9 * 10 ^ ds.length := Nat.mul_le_mul_right _ hd
      omega

theorem lt_ten_pow_length (n : Nat) : n < 10 ^ (digits n).length :=
  (Nat.length_toDigits_le_iff (by decide) Nat.length_toDigits_pos).mp (Nat.le_refl _)

theorem ten_pow_length_le {n : Nat} (hn : 0 < n) : 10 ^ ((digits n).length - 1) ≤ n := by
  have hpos : 0 < (digits n).length := Nat.length_toDigits_pos
  rcases Nat.eq_zero_or_pos ((digits n).length - 1) with hone | hmore
  · rw [hone]
    exact hn
  · refine Nat.le_of_not_lt fun hlt => ?_
    have := (Nat.length_toDigits_le_iff (b := 10) (by decide) hmore).mpr hlt
    unfold digits at hpos this
    omega

/-- A number that is not zero has no zero in front. -/
theorem digits_eq_cons {n : Nat} (hn : 0 < n) : ∃ d ds, digits n = d :: ds ∧ d ≠ '0' := by
  induction n using Nat.strongRecOn with
  | ind n ih =>
      unfold digits
      rw [Nat.toDigits_eq_if (by decide)]
      split
      · next hlt =>
          have hd : ∀ m : Fin 10, 0 < m.val → Nat.digitChar m ≠ '0' := by decide
          exact ⟨_, [], rfl, hd ⟨n, hlt⟩ hn⟩
      · obtain ⟨d, ds, heq, hne⟩ := ih (n / 10) (by omega) (by omega)
        refine ⟨d, ds ++ [Nat.digitChar (n % 10)], ?_, hne⟩
        unfold digits at heq
        rw [heq, List.cons_append]

end Decimal

namespace Numeral

/-! ## What is read back -/

/-- What the grammar asks for: digits everywhere, at least one in the whole part and in an exponent, and no
    zero in front of other digits. -/
structure WellFormed (n : Numeral) : Prop where
  whole_ne_nil : n.whole ≠ []
  whole_digits : ∀ c ∈ n.whole, c.isDigit = true
  no_zero_first : ∀ c cs, n.whole ≠ '0' :: c :: cs
  fraction_digits : ∀ c ∈ n.fraction, c.isDigit = true
  exponent_ne_nil : ∀ e ∈ n.exponent, e.digits ≠ []
  exponent_digits : ∀ e ∈ n.exponent, ∀ c ∈ e.digits, c.isDigit = true

/-- A text that does not go on with a digit. -/
def NoDigitFirst (rest : List Char) : Prop := ∀ c ∈ rest.head?, c.isDigit = false

/-- A text behind a numeral with which the numeral cannot go on. -/
def Ends (rest : List Char) : Prop :=
  ∀ c ∈ rest.head?, c.isDigit = false ∧ c ≠ '.' ∧ c ≠ 'e' ∧ c ≠ 'E'

theorem Ends.noDigitFirst {rest : List Char} (h : Ends rest) : NoDigitFirst rest :=
  fun c hc => (h c hc).1

theorem spanDigits_append {ds rest : List Char} (hds : ∀ c ∈ ds, c.isDigit = true)
    (hrest : NoDigitFirst rest) : spanDigits (ds ++ rest) = (ds, rest) := by
  unfold spanDigits
  rw [List.takeWhile_append_of_pos hds, List.dropWhile_append_of_pos hds]
  cases rest with
  | nil => simp
  | cons c cs => simp [hrest c rfl]

theorem scanDigits?_append {ds rest : List Char} (hne : ds ≠ []) (hds : ∀ c ∈ ds, c.isDigit = true)
    (hrest : NoDigitFirst rest) : scanDigits? (ds ++ rest) = some (ds, rest) := by
  unfold scanDigits?
  rw [spanDigits_append hds hrest, if_neg hne]

theorem scanWhole?_append {ds rest : List Char} (hne : ds ≠ []) (hds : ∀ c ∈ ds, c.isDigit = true)
    (hzero : ∀ c cs, ds ≠ '0' :: c :: cs) (hrest : NoDigitFirst rest) :
    scanWhole? (ds ++ rest) = some (ds, rest) := by
  unfold scanWhole?
  rw [scanDigits?_append hne hds hrest]
  split
  · next c cs _ heq =>
      obtain ⟨rfl, -⟩ := Prod.mk.inj (Option.some.inj heq)
      exact absurd rfl (hzero c cs)
  · rfl

theorem scanFraction?_append {ds rest : List Char} (hds : ∀ c ∈ ds, c.isDigit = true)
    (hrest : NoDigitFirst rest) (hpoint : ∀ c ∈ rest.head?, c ≠ '.') :
    scanFraction? (fractionChars ds ++ rest) = some (ds, rest) := by
  cases ds with
  | nil =>
      unfold scanFraction? fractionChars
      cases rest with
      | nil => rfl
      | cons c cs =>
          have hc := hpoint c rfl
          rw [List.nil_append]
          split
          · next heq => exact absurd (List.cons.inj heq).1 hc
          · rfl
  | cons d ds =>
      simp only [fractionChars, List.cons_append, scanFraction?]
      exact scanDigits?_append (List.cons_ne_nil d ds) hds hrest

theorem scanExponent?_append {e : Option Exponent} {rest : List Char}
    (hne : ∀ x ∈ e, x.digits ≠ []) (hds : ∀ x ∈ e, ∀ c ∈ x.digits, c.isDigit = true) (hrest : Ends rest) :
    scanExponent? (exponentChars e ++ rest) = some (e, rest) := by
  cases e with
  | none =>
      unfold scanExponent? exponentChars
      cases rest with
      | nil => rfl
      | cons c cs =>
          obtain ⟨-, -, he, hE⟩ := hrest c rfl
          rw [List.nil_append]
          split
          · next heq => exact absurd (List.cons.inj heq).1 he
          · next heq => exact absurd (List.cons.inj heq).1 hE
          · rfl
  | some x =>
      obtain ⟨negative, ds⟩ := x
      have hscan := scanDigits?_append (hne _ rfl) (hds _ rfl) hrest.noDigitFirst
      cases negative <;>
        simp [exponentChars, scanExponent?, scanExponentBody?, scanExponentSign, hscan]

/-- A fraction and an exponent begin with a mark of their own. -/
theorem noDigitFirst_exponentChars {e : Option Exponent} {rest : List Char} (h : Ends rest) :
    NoDigitFirst (exponentChars e ++ rest) ∧ ∀ c ∈ (exponentChars e ++ rest).head?, c ≠ '.' := by
  cases e with
  | none => exact ⟨h.noDigitFirst, fun c hc => (h c hc).2.1⟩
  | some x =>
      refine ⟨fun c hc => ?_, fun c hc => ?_⟩
      all_goals
        obtain rfl : 'e' = c := by simpa [exponentChars] using hc
        decide

theorem noDigitFirst_fractionChars {ds rest : List Char} (h : NoDigitFirst rest) :
    NoDigitFirst (fractionChars ds ++ rest) := by
  cases ds with
  | nil => exact h
  | cons d ds =>
      intro c hc
      obtain rfl : '.' = c := by simpa [fractionChars] using hc
      decide

theorem scanUnsigned?_append {n : Numeral} {rest : List Char} (h : n.WellFormed) (hrest : Ends rest) :
    scanUnsigned? n.negative (n.whole ++ (fractionChars n.fraction ++ (exponentChars n.exponent ++ rest))) =
      some (n, rest) := by
  obtain ⟨hexponent, hpoint⟩ := noDigitFirst_exponentChars (e := n.exponent) hrest
  unfold scanUnsigned?
  rw [scanWhole?_append h.whole_ne_nil h.whole_digits h.no_zero_first
    (noDigitFirst_fractionChars hexponent)]
  simp only [bind, Option.bind_some]
  rw [scanFraction?_append h.fraction_digits hexponent hpoint]
  simp only [Option.bind_some]
  rw [scanExponent?_append h.exponent_ne_nil h.exponent_digits hrest]
  rfl

/-- The first character of a numeral is a digit or a minus sign. -/
theorem WellFormed.chars_eq_cons {n : Numeral} (h : n.WellFormed) :
    ∃ c cs, n.chars = c :: cs ∧ (c = '-' ∨ c.isDigit = true) := by
  obtain ⟨d, ds, hwhole⟩ := List.exists_cons_of_ne_nil h.whole_ne_nil
  have hd := h.whole_digits d (hwhole ▸ List.mem_cons_self)
  unfold chars signChars
  cases n.negative with
  | false => exact ⟨d, _, by rw [hwhole]; rfl, Or.inr hd⟩
  | true => exact ⟨'-', _, rfl, Or.inl rfl⟩

/-- **A well-formed numeral is read back**, whatever follows that is no part of it. -/
theorem scan?_chars {n : Numeral} {rest : List Char} (h : n.WellFormed) (hrest : Ends rest) :
    scan? (n.chars ++ rest) = some (n, rest) := by
  have hscan := scanUnsigned?_append h hrest
  simp only [chars, signChars, List.append_assoc]
  cases hsign : n.negative with
  | true =>
      rw [hsign] at hscan
      simpa [scan?] using hscan
  | false =>
      rw [hsign] at hscan
      obtain ⟨d, ds, hwhole⟩ := List.exists_cons_of_ne_nil h.whole_ne_nil
      have hd := h.whole_digits d (hwhole ▸ List.mem_cons_self)
      rw [hwhole] at hscan ⊢
      simp only [Bool.false_eq_true, if_false, List.nil_append, List.cons_append] at hscan ⊢
      -- a digit is not a minus sign
      unfold scan?
      split
      · next heq =>
          obtain rfl := (List.cons.inj heq).1
          exact absurd hd (by decide)
      · exact hscan

theorem wellFormed_ofNat (n : Nat) : (ofNat n).WellFormed where
  whole_ne_nil := Decimal.digits_ne_nil n
  whole_digits _ := Decimal.isDigit_of_mem_digits
  no_zero_first c cs h := by
    rcases Nat.eq_zero_or_pos n with rfl | hn
    · exact absurd h (by simp [ofNat, Decimal.digits, Nat.toDigits_zero])
    · obtain ⟨d, ds, heq, hne⟩ := Decimal.digits_eq_cons hn
      rw [ofNat, heq] at h
      exact hne (List.cons.inj h).1
  fraction_digits := by simp [ofNat]
  exponent_ne_nil := by simp [ofNat]
  exponent_digits := by simp [ofNat]

end Numeral

end GateGraph
