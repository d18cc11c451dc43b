import GateGraph.Proofs.Text.Lowercase

/-!
# `GateGraph.Proofs.Text.LetterCase` — texts with a plain lowercase form

Lowercasing knows the letters of all scripts. Which texts become a word of plain ASCII letters? Those that are
the word already, up to the case of its letters, and almost no others. Two characters beyond ASCII have an ASCII
letter in their lowercase form. One is the capital I with a dot, but its dot is written behind the letter. The
other is the sign of the kelvin, which becomes a `k`. So for a word without that letter it is enough to know the
case of the letters from A to Z.

## Contents
- `EqualUpToCase`: two texts are the same up to the case of ASCII letters.
- `lowercaseAfter_of_ascii`: lowercasing ASCII is lowercasing its letters.
- `CaseRange.StaysForeign`, which is checked range by range, and `exists_foreign_of_mem`: whatever is not ASCII
  leaves something behind that is not ASCII, or a `k`.
- `IsPlain`, small ASCII without a `k`, and `lowercase_eq_iff`, the texts that become such a word.
-/

namespace GateGraph.Text

/-- The texts are the same, character by character, once the letters from `A` to `Z` are made small. -/
def EqualUpToCase (s t : String) : Prop := s.toList.map Char.toLower = t.toList.map Char.toLower

instance (s t : String) : Decidable (EqualUpToCase s t) := inferInstanceAs (Decidable (_ = _))

theorem EqualUpToCase.length_eq {s t : String} (h : EqualUpToCase s t) : s.length = t.length := by
  rw [← String.length_toList, ← String.length_toList, ← List.length_map Char.toLower, h, List.length_map]

/-! ## ASCII -/

theorem lowerChar_of_ascii {c : Char} (h : c.toNat < 128) : lowerChar c = [c.toLower] := by
  have hall : ∀ n < 128, lowerChar (Char.ofNat n) = [(Char.ofNat n).toLower] := by decide +kernel
  have hc := hall c.toNat h
  rwa [Char.ofNat_toNat] at hc

/-- No surroundings have an influence on a character of ASCII. -/
theorem lowerBetween_of_ascii {c : Char} (h : c.toNat < 128) (before after : List Char) :
    lowerBetween before c after = [c.toLower] := by
  have hsigma : c ≠ 'Σ' := by
    rintro rfl
    exact absurd h (by decide)
  unfold lowerBetween
  rw [if_neg hsigma, lowerChar_of_ascii h]

theorem lowercaseAfter_of_ascii {before cs : List Char} (h : ∀ c ∈ cs, c.toNat < 128) :
    lowercaseAfter before cs = cs.map Char.toLower := by
  induction cs generalizing before with
  | nil => rfl
  | cons c cs ih =>
      have hc : c.toNat < 128 := h c List.mem_cons_self
      have hcs : ∀ d ∈ cs, d.toNat < 128 := fun d hd => h d (List.mem_cons_of_mem c hd)
      rw [lowercaseAfter, lowerBetween_of_ascii hc, ih hcs]
      rfl

/-- A character that becomes one of ASCII by the case of its letter has been one before. -/
theorem ascii_of_toLower {c : Char} (h : c.toLower.toNat < 128) : c.toNat < 128 := by
  by_cases hletter : c.val ≥ 'A'.val ∧ c.val ≤ 'Z'.val
  · have hmost : c.toNat ≤ 'Z'.toNat := hletter.2
    exact Nat.lt_of_le_of_lt hmost (by decide)
  · have hkept : c.toLower = c := dif_neg hletter
    rwa [hkept] at h

/-! ## Beyond ASCII -/

/-- No character beyond ASCII has a lowercase form in ASCII, except that there may be one for `k`. -/
def CaseRange.StaysForeign (r : CaseRange) : Prop :=
  r.last < 128 ∨ 128 ≤ r.target ∨ r.first = r.last ∧ r.target = 'k'.toNat

instance (r : CaseRange) : Decidable r.StaysForeign := inferInstanceAs (Decidable (_ ∨ _ ∨ _ ∧ _))

theorem staysForeign_of_mem : ∀ r ∈ lowercaseRanges, r.StaysForeign := by decide +kernel

theorem CaseRange.StaysForeign.lower? {r : CaseRange} {n m : Nat} (h : r.StaysForeign) (hn : 128 ≤ n)
    (hm : r.lower? n = some m) : m = 'k'.toNat ∨ 128 ≤ m := by
  obtain ⟨⟨hlo, hhi, -⟩, rfl⟩ := lower?_eq_some_iff.mp hm
  rcases h with hplain | hforeign | ⟨hone, hk⟩
  · omega
  · exact .inr (Nat.le_add_right_of_le hforeign)
  · exact .inl (by omega)

/-- **What is not ASCII leaves a trace**: a character that is not ASCII either, or a `k`. -/
theorem exists_foreign {c : Char} (h : 128 ≤ c.toNat) (before after : List Char) :
    ∃ d ∈ lowerBetween before c after, d = 'k' ∨ 128 ≤ d.toNat := by
  unfold lowerBetween
  by_cases hsigma : c = 'Σ'
  · rw [if_pos hsigma]
    refine ⟨_, List.mem_singleton_self _, .inr ?_⟩
    split <;> decide
  rw [if_neg hsigma]
  unfold lowerChar
  by_cases hdotted : c = 'İ'
  · rw [if_pos hdotted]
    exact ⟨'\u0307', by decide, .inr (by decide)⟩
  rw [if_neg hdotted]
  refine ⟨_, List.mem_singleton_self _, ?_⟩
  cases hfind : lowercaseRanges.findSome? (·.lower? c.toNat) with
  | none => exact .inr h
  | some m =>
      obtain ⟨r, hr, hm⟩ := List.exists_of_findSome?_eq_some hfind
      have hnumber : (Char.ofNat m).toNat = m := by
        rw [Char.ofNat, dif_pos ((sound_of_mem r hr).isValidChar hm)]
        rfl
      show Char.ofNat m = 'k' ∨ 128 ≤ (Char.ofNat m).toNat
      rcases (staysForeign_of_mem r hr).lower? h hm with rfl | hforeign
      · exact .inl (Char.ofNat_toNat 'k')
      · exact .inr (hnumber.symm ▸ hforeign)

theorem exists_foreign_of_mem {before cs : List Char} {c : Char} (hc : c ∈ cs) (h : 128 ≤ c.toNat) :
    ∃ d ∈ lowercaseAfter before cs, d = 'k' ∨ 128 ≤ d.toNat := by
  induction cs generalizing before with
  | nil => cases hc
  | cons c' cs ih =>
      rw [lowercaseAfter]
      rcases List.mem_cons.mp hc with rfl | htail
      · obtain ⟨d, hd, hforeign⟩ := exists_foreign h before cs
        exact ⟨d, List.mem_append_left _ hd, hforeign⟩
      · obtain ⟨d, hd, hforeign⟩ := ih htail
        exact ⟨d, List.mem_append_right _ hd, hforeign⟩

/-! ## Plain words -/

/-- A text of ASCII characters that are not capital, and without a `k`. -/
def IsPlain (t : String) : Prop := ∀ d ∈ t.toList, d.toNat < 128 ∧ d ≠ 'k' ∧ d.toLower = d

instance (t : String) : Decidable (IsPlain t) := List.decidableBAll _ t.toList

variable {s t : String}

theorem IsPlain.map_toLower (h : IsPlain t) : t.toList.map Char.toLower = t.toList := by
  refine (List.map_congr_left fun d hd => ?_).trans (List.map_id _)
  exact (h d hd).2.2

/-- Whatever is a plain word up to the case of its letters is ASCII. -/
theorem EqualUpToCase.ascii (h : EqualUpToCase s t) (ht : IsPlain t) : ∀ c ∈ s.toList, c.toNat < 128 := by
  intro c hc
  have hmem : c.toLower ∈ t.toList := by
    rw [← ht.map_toLower, ← h]
    exact List.mem_map_of_mem hc
  exact ascii_of_toLower (ht c.toLower hmem).1

/-- Whatever becomes plain is ASCII. -/
theorem ascii_of_isPlain_lowercase (h : IsPlain (lowercase s)) : ∀ c ∈ s.toList, c.toNat < 128 := by
  intro c hc
  refine Nat.lt_of_not_le fun hforeign => ?_
  have htrace : ∃ d ∈ (lowercase s).toList, d = 'k' ∨ 128 ≤ d.toNat := by
    rw [lowercase, String.toList_ofList]
    exact exists_foreign_of_mem hc hforeign
  obtain ⟨d, hd, hforeign'⟩ := htrace
  obtain ⟨hascii, hk, -⟩ := h d hd
  exact hforeign'.elim hk (Nat.not_le_of_lt hascii)

/-- **Which texts become a plain word**: those that are the word up to the case of ASCII letters. -/
theorem lowercase_eq_iff (ht : IsPlain t) : lowercase s = t ↔ EqualUpToCase s t := by
  have hascii (h : ∀ c ∈ s.toList, c.toNat < 128) : lowercase s = t ↔ EqualUpToCase s t := by
    rw [← String.toList_inj, lowercase, String.toList_ofList, lowercaseAfter_of_ascii h, EqualUpToCase,
      ht.map_toLower]
  constructor
  · intro h
    exact (hascii (ascii_of_isPlain_lowercase (h ▸ ht))).mp h
  · intro h
    exact (hascii (h.ascii ht)).mpr h

end GateGraph.Text
