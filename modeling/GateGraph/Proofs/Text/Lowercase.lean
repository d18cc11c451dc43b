import GateGraph.Text.Lowercase

/-!
# `GateGraph.Proofs.Text.Lowercase` — lowercase text stays as it is

Lowercasing replaces characters one by one. One of them becomes two characters, and for the capital sigma
the form depends on what stands around it. Still, doing it twice is no different from doing it once, because
what it writes is never replaced again, wherever it stands: no lowercase form is a capital of another range,
and neither form of sigma is the capital one.

## Contents
- `CaseRange.isApart` and `CaseRange.Sound`, which are checked range by range: `isApart_of_mem` and
  `sound_of_mem`.
- `IsLower`, the characters that lowercasing keeps everywhere; `isLower_of_mem_lowerBetween`: it writes no
  others.
- `endsWord_append`: what a sigma does not look at.
- `lowercase_lowercase`.
-/

namespace GateGraph.Text

/-! ## The table -/

namespace CaseRange

variable {r s : CaseRange} {n m : Nat}

/-- The lowercase forms of the first range are not in the second one. They lie before or behind it, or go
    in steps of two past every one of its code points. -/
def isApart (r s : CaseRange) : Bool :=
  (r.target + (r.last - r.first)).blt s.first || s.last.blt r.target ||
    (r.stride == 2 || r.first == r.last) && s.stride == 2 && (r.target + s.first) % 2 == 1

theorem isApart_iff :
    r.isApart s = true ↔
      (r.target + (r.last - r.first) < s.first ∨ s.last < r.target) ∨
        ((r.stride = 2 ∨ r.first = r.last) ∧ s.stride = 2) ∧ (r.target + s.first) % 2 = 1 := by
  simp only [isApart, Nat.blt_eq, Bool.or_eq_true, Bool.and_eq_true, beq_iff_eq]

/-- The lowercase forms of the range are characters, and the capital I with a dot is none of them. -/
def Sound (r : CaseRange) : Prop :=
  (r.target + (r.last - r.first) < 0xD800 ∨
    0xDFFF < r.target ∧ r.target + (r.last - r.first) < 0x110000) ∧
  (r.target + (r.last - r.first) < 0x130 ∨ 0x130 < r.target)

instance (r : CaseRange) : Decidable r.Sound :=
  inferInstanceAs (Decidable ((_ ∨ _ ∧ _) ∧ (_ ∨ _)))

theorem lower?_eq_some_iff :
    r.lower? n = some m ↔
      (r.first ≤ n ∧ n ≤ r.last ∧ (n - r.first) % r.stride = 0) ∧ r.target + (n - r.first) = m := by
  unfold lower?
  split <;> simp_all

/-- A lowercase form has none itself in a range that lies apart. -/
theorem lower?_eq_none_of_isApart (h : r.isApart s = true) (hm : r.lower? n = some m) :
    s.lower? m = none := by
  obtain ⟨⟨hlo, hhi, hstep⟩, rfl⟩ := lower?_eq_some_iff.mp hm
  refine if_neg ?_
  rintro ⟨hlo', hhi', hstep'⟩
  rcases isApart_iff.mp h with (hbefore | hbehind) | ⟨⟨hsteps, hsteps'⟩, hparity⟩
  · omega
  · omega
  · -- both ranges go in steps of two, from numbers of different parity
    have heven : (n - r.first) % 2 = 0 := by
      rcases hsteps with htwo | hone
      · rwa [htwo] at hstep
      · omega
    rw [hsteps'] at hstep'
    omega

theorem Sound.isValidChar (h : r.Sound) (hm : r.lower? n = some m) : m.isValidChar := by
  obtain ⟨⟨hlo, hhi, -⟩, rfl⟩ := lower?_eq_some_iff.mp hm
  rcases h.1 with hlow | ⟨hhigh, hmax⟩
  · exact .inl (by omega)
  · exact .inr ⟨by omega, by omega⟩

theorem Sound.ne_dotted (h : r.Sound) (hm : r.lower? n = some m) : m ≠ 0x130 := by
  obtain ⟨⟨hlo, hhi, -⟩, rfl⟩ := lower?_eq_some_iff.mp hm
  rcases h.2 with hbefore | hbehind
  · omega
  · omega

end CaseRange

theorem all_isApart : (lowercaseRanges.all fun r => lowercaseRanges.all r.isApart) = true := by
  decide +kernel

/-- No range of the table holds a lowercase form of any other. -/
theorem isApart_of_mem {r s : CaseRange} (hr : r ∈ lowercaseRanges) (hs : s ∈ lowercaseRanges) :
    r.isApart s = true :=
  List.all_eq_true.mp (List.all_eq_true.mp all_isApart r hr) s hs

theorem sound_of_mem : ∀ r ∈ lowercaseRanges, r.Sound := by decide +kernel

/-! ## Characters that are kept -/

/-- The character is its own lowercase form, whatever stands around it. -/
def IsLower (c : Char) : Prop := ∀ before after, lowerBetween before c after = [c]

/-- A character that is in no range of the table is kept, with one exception. -/
theorem isLower_of_not_in_table {c : Char} (hdotted : c ≠ 'İ')
    (h : ∀ r ∈ lowercaseRanges, r.lower? c.toNat = none) : IsLower c := by
  intro before after
  have hsigma : c ≠ 'Σ' := by
    rintro rfl
    have hrange := h ⟨0x3A3, 0x3AB, 1, 0x3C3⟩ (by decide +kernel)
    exact absurd hrange (by decide)
  have hfind : lowercaseRanges.findSome? (·.lower? c.toNat) = none := List.findSome?_eq_none_iff.mpr h
  unfold lowerBetween lowerChar
  rw [if_neg hsigma, if_neg hdotted, hfind]
  rfl

theorem isLower_of_mem_lowerChar {c d : Char} (h : d ∈ lowerChar c) : IsLower d := by
  unfold lowerChar at h
  by_cases hdotted : c = 'İ'
  · rw [if_pos hdotted] at h
    simp only [List.mem_cons, List.not_mem_nil, or_false] at h
    -- the letter and the dot that is written behind it
    rcases h with rfl | rfl
    · exact isLower_of_not_in_table (by decide) (by decide +kernel)
    · exact isLower_of_not_in_table (by decide) (by decide +kernel)
  · rw [if_neg hdotted, List.mem_singleton] at h
    cases hfind : lowercaseRanges.findSome? (·.lower? c.toNat) with
    | none =>
        rw [hfind] at h
        obtain rfl : d = c := h
        exact isLower_of_not_in_table hdotted (List.findSome?_eq_none_iff.mp hfind)
    | some m =>
        rw [hfind] at h
        obtain rfl : d = Char.ofNat m := h
        obtain ⟨r, hr, hm⟩ := List.exists_of_findSome?_eq_some hfind
        have hnumber : (Char.ofNat m).toNat = m := by
          rw [Char.ofNat, dif_pos ((sound_of_mem r hr).isValidChar hm)]
          rfl
        refine isLower_of_not_in_table ?_ fun s hs => ?_
        · intro heq
          rw [heq] at hnumber
          exact (sound_of_mem r hr).ne_dotted hm hnumber.symm
        · rw [hnumber]
          exact CaseRange.lower?_eq_none_of_isApart (isApart_of_mem hr hs) hm

/-- **Lowercasing writes only characters that it keeps.** -/
theorem isLower_of_mem_lowerBetween {before after : List Char} {c d : Char}
    (h : d ∈ lowerBetween before c after) : IsLower d := by
  unfold lowerBetween at h
  split at h
  · rw [List.mem_singleton] at h
    split at h
    · subst h
      exact isLower_of_not_in_table (by decide) (by decide +kernel)
    · subst h
      exact isLower_of_not_in_table (by decide) (by decide +kernel)
  · exact isLower_of_mem_lowerChar h

/-! ## The end of a word -/

theorem startsCased_append {skipped : List Char} (h : ∀ c ∈ skipped, isCaseIgnorable c = true)
    (cs : List Char) : startsCased (skipped ++ cs) = startsCased cs := by
  unfold startsCased
  rw [List.dropWhile_append_of_pos h]

/-- Whether a word ends does not depend on characters that cannot interrupt it, on either side. -/
theorem endsWord_append {skipped skipped' : List Char} (h : ∀ c ∈ skipped, isCaseIgnorable c = true)
    (h' : ∀ c ∈ skipped', isCaseIgnorable c = true) (before after : List Char) :
    endsWord (skipped ++ before) (skipped' ++ after) = endsWord before after := by
  unfold endsWord
  rw [startsCased_append h, startsCased_append h']

/-- A letter without case interrupts a word, and a vowel sign of the same script does not. -/
example : lowercase "A𖄀Σ A𖄞Σ" = "a𖄀σ a𖄞ς" := by decide +kernel

/-! ## Texts -/

theorem isLower_of_mem_lowercaseAfter {before cs : List Char} :
    ∀ d ∈ lowercaseAfter before cs, IsLower d := by
  induction cs generalizing before with
  | nil => simp [lowercaseAfter]
  | cons c cs ih =>
      intro d hd
      rcases List.mem_append.mp hd with hhead | htail
      · exact isLower_of_mem_lowerBetween hhead
      · exact ih d htail

theorem lowercaseAfter_eq_self {before cs : List Char} (h : ∀ c ∈ cs, IsLower c) :
    lowercaseAfter before cs = cs := by
  induction cs generalizing before with
  | nil => rfl
  | cons c cs ih =>
      have hc := h c List.mem_cons_self before cs
      have hcs : lowercaseAfter (c :: before) cs = cs := ih fun d hd => h d (List.mem_cons_of_mem c hd)
      rw [lowercaseAfter, hc, hcs]
      rfl

/-- **Lowercase text stays as it is.** -/
@[simp] theorem lowercase_lowercase (s : String) : lowercase (lowercase s) = lowercase s := by
  have hkept : lowercaseAfter [] (lowercaseAfter [] s.toList) = lowercaseAfter [] s.toList :=
    lowercaseAfter_eq_self isLower_of_mem_lowercaseAfter
  unfold lowercase
  rw [String.toList_ofList, hkept]

end GateGraph.Text
