import Mathlib.Data.List.Basic

/-!
# `GateGraph.Proofs.Text.Splitting` — where a text falls into its parts

Texts are made by putting parts one behind the other, with marks in between and nothing escaped. A part can be
told from the whole as soon as the mark at its end, or the one in front of it, is no character of its own; what
is on the other side of the mark may be anything.

## Contents
- `split_first` and `split_last`: a text is split at its first or its last mark in one way only.
- `split_last_of_notMem`, for a mark that is the same in both texts.
-/

namespace GateGraph.Text

variable {p : Char → Prop} {before before' after after' : List Char} {mark mark' : Char}

/-- A text is split at its first mark in one way only: in front of it are no marks. -/
theorem split_first (hbefore : ∀ c ∈ before, p c) (hbefore' : ∀ c ∈ before', p c) (hmark : ¬ p mark)
    (hmark' : ¬ p mark') (h : before ++ mark :: after = before' ++ mark' :: after') :
    before = before' ∧ mark = mark' ∧ after = after' := by
  induction before generalizing before' with
  | nil =>
      cases before' with
      | nil =>
          obtain ⟨hsame, hafter⟩ := List.cons.inj h
          exact ⟨rfl, hsame, hafter⟩
      | cons d ds =>
          obtain ⟨rfl, -⟩ := List.cons.inj h
          exact absurd (hbefore' mark List.mem_cons_self) hmark
  | cons c cs ih =>
      cases before' with
      | nil =>
          obtain ⟨rfl, -⟩ := List.cons.inj h
          exact absurd (hbefore c List.mem_cons_self) hmark'
      | cons d ds =>
          obtain ⟨rfl, htail⟩ := List.cons.inj h
          have hcs : ∀ e ∈ cs, p e := fun e he => hbefore e (List.mem_cons_of_mem c he)
          have hds : ∀ e ∈ ds, p e := fun e he => hbefore' e (List.mem_cons_of_mem c he)
          obtain ⟨rfl, hrest⟩ := ih hcs hds htail
          exact ⟨rfl, hrest⟩

/-- A text is split at its last mark in one way only: behind it are no marks. -/
theorem split_last (hafter : ∀ c ∈ after, p c) (hafter' : ∀ c ∈ after', p c) (hmark : ¬ p mark)
    (hmark' : ¬ p mark') (h : before ++ mark :: after = before' ++ mark' :: after') :
    before = before' ∧ mark = mark' ∧ after = after' := by
  have hreverse := congrArg List.reverse h
  simp only [List.reverse_append, List.reverse_cons, List.append_assoc, List.singleton_append] at hreverse
  have hmem {cs : List Char} (hcs : ∀ c ∈ cs, p c) : ∀ c ∈ cs.reverse, p c := fun c hc =>
    hcs c (List.mem_reverse.mp hc)
  obtain ⟨hbehind, hsame, hfront⟩ := split_first (hmem hafter) (hmem hafter') hmark hmark' hreverse
  exact ⟨List.reverse_injective hfront, hsame, List.reverse_injective hbehind⟩

/-- A text is split at the last place of a character in one way only. -/
theorem split_last_of_notMem (hafter : mark ∉ after) (hafter' : mark ∉ after')
    (h : before ++ mark :: after = before' ++ mark :: after') : before = before' ∧ after = after' := by
  have hmark : ¬ mark ≠ mark := not_not_intro rfl
  obtain ⟨hbefore, -, hsame⟩ := split_last (p := (· ≠ mark)) (List.forall_mem_ne'.mpr hafter)
    (List.forall_mem_ne'.mpr hafter') hmark hmark h
  exact ⟨hbefore, hsame⟩

end GateGraph.Text
