import GateGraph.Error
import Mathlib.Tactic.Tauto

/-!
# `GateGraph.Proofs.Error.Precedence` — which of several errors is reported

Several things may be wrong at once, and only one of them is reported. What may be wrong is listed in the
order in which it counts; each entry is a condition of its own and does not mention the others. Where the
same thing may be wrong in several places of a list, it is the first of them that counts.

## Contents
- `Hurdle`, something that may be wrong; `Hurdle.Clear` and `Hurdle.Stop`, none of them and the first of them.
- `stop_cons`, `stop_append` and their like: going through a list entry by entry.
- `FirstAt`, the first entry of a list that has a property, and how searches find it.
- `clear_iff_forall_not_stop`: nothing is wrong, or something is reported.
- `stop_append_orElse` and `stop_cons_orElse`: checks that are made one after another.
-/

namespace GateGraph

variable {α β : Type}

/-! ## One thing after another -/

/-- Something that may be wrong: the errors that say so, and no error when it is not. -/
abbrev Hurdle := Error → Prop

namespace Hurdle

/-- Nothing of all this is wrong. -/
def Clear (hurdles : List Hurdle) : Prop := ∀ h ∈ hurdles, ∀ e, ¬ h e

/-- The first of these things that is wrong is reported by this error. -/
def Stop (hurdles : List Hurdle) (e : Error) : Prop :=
  ∃ before h after, hurdles = before ++ h :: after ∧ Clear before ∧ h e

variable {h : Hurdle} {hurdles : List Hurdle} {e : Error}

theorem clear_nil : Clear [] := List.forall_mem_nil _

theorem clear_cons : Clear (h :: hurdles) ↔ (∀ e, ¬ h e) ∧ Clear hurdles := List.forall_mem_cons

theorem clear_append {more : List Hurdle} : Clear (hurdles ++ more) ↔ Clear hurdles ∧ Clear more :=
  List.forall_mem_append

theorem stop_nil : ¬ Stop [] e := by
  rintro ⟨before, h, after, heq, -⟩
  exact absurd heq (by simp)

theorem stop_cons : Stop (h :: hurdles) e ↔ h e ∨ (∀ e', ¬ h e') ∧ Stop hurdles e := by
  constructor
  · rintro ⟨_ | ⟨b, before⟩, h', after, heq, hclear, he⟩
    · obtain ⟨rfl, -⟩ := List.cons.inj heq
      exact .inl he
    · obtain ⟨rfl, rfl⟩ := List.cons.inj heq
      obtain ⟨hhead, htail⟩ := clear_cons.mp hclear
      exact .inr ⟨hhead, before, h', after, rfl, htail, he⟩
  · rintro (he | ⟨hhead, before, h', after, rfl, htail, he⟩)
    · exact ⟨[], h, hurdles, rfl, clear_nil, he⟩
    · exact ⟨h :: before, h', after, rfl, clear_cons.mpr ⟨hhead, htail⟩, he⟩

/-- What is not wrong can be passed over. -/
theorem stop_cons_of_clear (hclear : ∀ e, ¬ h e) : Stop (h :: hurdles) e ↔ Stop hurdles e := by
  rw [stop_cons]
  exact ⟨fun hstop => hstop.elim (fun he => absurd he (hclear e)) (·.2), fun hstop => .inr ⟨hclear, hstop⟩⟩

/-- What is wrong hides all that comes later. -/
theorem stop_cons_of_eq {e₀ : Error} (heq : ∀ e, h e ↔ e = e₀) : Stop (h :: hurdles) e ↔ e = e₀ := by
  rw [stop_cons, heq]
  refine ⟨fun hstop => hstop.elim id fun hlater => ?_, .inl⟩
  exact absurd ((heq e₀).mpr rfl) (hlater.1 e₀)

theorem stop_singleton : Stop [h] e ↔ h e := by
  rw [stop_cons]
  exact ⟨fun hstop => hstop.elim id fun hlater => absurd hlater.2 stop_nil, .inl⟩

theorem stop_append {more : List Hurdle} :
    Stop (hurdles ++ more) e ↔ Stop hurdles e ∨ Clear hurdles ∧ Stop more e := by
  induction hurdles with
  | nil => exact ⟨fun hstop => .inr ⟨clear_nil, hstop⟩, fun hstop => hstop.elim (absurd · stop_nil) (·.2)⟩
  | cons h hurdles ih => rw [List.cons_append, stop_cons, stop_cons, ih, clear_cons]; tauto

/-- Something is wrong, or nothing is. -/
theorem clear_iff_forall_not_stop : Clear hurdles ↔ ∀ e, ¬ Stop hurdles e := by
  induction hurdles with
  | nil => exact ⟨fun _ _ => stop_nil, fun _ => clear_nil⟩
  | cons h hurdles ih =>
      simp only [clear_cons, stop_cons, ih]
      constructor
      · rintro ⟨hhead, htail⟩ e (he | ⟨-, he⟩)
        · exact hhead e he
        · exact htail e he
      · intro hall
        have hhead : ∀ e, ¬ h e := fun e he => hall e (.inl he)
        exact ⟨hhead, fun e he => hall e (.inr ⟨hhead, he⟩)⟩

/-- Checks that are made one after another: what the first ones report is reported, and only if they report
    nothing what the later ones do. -/
theorem stop_append_orElse {more : List Hurdle} {found later : Option α} {report : α → Error}
    (hfirst : ∀ e, Stop hurdles e ↔ ∃ x, found = some x ∧ e = report x)
    (hlater : Stop more e ↔ ∃ x, later = some x ∧ e = report x) :
    Stop (hurdles ++ more) e ↔ ∃ x, (found <|> later) = some x ∧ e = report x := by
  rw [stop_append, hfirst, hlater, clear_iff_forall_not_stop]
  simp only [hfirst]
  cases found with
  | none =>
      show _ ↔ ∃ x, later = some x ∧ e = report x
      simp only [reduceCtorEq, false_and, exists_false, not_false_eq_true, implies_true, true_and, false_or]
  | some x =>
      show _ ↔ ∃ y, some x = some y ∧ e = report y
      have hreported : ¬ ∀ e', ¬ ∃ y, some x = some y ∧ e' = report y := fun hnone =>
        hnone (report x) ⟨x, rfl, rfl⟩
      exact ⟨fun hstop => hstop.elim id fun hlater => absurd hlater.1 hreported, .inl⟩

theorem stop_cons_orElse {found later : Option α} {report : α → Error}
    (hhead : ∀ e, h e ↔ ∃ x, found = some x ∧ e = report x)
    (htail : Stop hurdles e ↔ ∃ x, later = some x ∧ e = report x) :
    Stop (h :: hurdles) e ↔ ∃ x, (found <|> later) = some x ∧ e = report x :=
  stop_append_orElse (fun e => stop_singleton.trans (hhead e)) htail

end Hurdle

/-! ## The first entry -/

/-- This is the first entry of a list that has a property, which may depend on the position. -/
def FirstAt (P : Nat → α → Prop) (xs : List α) (position : Nat) (x : α) : Prop :=
  xs[position]? = some x ∧ P position x ∧
    ∀ earlier < position, ∀ y, xs[earlier]? = some y → ¬ P earlier y

theorem FirstAt.unique {P : Nat → α → Prop} {xs : List α} {i j : Nat} {x y : α} (hx : FirstAt P xs i x)
    (hy : FirstAt P xs j y) : i = j ∧ x = y := by
  have hij : i = j := by
    rcases Nat.lt_trichotomy i j with hlt | heq | hgt
    · exact absurd hx.2.1 (hy.2.2 i hlt x hx.1)
    · exact heq
    · exact absurd hy.2.1 (hx.2.2 j hgt y hy.1)
  subst hij
  exact ⟨rfl, Option.some.inj (hx.1.symm.trans hy.1)⟩

theorem findIdx?_eq_some_iff {p : α → Bool} {xs : List α} {i : Nat} :
    xs.findIdx? p = some i ↔ ∃ x, FirstAt (fun _ x => p x = true) xs i x := by
  rw [List.findIdx?_eq_some_iff_getElem]
  constructor
  · rintro ⟨hi, hp, hearlier⟩
    refine ⟨xs[i], List.getElem?_eq_getElem hi, hp, ?_⟩
    intro j hj y hy
    obtain ⟨_, rfl⟩ := List.getElem?_eq_some_iff.mp hy
    exact hearlier j hj
  · rintro ⟨x, hx, hp, hearlier⟩
    obtain ⟨hi, rfl⟩ := List.getElem?_eq_some_iff.mp hx
    refine ⟨hi, hp, ?_⟩
    intro j hj
    exact hearlier j hj _ (List.getElem?_eq_getElem (Nat.lt_trans hj hi))

/-- A search in which every entry is looked at together with its position finds the first one for which there
    is an answer. -/
theorem findSome?_zipIdx_eq_some_iff {f : α → Nat → Option β} {P : Nat → α → Prop}
    (hP : ∀ i x, P i x ↔ ∃ y, f x i = some y) {xs : List α} {y : β} :
    (xs.zipIdx.findSome? fun (x, i) => f x i) = some y ↔ ∃ i x, FirstAt P xs i x ∧ f x i = some y := by
  have found {y : β} (h : (xs.zipIdx.findSome? fun (x, i) => f x i) = some y) :
      ∃ i x, FirstAt P xs i x ∧ f x i = some y := by
    obtain ⟨before, ⟨x, i⟩, after, hsplit, hy, hearlier⟩ := List.findSome?_eq_some_iff.mp h
    have hlookup (j : Nat) : (before ++ (x, i) :: after)[j]? = xs[j]?.map fun x => (x, j) := by
      rw [← hsplit, List.getElem?_zipIdx]
      simp only [Nat.zero_add]
    -- the entry stands behind those that the search has passed
    have hlast := hlookup before.length
    rw [List.getElem?_append_right (Nat.le_refl _), Nat.sub_self, List.getElem?_cons_zero, eq_comm,
      Option.map_eq_some_iff] at hlast
    obtain ⟨x', hx, hpair⟩ := hlast
    cases hpair
    refine ⟨before.length, x, ⟨hx, (hP _ _).mpr ⟨y, hy⟩, ?_⟩, hy⟩
    intro j hj z hz hPz
    obtain ⟨w, hw⟩ := (hP j z).mp hPz
    have hmem : (z, j) ∈ before := by
      have hj' := hlookup j
      rw [List.getElem?_append_left hj, hz] at hj'
      exact List.mem_of_getElem? hj'
    have hpassed : f z j = none := hearlier (z, j) hmem
    rw [hpassed] at hw
    cases hw
  constructor
  · exact found
  · rintro ⟨i, x, hfirst, hy⟩
    cases hfound : xs.zipIdx.findSome? fun (x, i) => f x i with
    | none =>
        have hmem : (x, i) ∈ xs.zipIdx := List.mem_zipIdx_iff_getElem?.mpr hfirst.1
        have hnone : f x i = none := List.findSome?_eq_none_iff.mp hfound (x, i) hmem
        rw [hy] at hnone
        cases hnone
    | some y' =>
        obtain ⟨i', x', hfirst', hy'⟩ := found hfound
        obtain ⟨rfl, rfl⟩ := hfirst.unique hfirst'
        exact hy'.symm.trans hy

/-- A search for an entry with a property, together with its position. -/
theorem find?_zipIdx_eq_some_iff {p : α → Bool} {xs : List α} {i : Nat} {x : α} :
    (xs.zipIdx.find? fun (x, _) => p x) = some (x, i) ↔ FirstAt (fun _ x => p x = true) xs i x := by
  have hguard : (xs.zipIdx.find? fun (x, _) => p x) =
      xs.zipIdx.findSome? fun (x, i) => if p x then some (x, i) else none :=
    List.findSome?_guard.symm
  have hanswer (i : Nat) (x : α) : p x = true ↔ ∃ y, (if p x then some (x, i) else none) = some y := by
    cases p x <;> simp
  rw [hguard, findSome?_zipIdx_eq_some_iff hanswer]
  constructor
  · rintro ⟨i', x', hfirst, hfound⟩
    rw [if_pos hfirst.2.1] at hfound
    cases hfound
    exact hfirst
  · intro hfirst
    exact ⟨i, x, hfirst, if_pos hfirst.2.1⟩

end GateGraph
