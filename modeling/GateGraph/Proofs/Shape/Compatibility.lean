import GateGraph.Proofs.Shape.Refinement

/-!
# `GateGraph.Proofs.Shape.Compatibility` — shapes that may turn out to be the same

Compatibility and broadcasting are computed apart: the one goes through two lists of the same length, the
other aligns two lists of any lengths from the right and gives way to ones. What they have to do with each
other is said by the concrete shapes. Two shapes are compatible when they have one in common; and then they
broadcast, because every concrete shape broadcasts with itself. In the other direction, broadcasting may
make up a shape that neither of the two can have (`[2, 1]` and `[3]` give `[2, 3]`), so it matters that the
result is compatible with both.

## Contents
- `Dim.compatible_iff`, `Dim.compatible_of_broadcast`: one pair of dimensions.
- `compatible_iff_exists_admits`, `compatible_iff_exists_broadcast`.
- `Shape.compatible_exact`, with the laws that follow.
-/

namespace GateGraph

/-! ## One pair of dimensions -/

/-- Two dimensions are compatible when there is an extent for both. -/
theorem Dim.compatible_iff (x y : Dim) : x.compatible y ↔ ∃ n, x.Admits n ∧ y.Admits n := by
  cases x with
  | none =>
      cases y with
      | none => exact ⟨fun _ => ⟨0, Or.inl rfl, Or.inl rfl⟩, fun _ => rfl⟩
      | some n => exact ⟨fun _ => ⟨n, Or.inl rfl, Or.inr rfl⟩, fun _ => rfl⟩
  | some m =>
      cases y with
      | none => exact ⟨fun _ => ⟨m, Or.inr rfl, Or.inl rfl⟩, fun _ => rfl⟩
      | some n =>
          show (m == n) = true ↔ _
          rw [beq_iff_eq]
          constructor
          · rintro rfl
            exact ⟨m, Or.inr rfl, Or.inr rfl⟩
          · rintro ⟨k, hm | hm, hn | hn⟩
            · cases hm
            · cases hm
            · cases hn
            · exact Option.some.inj (hm.trans hn.symm)

/-- Dimensions that are both compatible with what they broadcast to are compatible. -/
theorem Dim.compatible_of_broadcast {x y z : Dim} (hz : Dim.broadcast x y = some z)
    (hx : z.compatible x) (hy : z.compatible y) : x.compatible y := by
  cases x with
  | none => rfl
  | some m =>
      cases y with
      | none => rfl
      | some n =>
          -- the result is one of the two extents, and compatible with the other one
          simp only [Dim.broadcast] at hz
          grind [Dim.compatible]

/-! ## Lists of dimensions -/

/-- Where two entries are related when they have something in common, lists are so entry by entry. -/
theorem forall₂_iff_exists_common {α β : Type} {R : α → α → Prop} {A : α → β → Prop}
    (h : ∀ x y, R x y ↔ ∃ n, A x n ∧ A y n) (xs ys : List α) :
    List.Forall₂ R xs ys ↔ ∃ ns, List.Forall₂ A xs ns ∧ List.Forall₂ A ys ns := by
  constructor
  · intro hall
    induction hall with
    | nil => exact ⟨[], .nil, .nil⟩
    | @cons x y _ _ hxy _ ih =>
        obtain ⟨n, hx, hy⟩ := (h x y).mp hxy
        obtain ⟨ns, hxs, hys⟩ := ih
        exact ⟨n :: ns, .cons hx hxs, .cons hy hys⟩
  · rintro ⟨ns, hxs, hys⟩
    induction hxs generalizing ys with
    | nil =>
        cases hys
        exact .nil
    | cons hx _ ih =>
        cases hys with
        | cons hy hys => exact .cons ((h _ _).mpr ⟨_, hx, hy⟩) (ih _ hys)

/-- Lists of dimensions that are both compatible with what they broadcast to. -/
theorem compatible_of_pairUp {xs ys zs : List Dim} (hz : pairUp Dim.broadcast xs ys = some zs)
    (hx : List.Forall₂ (fun z x => Dim.compatible z x) zs xs)
    (hy : List.Forall₂ (fun z y => Dim.compatible z y) zs ys) :
    List.Forall₂ (fun x y => Dim.compatible x y) xs ys := by
  induction xs generalizing ys zs with
  | nil =>
      -- a list that goes on alone is longer than the one that has ended
      cases hx
      cases hy
      exact .nil
  | cons x xs ih =>
      cases hx with
      | cons hzx hzxs =>
          cases hy with
          | cons hzy hzys =>
              obtain ⟨_, _, hxy, hxys, heq⟩ := (pairUp_cons_eq_some_iff ..).mp hz
              obtain ⟨rfl, rfl⟩ := List.cons.inj heq
              exact .cons (Dim.compatible_of_broadcast hxy hzx hzy) (ih hxys hzxs hzys)

/-! ## Shapes -/

namespace Shape

theorem compatible_ranked_iff (xs ys : List Dim) :
    (ranked xs).compatible (ranked ys) ↔ List.Forall₂ (fun x y => Dim.compatible x y) xs ys := by
  simp only [compatible, Bool.and_eq_true, beq_iff_eq, List.all_eq_true, forall₂_iff_zip_mem]

/-- **Shapes are compatible when they have a concrete shape in common.** -/
theorem compatible_iff_exists_admits (a b : Shape) : a.compatible b ↔ ∃ c, a.Admits c ∧ b.Admits c := by
  cases a with
  | unranked =>
      obtain ⟨c, hc⟩ := exists_admits b
      exact ⟨fun _ => ⟨c, trivial, hc⟩, fun _ => rfl⟩
  | ranked xs =>
      cases b with
      | unranked =>
          obtain ⟨c, hc⟩ := exists_admits (ranked xs)
          exact ⟨fun _ => ⟨c, hc, trivial⟩, fun _ => rfl⟩
      | ranked ys =>
          rw [compatible_ranked_iff, forall₂_iff_exists_common Dim.compatible_iff]
          simp only [admits_ranked_iff]

/-- A shape that two have in common is in what they broadcast to. -/
theorem exists_broadcast_of_compatible {a b : Shape} (h : a.compatible b) :
    ∃ s, broadcast a b = some s ∧ s.compatible a ∧ s.compatible b := by
  obtain ⟨c, ha, hb⟩ := (compatible_iff_exists_admits a b).mp h
  have hresult : Results a b c := ⟨c, c, ha, hb, Extents.broadcast?_self c⟩
  obtain ⟨s, hs, hsc⟩ := hresult.exists_broadcast
  exact ⟨s, hs, (compatible_iff_exists_admits s a).mpr ⟨c, hsc, ha⟩,
    (compatible_iff_exists_admits s b).mpr ⟨c, hsc, hb⟩⟩

theorem compatible_of_broadcast {a b s : Shape} (hs : broadcast a b = some s) (ha : s.compatible a)
    (hb : s.compatible b) : a.compatible b := by
  cases a with
  | unranked => rfl
  | ranked xs =>
      cases b with
      | unranked => rfl
      | ranked ys =>
          rw [broadcast_ranked, Option.map_eq_some_iff] at hs
          obtain ⟨zs, hzs, rfl⟩ := hs
          rw [compatible_ranked_iff, ← List.forall₂_reverse_iff] at ha hb ⊢
          exact compatible_of_pairUp (alignRight_eq_some_iff.mp hzs) ha hb

/-- **Shapes are compatible when they broadcast to a shape that is compatible with both.** -/
theorem compatible_iff_exists_broadcast (a b : Shape) :
    a.compatible b ↔ ∃ s, broadcast a b = some s ∧ s.compatible a ∧ s.compatible b :=
  ⟨exists_broadcast_of_compatible, fun ⟨_, hs, ha, hb⟩ => compatible_of_broadcast hs ha hb⟩

theorem compatible_self (a : Shape) : a.compatible a := by
  obtain ⟨c, hc⟩ := exists_admits a
  exact (compatible_iff_exists_admits a a).mpr ⟨c, hc, hc⟩

theorem compatible_comm (a b : Shape) : a.compatible b = b.compatible a := by
  rw [Bool.eq_iff_iff, compatible_iff_exists_admits, compatible_iff_exists_admits]
  simp only [and_comm]

/-- Shapes that say less are no less compatible. -/
theorem Refines.compatible {a a' b b' : Shape} (ha : a.Refines a') (hb : b.Refines b')
    (h : a.compatible b) : a'.compatible b' := by
  obtain ⟨c, hac, hbc⟩ := (compatible_iff_exists_admits a b).mp h
  exact (compatible_iff_exists_admits a' b').mpr ⟨c, ha.admits hac, hb.admits hbc⟩

/-- **What compatibility means.** Two shapes are compatible exactly if some concrete shape is one that both
    may turn out to have, and exactly if they broadcast to a shape that is compatible with both. So every
    shape is compatible with itself, the order of two shapes does not matter, shapes that say less stay
    compatible, and compatible shapes broadcast. -/
theorem compatible_exact (a b : Shape) :
    (a.compatible b ↔ ∃ c, a.Admits c ∧ b.Admits c) ∧
    (a.compatible b ↔ ∃ s, broadcast a b = some s ∧ s.compatible a ∧ s.compatible b) ∧
    a.compatible a ∧
    (a.compatible b → b.compatible a) ∧
    (∀ a' b', a.Refines a' → b.Refines b' → a.compatible b → a'.compatible b') ∧
    (a.compatible b → ∃ s, broadcast a b = some s) := by
  refine ⟨compatible_iff_exists_admits a b, compatible_iff_exists_broadcast a b, compatible_self a,
    fun h => ?_, fun a' b' ha hb h => ha.compatible hb h, fun h => ?_⟩
  · rw [compatible_comm]
    exact h
  · obtain ⟨s, hs, -⟩ := exists_broadcast_of_compatible h
    exact ⟨s, hs⟩

/-- Shapes that broadcast need not be compatible. -/
example : broadcast (fixed [2, 1]) (fixed [3]) = some (fixed [2, 3]) ∧
    ¬ (fixed [2, 1]).compatible (fixed [3]) := by decide

end Shape

end GateGraph
