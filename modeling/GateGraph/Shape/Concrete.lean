import GateGraph.Shape.Broadcast

/-!
# `GateGraph.Shape.Concrete` — the shapes that tensors have when a graph runs

At run time every dimension has an extent. A partly unknown shape admits the concrete shapes that it may turn
out to be, and one shape refines another when it says the same and perhaps more.

## Contents
- `Extents`, and `Extents.broadcast?`, broadcasting by position, counted from the right.
- `Dim.Admits`, `Shape.Admits`; `Dim.Refines`, `Shape.Refines`.
- `admits_fixed`: a shape about which everything is known admits one concrete shape.
- `refines_refl`.
-/

namespace GateGraph

/-! ## Concrete shapes -/

/-- The extents of a tensor's dimensions. -/
abbrev Extents := List UInt64

namespace Extents

/-- The extent at a position counted from the right; a missing leading dimension counts as one. -/
def fromRight (c : Extents) (position : Nat) : UInt64 := (c.reverse[position]?).getD 1

/-- The extent that a pair gives: the two are equal, or one of them is one. -/
def pair? (m n : UInt64) : Option UInt64 :=
  if m = n ∨ n = 1 then some m else if m = 1 then some n else none

/-- The concrete shape of an elementwise operation on two tensors, position by position. -/
def broadcast? (c d : Extents) : Option Extents :=
  ((List.range (max c.length d.length)).mapM fun i => pair? (c.fromRight i) (d.fromRight i)).map
    List.reverse

example : broadcast? [32, 1, 4] [7, 1] = some [32, 7, 4] := by decide

example : broadcast? [2, 3] [2] = none := by decide

end Extents

/-! ## What a shape may turn out to be -/

/-- A dimension may have this extent: it is open, or it is this one. -/
def Dim.Admits (d : Dim) (n : UInt64) : Prop := d = none ∨ d = some n

/-- A shape may turn out to be this one. -/
def Shape.Admits : Shape → Extents → Prop
  | .unranked, _ => True
  | .ranked dims, c => dims.length = c.length ∧ ∀ p ∈ dims.zip c, Dim.Admits p.1 p.2

/-- A dimension says the same as another one, or the other one says nothing. -/
def Dim.Refines (x y : Dim) : Prop := y = none ∨ x = y

/-- A shape says at least as much as another one. -/
def Shape.Refines : Shape → Shape → Prop
  | _, .unranked => True
  | .unranked, .ranked _ => False
  | .ranked xs, .ranked ys => xs.length = ys.length ∧ ∀ p ∈ xs.zip ys, Dim.Refines p.1 p.2

instance (d : Dim) (n : UInt64) : Decidable (d.Admits n) := inferInstanceAs (Decidable (_ ∨ _))

instance (x y : Dim) : Decidable (x.Refines y) := inferInstanceAs (Decidable (_ ∨ _))

-- The list is gone through entry by entry. There may be an instance in scope that tries all extents instead.
instance : (s : Shape) → (c : Extents) → Decidable (s.Admits c)
  | .unranked, _ => inferInstanceAs (Decidable True)
  | .ranked dims, c =>
      haveI : Decidable (∀ p ∈ dims.zip c, Dim.Admits p.1 p.2) := List.decidableBAll _ _
      inferInstanceAs (Decidable (_ ∧ _))

instance : (s t : Shape) → Decidable (s.Refines t)
  | .ranked _, .unranked | .unranked, .unranked => inferInstanceAs (Decidable True)
  | .unranked, .ranked _ => inferInstanceAs (Decidable False)
  | .ranked xs, .ranked ys =>
      haveI : Decidable (∀ p ∈ xs.zip ys, Dim.Refines p.1 p.2) := List.decidableBAll _ _
      inferInstanceAs (Decidable (_ ∧ _))

/-! ## Small laws -/

@[simp] theorem Shape.admits_unranked (c : Extents) : Shape.unranked.Admits c := trivial

theorem Shape.admits_ranked_nil (c : Extents) : (Shape.ranked []).Admits c ↔ c = [] := by
  simp [Shape.Admits, eq_comm]

/-- A dimension and an extent at a time. -/
theorem Shape.admits_ranked_cons (d : Dim) (dims : List Dim) (c : Extents) :
    (Shape.ranked (d :: dims)).Admits c ↔
      ∃ n rest, c = n :: rest ∧ d.Admits n ∧ (Shape.ranked dims).Admits rest := by
  cases c with
  | nil => simp [Shape.Admits]
  | cons n rest =>
      simp only [Shape.Admits, List.length_cons, Nat.add_right_cancel_iff, List.zip_cons_cons,
        List.forall_mem_cons, List.cons.injEq]
      constructor
      · rintro ⟨hlen, hd, hrest⟩
        exact ⟨n, rest, ⟨rfl, rfl⟩, hd, hlen, hrest⟩
      · rintro ⟨n', rest', ⟨rfl, rfl⟩, hd, hlen, hrest⟩
        exact ⟨hlen, hd, hrest⟩

/-- A shape about which everything is known admits itself alone. -/
theorem Shape.admits_fixed (c e : Extents) : (Shape.fixed c).Admits e ↔ e = c := by
  unfold Shape.fixed
  induction c generalizing e with
  | nil => exact Shape.admits_ranked_nil e
  | cons n c ih =>
      rw [List.map_cons, Shape.admits_ranked_cons]
      constructor
      · rintro ⟨m, rest, rfl, hd, hrest⟩
        have hm : n = m := by simpa [Dim.Admits] using hd
        rw [hm, (ih rest).mp hrest]
      · rintro rfl
        exact ⟨n, c, rfl, Or.inr rfl, (ih c).mpr rfl⟩

theorem Shape.refines_refl (s : Shape) : s.Refines s := by
  cases s with
  | unranked => trivial
  | ranked dims =>
      refine ⟨rfl, fun p hp => Or.inr ?_⟩
      induction dims with
      | nil => simp at hp
      | cons d dims ih =>
          rcases List.mem_cons.mp hp with rfl | h
          · rfl
          · exact ih h

end GateGraph
