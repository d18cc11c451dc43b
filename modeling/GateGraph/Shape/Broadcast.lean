import GateGraph.Shape.Basic

/-!
# `GateGraph.Shape.Broadcast` — which shapes fit together, and what elementwise operations make of them

Two shapes are *compatible* when they may turn out to be the same. Two shapes *broadcast* when an
elementwise operation takes them both: they are aligned from the right, a missing leading dimension counts
as one, and of each pair the dimensions have to be equal or one of them has to be one.

## Contents
- `Dim.compatible`, `Shape.compatible`.
- `Dim.broadcast`, `Shape.broadcast`, with an open dimension standing for any extent; the small lemmas
  say that one is neutral, that order does not matter and that a dimension broadcasts with itself.
-/

namespace GateGraph

/-! ## Compatibility -/

/-- Two extents may be the same: they are equal, or one of them is open. -/
def Dim.compatible : Dim → Dim → Bool
  | some m, some n => m == n
  | _, _ => true

/-- Two shapes may be the same: a rank is open, or the ranks are equal and so may all dimensions be. -/
def Shape.compatible : Shape → Shape → Bool
  | .ranked a, .ranked b =>
      a.length == b.length && (a.zip b).all fun (x, y) => Dim.compatible x y
  | _, _ => true

/-! ## Broadcasting -/

/-- The extent that an elementwise operation gives for a pair of dimensions. An open dimension takes the
    extent of its partner, unless that is one, which leaves it open. -/
def Dim.broadcast : Dim → Dim → Option Dim
  | none, none => some none
  | none, some n => some (if n = 1 then none else some n)
  | some m, none => some (if m = 1 then none else some m)
  | some m, some n =>
      if m = n then some (some m)
      else if m = 1 then some (some n)
      else if n = 1 then some (some m)
      else none

/-- Broadcasting of dimensions that are listed from the last to the first: where one list has ended, the
    other goes on alone, as it would beside ones. -/
def Shape.broadcastFromLast : List Dim → List Dim → Option (List Dim)
  | [], ys => some ys
  | xs, [] => some xs
  | x :: xs, y :: ys => do
      let z ← Dim.broadcast x y
      let zs ← broadcastFromLast xs ys
      return z :: zs

/-- The shape of an elementwise operation on two operands; `none` when they do not broadcast. With an
    operand of open rank nothing is known of the result. -/
def Shape.broadcast : Shape → Shape → Option Shape
  | .ranked a, .ranked b =>
      (broadcastFromLast a.reverse b.reverse).map fun dims => .ranked dims.reverse
  | _, _ => some .unranked

theorem Dim.broadcast_comm (x y : Dim) : Dim.broadcast x y = Dim.broadcast y x := by
  cases x <;> cases y <;> grind [Dim.broadcast]

@[simp] theorem Dim.broadcast_self (x : Dim) : Dim.broadcast x x = some x := by
  cases x <;> simp [Dim.broadcast]

@[simp] theorem Dim.one_broadcast (x : Dim) : Dim.broadcast (some 1) x = some x := by
  cases x <;> grind [Dim.broadcast]

theorem Shape.broadcastFromLast_comm (xs ys : List Dim) :
    broadcastFromLast xs ys = broadcastFromLast ys xs := by
  induction xs generalizing ys with
  | nil => cases ys <;> rfl
  | cons x xs ih =>
      cases ys with
      | nil => rfl
      | cons y ys => simp [broadcastFromLast, Dim.broadcast_comm x y, ih ys]

@[simp] theorem Shape.broadcastFromLast_self (xs : List Dim) : broadcastFromLast xs xs = some xs := by
  induction xs with
  | nil => rfl
  | cons x xs ih => simp [broadcastFromLast, ih]

end GateGraph
