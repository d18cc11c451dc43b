import GateGraph.Shape.Concrete
import Mathlib.Data.List.Forall2

/-!
# `GateGraph.Proofs.Shape.Alignment` — combining two lists that are aligned at one end

Partly unknown shapes and concrete ones broadcast in the same manner: their dimensions are paired off from
the right, and what the longer one has in excess is kept. Here is that manner by itself, for any way to
combine a pair.

## Contents
- `pairUp`, the recursion from the aligned end, and `alignRight`, the same for lists in their usual order;
  `Shape.broadcast_ranked`.
- `pairUp_eq_mapM`: with a neutral entry in the place of the missing ones, it is a loop over positions, and
  so `Extents.broadcast?_eq_alignRight`.
- `alignRight_simulates`, `alignRight_covers`: what holds of every pair holds of the lists.
- `Shape.readAt`, `Shape.broadcastDims`: the loop from the left, by index arithmetic, and
  `isSome_readAt`, `broadcastDims_eq`.
-/

namespace GateGraph

variable {α β : Type}

/-- Two lists combined entry by entry; where one has ended, the other goes on alone. -/
def pairUp (pair : α → α → Option α) : List α → List α → Option (List α)
  | [], ys => some ys
  | xs, [] => some xs
  | x :: xs, y :: ys => do
      let z ← pair x y
      let zs ← pairUp pair xs ys
      return z :: zs

@[simp] theorem pairUp_nil (pair : α → α → Option α) (ys : List α) : pairUp pair [] ys = some ys := by
  cases ys <;> rfl

@[simp] theorem pairUp_nil_right (pair : α → α → Option α) (xs : List α) :
    pairUp pair xs [] = some xs := by
  cases xs <;> rfl

theorem pairUp_cons_eq_some_iff (pair : α → α → Option α) (x y : α) (xs ys zs : List α) :
    pairUp pair (x :: xs) (y :: ys) = some zs ↔
      ∃ z rest, pair x y = some z ∧ pairUp pair xs ys = some rest ∧ zs = z :: rest := by
  show ((pair x y).bind fun z => (pairUp pair xs ys).bind fun rest => some (z :: rest)) = some zs ↔ _
  simp only [Option.bind_eq_some_iff, Option.some.injEq]
  constructor
  · rintro ⟨z, hz, rest, hrest, rfl⟩
    exact ⟨z, rest, hz, hrest, rfl⟩
  · rintro ⟨z, rest, hz, hrest, rfl⟩
    exact ⟨z, hz, rest, hrest, rfl⟩

/-- Two lists combined entry by entry, aligned at their right ends. -/
def alignRight (pair : α → α → Option α) (xs ys : List α) : Option (List α) :=
  (pairUp pair xs.reverse ys.reverse).map List.reverse

theorem alignRight_eq_some_iff {pair : α → α → Option α} {xs ys zs : List α} :
    alignRight pair xs ys = some zs ↔ pairUp pair xs.reverse ys.reverse = some zs.reverse := by
  unfold alignRight
  rw [Option.map_eq_some_iff]
  constructor
  · rintro ⟨rest, hrest, rfl⟩
    rw [hrest, List.reverse_reverse]
  · intro h
    exact ⟨zs.reverse, h, List.reverse_reverse zs⟩

theorem Shape.broadcastFromLast_eq_pairUp (xs ys : List Dim) :
    broadcastFromLast xs ys = pairUp Dim.broadcast xs ys := by
  induction xs generalizing ys with
  | nil => cases ys <;> rfl
  | cons x xs ih =>
      cases ys with
      | nil => rfl
      | cons y ys => simp only [broadcastFromLast, pairUp, ih]

/-- Shapes with known ranks broadcast dimension by dimension. -/
theorem Shape.broadcast_ranked (a b : List Dim) :
    broadcast (ranked a) (ranked b) = (alignRight Dim.broadcast a b).map ranked := by
  show (broadcastFromLast a.reverse b.reverse).map (fun dims => ranked dims.reverse) = _
  rw [broadcastFromLast_eq_pairUp, alignRight, Option.map_map]
  rfl

/-! ## Position by position -/

theorem mapM_range_getD (one : α) (xs : List α) :
    ((List.range xs.length).mapM fun i => some (xs[i]?.getD one)) = some xs := by
  have hmap : (List.range xs.length).map (fun i => xs[i]?.getD one) = xs := by
    apply List.ext_getElem
    · simp
    · intro i hi hi'
      simp [hi']
  calc ((List.range xs.length).mapM fun i => some (xs[i]?.getD one))
      = some ((List.range xs.length).map fun i => xs[i]?.getD one) := List.mapM_pure
    _ = some xs := by rw [hmap]

/-- With a neutral entry in the place of the missing ones, lists are combined position by position. -/
theorem pairUp_eq_mapM (pair : α → α → Option α) (one : α) (hleft : ∀ y, pair one y = some y)
    (hright : ∀ x, pair x one = some x) (xs ys : List α) :
    pairUp pair xs ys = (List.range (max xs.length ys.length)).mapM fun i =>
      pair (xs[i]?.getD one) (ys[i]?.getD one) := by
  -- the position zero is the pair of heads, the others are positions in the tails
  induction xs generalizing ys with
  | nil => simp [hleft, mapM_range_getD]
  | cons x xs ih =>
      cases ys with
      | nil => simp only [pairUp_nil_right, List.length_nil, Nat.max_zero, List.getElem?_nil,
          Option.getD_none, hright, mapM_range_getD]
      | cons y ys =>
          rw [List.length_cons, List.length_cons, Nat.add_max_add_right, List.range_succ_eq_map,
            List.mapM_cons, List.mapM_map]
          simp only [pairUp, ih, Function.comp_def, List.getElem?_cons_zero, List.getElem?_cons_succ,
            Option.getD_some]

@[simp] theorem Extents.pair?_one_left (n : UInt64) : pair? 1 n = some n := by
  unfold pair?
  split
  · grind
  · simp

@[simp] theorem Extents.pair?_one_right (m : UInt64) : pair? m 1 = some m := by
  simp [pair?]

@[simp] theorem Dim.broadcast_one (x : Dim) : Dim.broadcast x (some 1) = some x := by
  rw [Dim.broadcast_comm, Dim.one_broadcast]

/-- Concrete shapes broadcast by the same recursion as partly unknown ones. -/
theorem Extents.broadcast?_eq_alignRight (c d : Extents) : c.broadcast? d = alignRight pair? c d := by
  unfold alignRight
  rw [pairUp_eq_mapM pair? 1 pair?_one_left pair?_one_right, List.length_reverse, List.length_reverse]
  rfl

/-! ## From pairs to lists -/

section

variable {abs : α → α → Option α} {conc : β → β → Option β} {R : α → β → Prop}

/-- Where every related pair that combines on the right combines on the left, into related entries, so do
    related lists. -/
theorem pairUp_simulates
    (hpair : ∀ x y m n k, R x m → R y n → conc m n = some k → ∃ z, abs x y = some z ∧ R z k)
    {xs ys : List α} {ms ns ks : List β} (hx : List.Forall₂ R xs ms) (hy : List.Forall₂ R ys ns)
    (hk : pairUp conc ms ns = some ks) :
    ∃ zs, pairUp abs xs ys = some zs ∧ List.Forall₂ R zs ks := by
  -- the first lists are related entry by entry; the second ones may end before them or go on
  induction hx generalizing ys ns ks with
  | nil =>
      simp only [pairUp_nil, Option.some.injEq] at hk
      exact ⟨ys, pairUp_nil abs ys, hk ▸ hy⟩
  | @cons x m xs ms hxm hxs ih =>
      cases hy with
      | nil =>
          simp only [pairUp_nil_right, Option.some.injEq] at hk
          exact ⟨x :: xs, pairUp_nil_right abs _, hk ▸ .cons hxm hxs⟩
      | @cons y n ys ns hyn hys =>
          obtain ⟨k, rest, hmn, hrest, rfl⟩ := (pairUp_cons_eq_some_iff ..).mp hk
          obtain ⟨z, hz, hzk⟩ := hpair x y m n k hxm hyn hmn
          obtain ⟨zs, hzs, hrel⟩ := ih hys hrest
          exact ⟨z :: zs, (pairUp_cons_eq_some_iff ..).mpr ⟨z, zs, hz, hzs, rfl⟩, .cons hzk hrel⟩

/-- Where everything related to a combined entry comes from a pair that is related to the entries, the same
    goes for lists. -/
theorem pairUp_covers
    (hpair : ∀ x y z k, abs x y = some z → R z k → ∃ m n, R x m ∧ R y n ∧ conc m n = some k)
    {xs ys zs : List α} {ks : List β} (hz : pairUp abs xs ys = some zs) (hk : List.Forall₂ R zs ks) :
    ∃ ms ns, List.Forall₂ R xs ms ∧ List.Forall₂ R ys ns ∧ pairUp conc ms ns = some ks := by
  induction xs generalizing ys zs ks with
  | nil =>
      simp only [pairUp_nil, Option.some.injEq] at hz
      exact ⟨[], ks, .nil, hz ▸ hk, pairUp_nil conc ks⟩
  | cons x xs ih =>
      cases ys with
      | nil =>
          simp only [pairUp_nil_right, Option.some.injEq] at hz
          exact ⟨ks, [], hz ▸ hk, .nil, pairUp_nil_right conc ks⟩
      | cons y ys =>
          obtain ⟨z, rest, hxy, hrest, rfl⟩ := (pairUp_cons_eq_some_iff ..).mp hz
          cases hk with
          | @cons _ k _ ks hzk hks =>
              obtain ⟨m, n, hm, hn, hmn⟩ := hpair x y z k hxy hzk
              obtain ⟨ms, ns, hms, hns, hall⟩ := ih hrest hks
              exact ⟨m :: ms, n :: ns, .cons hm hms, .cons hn hns,
                (pairUp_cons_eq_some_iff ..).mpr ⟨k, ks, hmn, hall, rfl⟩⟩

theorem alignRight_simulates
    (hpair : ∀ x y m n k, R x m → R y n → conc m n = some k → ∃ z, abs x y = some z ∧ R z k)
    {xs ys : List α} {ms ns ks : List β} (hx : List.Forall₂ R xs ms) (hy : List.Forall₂ R ys ns)
    (hk : alignRight conc ms ns = some ks) :
    ∃ zs, alignRight abs xs ys = some zs ∧ List.Forall₂ R zs ks := by
  obtain ⟨zs, hzs, hrel⟩ := pairUp_simulates hpair (List.forall₂_reverse_iff.mpr hx)
    (List.forall₂_reverse_iff.mpr hy) (alignRight_eq_some_iff.mp hk)
  refine ⟨zs.reverse, ?_, ?_⟩
  · rw [alignRight_eq_some_iff, hzs, List.reverse_reverse]
  · rw [← List.forall₂_reverse_iff, List.reverse_reverse]
    exact hrel

theorem alignRight_covers
    (hpair : ∀ x y z k, abs x y = some z → R z k → ∃ m n, R x m ∧ R y n ∧ conc m n = some k)
    {xs ys zs : List α} {ks : List β} (hz : alignRight abs xs ys = some zs) (hk : List.Forall₂ R zs ks) :
    ∃ ms ns, List.Forall₂ R xs ms ∧ List.Forall₂ R ys ns ∧ alignRight conc ms ns = some ks := by
  obtain ⟨ms, ns, hms, hns, hall⟩ := pairUp_covers hpair (alignRight_eq_some_iff.mp hz)
    (List.forall₂_reverse_iff.mpr hk)
  refine ⟨ms.reverse, ns.reverse, ?_, ?_, ?_⟩
  · rw [← List.forall₂_reverse_iff, List.reverse_reverse]
    exact hms
  · rw [← List.forall₂_reverse_iff, List.reverse_reverse]
    exact hns
  · rw [alignRight_eq_some_iff, List.reverse_reverse, List.reverse_reverse, hall]

/-- Entries that stand for others and combine as these do. -/
theorem pairUp_map {f : β → α} (hpair : ∀ m n, abs (f m) (f n) = (conc m n).map f) (ms ns : List β) :
    pairUp abs (ms.map f) (ns.map f) = (pairUp conc ms ns).map (List.map f) := by
  induction ms generalizing ns with
  | nil => simp
  | cons m ms ih =>
      cases ns with
      | nil => simp
      | cons n ns =>
          simp only [List.map_cons, pairUp, hpair, ih]
          cases conc m n <;> cases pairUp conc ms ns <;> rfl

theorem alignRight_map {f : β → α} (hpair : ∀ m n, abs (f m) (f n) = (conc m n).map f)
    (ms ns : List β) :
    alignRight abs (ms.map f) (ns.map f) = (alignRight conc ms ns).map (List.map f) := by
  unfold alignRight
  rw [← List.map_reverse, ← List.map_reverse, pairUp_map hpair, Option.map_map, Option.map_map]
  congr 1
  funext ks
  exact (List.map_reverse).symm

/-- A pointwise relation between lists, said of their pairs. -/
theorem forall₂_iff_zip_mem {xs : List α} {ms : List β} :
    List.Forall₂ R xs ms ↔ xs.length = ms.length ∧ ∀ p ∈ xs.zip ms, R p.1 p.2 := by
  rw [List.forall₂_iff_zip]
  constructor
  · rintro ⟨hlen, hall⟩
    exact ⟨hlen, fun p hp => hall hp⟩
  · rintro ⟨hlen, hall⟩
    exact ⟨hlen, fun {x m} h => hall (x, m) h⟩

theorem length_of_pairUp {pair : α → α → Option α} {xs ys zs : List α}
    (h : pairUp pair xs ys = some zs) : zs.length = max xs.length ys.length := by
  induction xs generalizing ys zs with
  | nil => simp_all
  | cons x xs ih =>
      cases ys with
      | nil => simp_all
      | cons y ys =>
          obtain ⟨z, rest, -, hrest, rfl⟩ := (pairUp_cons_eq_some_iff ..).mp h
          rw [List.length_cons, List.length_cons, List.length_cons, ih hrest, Nat.add_max_add_right]

end

/-! ## The loop from the left -/

/-- The dimension that a loop over `ndim` positions from the left reads at a position, when the dimensions
    are aligned at their right end and a missing leading one counts as one. It is `none` when the index
    that is computed is out of range. -/
def Shape.readAt (dims : List Dim) (ndim position : Nat) : Option Dim :=
  if ndim - position ≤ dims.length then dims[dims.length - (ndim - position)]? else some (some 1)

/-- The loop over all positions from the left. -/
def Shape.broadcastDims (a b : List Dim) : Option (List Dim) :=
  let ndim := max a.length b.length
  (List.range ndim).mapM fun i => do
    let x ← readAt a ndim i
    let y ← readAt b ndim i
    Dim.broadcast x y

/-- What stands at a position from the left stands at the mirrored position of the reversed list. -/
theorem Shape.readAt_eq (dims : List Dim) {ndim position : Nat} (h : position < ndim) :
    readAt dims ndim position = some (dims.reverse[ndim - 1 - position]?.getD (some 1)) := by
  unfold readAt
  split
  -- the index is in range, and mirrored it is the position from the other end
  · rename_i hle
    have hpos : ndim - 1 - position < dims.length := by omega
    have hindex : dims.length - 1 - (ndim - 1 - position) = dims.length - (ndim - position) := by omega
    have hlt : dims.length - (ndim - position) < dims.length := by omega
    rw [List.getElem?_reverse hpos, hindex, List.getElem?_eq_getElem hlt, Option.getD_some]
  -- a leading dimension that is missing
  · rename_i hle
    have hout : dims.reverse.length ≤ ndim - 1 - position := by
      rw [List.length_reverse]
      omega
    rw [List.getElem?_eq_none hout, Option.getD_none]

/-- No position of the loop reads out of range. -/
theorem Shape.isSome_readAt (dims : List Dim) {ndim position : Nat} (h : position < ndim) :
    (readAt dims ndim position).isSome := by
  rw [readAt_eq dims h, Option.isSome_some]

theorem mapM_reverse (f : α → Option β) (xs : List α) :
    xs.reverse.mapM f = (xs.mapM f).map List.reverse := by
  induction xs with
  | nil => rfl
  | cons x xs ih =>
      rw [List.reverse_cons, List.mapM_append, ih, List.mapM_cons]
      cases hx : f x <;> cases hxs : xs.mapM f <;> simp [hx, hxs]

theorem mapM_congr_of_mem {f g : α → Option β} {xs : List α} (h : ∀ x ∈ xs, f x = g x) :
    xs.mapM f = xs.mapM g := by
  induction xs with
  | nil => rfl
  | cons x xs ih =>
      have hhead : f x = g x := h x List.mem_cons_self
      have htail : xs.mapM f = xs.mapM g := ih fun y hy => h y (List.mem_cons_of_mem x hy)
      rw [List.mapM_cons, List.mapM_cons, hhead, htail]

theorem reverse_range (n : Nat) : (List.range n).reverse = (List.range n).map fun i => n - 1 - i := by
  simp [List.range_eq_range', List.reverse_range']

/-- The loop from the left and the recursion from the right give the same. -/
theorem Shape.broadcastDims_eq (a b : List Dim) :
    broadcastDims a b = alignRight Dim.broadcast a b := by
  unfold alignRight
  rw [pairUp_eq_mapM Dim.broadcast (some 1) Dim.one_broadcast Dim.broadcast_one, ← mapM_reverse,
    List.length_reverse, List.length_reverse, reverse_range, List.mapM_map]
  -- both are loops from the left now, and they read the same entries
  apply mapM_congr_of_mem
  intro i hi
  have hlt : i < max a.length b.length := List.mem_range.mp hi
  rw [readAt_eq a hlt, readAt_eq b hlt]
  rfl

end GateGraph
