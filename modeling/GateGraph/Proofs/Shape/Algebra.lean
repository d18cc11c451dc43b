import GateGraph.Proofs.Shape.Alignment
import Mathlib.Data.List.Perm.Basic
import Mathlib.Data.Option.NAry

/-!
# `GateGraph.Proofs.Shape.Algebra` — broadcasting more than two shapes

A gate sums up several terms, two at a time. This module says when it does not matter in which order and in
which groups that is done. Of a pair of dimensions, one gives way to an open dimension, and this gives way to
any other extent; two such extents have to be equal. So broadcasting is a join of what the dimensions say,
and fails where there is none. It is associative as long as all ranks are known, failures included.

An open rank is different: it hides a failure. With shapes `[...]`, `[2]` and `[3]` it depends on the groups
whether there is a result. Yet if there is one in both ways, it is the same.

## Contents
- `Dim.broadcast_assoc`; `pairUp_assoc` and `alignRight_assoc`, from entries to lists.
- `Shape.broadcast_comm`, `broadcast_self`, `broadcast_assoc`, `broadcast_regroup`.
- `Grouping`, a way to put terms together two at a time, and `Grouping.result?_eq_of_perm`.
-/

namespace GateGraph

/-! ## One pair of dimensions -/

namespace Dim

/-- An open dimension gives way to whatever stands beside it, unless that is one. -/
theorem none_broadcast {y : Dim} (hy : y ≠ some 1) : Dim.broadcast none y = some y := by
  cases y with
  | none => rfl
  | some n =>
      have hn : n ≠ 1 := fun h => hy (congrArg some h)
      simp only [Dim.broadcast, if_neg hn]

theorem broadcast_none {x : Dim} (hx : x ≠ some 1) : Dim.broadcast x none = some x := by
  rw [Dim.broadcast_comm, none_broadcast hx]

/-- Extents other than one have to be equal. -/
theorem some_broadcast_some {m n : UInt64} (hm : some m ≠ some 1) (hn : some n ≠ some 1) :
    Dim.broadcast (some m) (some n) = if m = n then some (some m) else none := by
  have hm' : m ≠ 1 := fun h => hm (congrArg some h)
  have hn' : n ≠ 1 := fun h => hn (congrArg some h)
  simp only [Dim.broadcast, if_neg hm', if_neg hn']

/-- Ones come from ones only. -/
theorem ne_one_of_broadcast {x y z : Dim} (hx : x ≠ some 1) (hy : y ≠ some 1)
    (hz : Dim.broadcast x y = some z) : z ≠ some 1 := by
  cases x with
  | none =>
      rw [none_broadcast hy] at hz
      exact Option.some.inj hz ▸ hy
  | some m =>
      cases y with
      | none =>
          rw [broadcast_none hx] at hz
          exact Option.some.inj hz ▸ hx
      | some n =>
          rw [some_broadcast_some hx hy] at hz
          split at hz
          · exact Option.some.inj hz ▸ hx
          · cases hz

/-- So an open dimension makes no difference to a pair without ones. -/
theorem bind_none_broadcast {x y : Dim} (hx : x ≠ some 1) (hy : y ≠ some 1) :
    (Dim.broadcast x y).bind (Dim.broadcast none) = Dim.broadcast x y := by
  cases hz : Dim.broadcast x y with
  | none => rfl
  | some z => exact none_broadcast (ne_one_of_broadcast hx hy hz)

/-- **Three dimensions may be grouped as one likes.** -/
theorem broadcast_assoc (x y z : Dim) :
    (Dim.broadcast x y).bind (Dim.broadcast · z) = (Dim.broadcast y z).bind (Dim.broadcast x) := by
  by_cases hx : x = some 1
  · have hneutral : Dim.broadcast (some 1) = some := funext one_broadcast
    rw [hx, one_broadcast, Option.bind_some, hneutral, Option.bind_fun_some]
  by_cases hy : y = some 1
  · rw [hy, broadcast_one, one_broadcast, Option.bind_some, Option.bind_some]
  by_cases hz : z = some 1
  · have hneutral : (Dim.broadcast · (some 1)) = some := funext broadcast_one
    rw [hz, broadcast_one, Option.bind_some, hneutral, Option.bind_fun_some]
  -- without ones, open dimensions give way and the extents among the three have to be equal
  cases x with
  | none => rw [none_broadcast hy, Option.bind_some, bind_none_broadcast hy hz]
  | some m =>
      cases y with
      | none => rw [broadcast_none hx, none_broadcast hz, Option.bind_some, Option.bind_some]
      | some n =>
          cases z with
          | none =>
              have hcomm : (Dim.broadcast · none) = Dim.broadcast none := funext (Dim.broadcast_comm · none)
              rw [hcomm, bind_none_broadcast hx hy, broadcast_none hy, Option.bind_some]
          | some k =>
              rw [some_broadcast_some hx hy, some_broadcast_some hy hz]
              by_cases hmn : m = n
              · subst hmn
                rw [if_pos rfl, Option.bind_some, some_broadcast_some hx hz]
                by_cases hmk : m = k
                · rw [if_pos hmk, Option.bind_some, some_broadcast_some hx hy, if_pos rfl]
                · rw [if_neg hmk, Option.bind_none]
              · rw [if_neg hmn, Option.bind_none]
                by_cases hnk : n = k
                · rw [if_pos hnk, Option.bind_some, some_broadcast_some hx hy, if_neg hmn]
                · rw [if_neg hnk, Option.bind_none]

end Dim

/-! ## From entries to lists -/

section

variable {α : Type} {pair : α → α → Option α}

theorem pairUp_cons (pair : α → α → Option α) (x y : α) (xs ys : List α) :
    pairUp pair (x :: xs) (y :: ys) = Option.map₂ List.cons (pair x y) (pairUp pair xs ys) := by
  simp only [pairUp]
  cases pair x y <;> cases pairUp pair xs ys <;> rfl

/-- Lists that are combined with a third one go on being combined entry by entry. -/
theorem bind_map₂_cons {f : α → Option α} {F G : List α → Option (List α)} {z : Option α}
    {zs : Option (List α)} (h : ∀ x xs, F (x :: xs) = Option.map₂ List.cons (f x) (G xs)) :
    (Option.map₂ List.cons z zs).bind F = Option.map₂ List.cons (z.bind f) (zs.bind G) := by
  cases z with
  | none => rfl
  | some x =>
      cases zs with
      | none => exact (Option.map₂_none_right _ _).symm
      | some xs => exact h x xs

/-- Where three entries may be grouped as one likes, so may three lists. -/
theorem pairUp_assoc (hpair : ∀ x y z, (pair x y).bind (pair · z) = (pair y z).bind (pair x))
    (xs ys zs : List α) :
    (pairUp pair xs ys).bind (pairUp pair · zs) = (pairUp pair ys zs).bind (pairUp pair xs) := by
  -- once one of the lists has ended, two are left to be combined
  induction xs generalizing ys zs with
  | nil =>
      have hneutral : pairUp pair [] = some := funext (pairUp_nil pair)
      rw [pairUp_nil, Option.bind_some, hneutral, Option.bind_fun_some]
  | cons x xs ih =>
      cases ys with
      | nil => rw [pairUp_nil_right, pairUp_nil, Option.bind_some, Option.bind_some]
      | cons y ys =>
          cases zs with
          | nil =>
              have hneutral : (pairUp pair · []) = some := funext (pairUp_nil_right pair)
              rw [pairUp_nil_right, Option.bind_some, hneutral, Option.bind_fun_some]
          | cons z zs =>
              rw [pairUp_cons, pairUp_cons,
                bind_map₂_cons (f := (pair · z)) fun w ws => pairUp_cons pair w z ws zs,
                bind_map₂_cons (f := pair x) fun w ws => pairUp_cons pair x w xs ws, hpair, ih]

theorem alignRight_assoc (hpair : ∀ x y z, (pair x y).bind (pair · z) = (pair y z).bind (pair x))
    (xs ys zs : List α) :
    (alignRight pair xs ys).bind (alignRight pair · zs) =
      (alignRight pair ys zs).bind (alignRight pair xs) := by
  have hassoc := congrArg (Option.map List.reverse) (pairUp_assoc hpair xs.reverse ys.reverse zs.reverse)
  simpa only [alignRight, Option.bind_map, Option.map_bind, Function.comp_def, List.reverse_reverse]
    using hassoc

end

/-! ## Shapes -/

namespace Shape

theorem broadcast_comm (a b : Shape) : broadcast a b = broadcast b a := by
  cases a with
  | unranked => cases b <;> rfl
  | ranked xs =>
      cases b with
      | unranked => rfl
      | ranked ys => simp only [broadcast, broadcastFromLast_comm]

theorem broadcast_self (a : Shape) : broadcast a a = some a := by
  cases a with
  | unranked => rfl
  | ranked xs => simp only [broadcast, broadcastFromLast_self, Option.map_some, List.reverse_reverse]

/-- The shape without dimensions is neutral. -/
theorem scalar_broadcast (a : Shape) : broadcast (fixed []) a = some a := by
  cases a with
  | unranked => rfl
  | ranked xs =>
      have hfixed : fixed [] = ranked [] := rfl
      rw [hfixed, broadcast_ranked, alignRight, List.reverse_nil, pairUp_nil, Option.map_some,
        List.reverse_reverse, Option.map_some]

theorem broadcast_scalar (a : Shape) : broadcast a (fixed []) = some a := by
  rw [broadcast_comm, scalar_broadcast]

/-- A result has an open rank when one of the two shapes has. -/
theorem broadcast_eq_unranked_iff {a b s : Shape} (h : broadcast a b = some s) :
    s = unranked ↔ a = unranked ∨ b = unranked := by
  cases a with
  | unranked =>
      cases h
      simp
  | ranked xs =>
      cases b with
      | unranked =>
          cases h
          simp
      | ranked ys =>
          rw [broadcast_ranked, Option.map_eq_some_iff] at h
          obtain ⟨zs, -, rfl⟩ := h
          simp

theorem exists_ranked_of_isStatic {s : Shape} (h : s.isStatic) : ∃ dims, s = ranked dims := by
  cases s with
  | unranked => exact absurd h (by decide)
  | ranked dims => exact ⟨dims, rfl⟩

/-- **Three shapes with known ranks may be grouped as one likes**, even if they do not all broadcast. -/
theorem broadcast_assoc {a b c : Shape} (ha : a.isStatic) (hb : b.isStatic) (hc : c.isStatic) :
    (broadcast a b).bind (broadcast · c) = (broadcast b c).bind (broadcast a) := by
  obtain ⟨xs, rfl⟩ := exists_ranked_of_isStatic ha
  obtain ⟨ys, rfl⟩ := exists_ranked_of_isStatic hb
  obtain ⟨zs, rfl⟩ := exists_ranked_of_isStatic hc
  have hassoc := congrArg (Option.map ranked) (alignRight_assoc Dim.broadcast_assoc xs ys zs)
  simpa only [broadcast_ranked, Option.bind_map, Option.map_bind, Function.comp_def] using hassoc

/-- **Whatever the ranks are, two groupings that both give a shape give the same one.** -/
theorem broadcast_regroup {a b c s t : Shape} (hs : (broadcast a b).bind (broadcast · c) = some s)
    (ht : (broadcast b c).bind (broadcast a) = some t) : s = t := by
  by_cases hopen : a = unranked ∨ b = unranked ∨ c = unranked
  -- an open rank stays to the end, in either grouping
  · obtain ⟨ab, hab, habc⟩ := Option.bind_eq_some_iff.mp hs
    obtain ⟨bc, hbc, habc'⟩ := Option.bind_eq_some_iff.mp ht
    have hs' : s = unranked := by
      rw [broadcast_eq_unranked_iff habc, broadcast_eq_unranked_iff hab, or_assoc]
      exact hopen
    have ht' : t = unranked := by
      rw [broadcast_eq_unranked_iff habc', broadcast_eq_unranked_iff hbc]
      exact hopen
    rw [hs', ht']
  · have hstatic : ∀ x : Shape, x ≠ unranked → x.isStatic := by
      intro x hx
      cases x with
      | unranked => exact absurd rfl hx
      | ranked _ => rfl
    simp only [not_or] at hopen
    rw [broadcast_assoc (hstatic a hopen.1) (hstatic b hopen.2.1) (hstatic c hopen.2.2), ht] at hs
    exact (Option.some.inj hs).symm

example : (broadcast unranked (fixed [2])).bind (broadcast · (fixed [3])) = some unranked ∧
    (broadcast (fixed [2]) (fixed [3])).bind (broadcast unranked) = none := by decide

end Shape

/-! ## Many shapes -/

/-- A way to put terms together, two at a time. -/
inductive Grouping (α : Type)
  | one (term : α)
  | both (left right : Grouping α)

namespace Grouping

variable {α β : Type}

/-- The terms, from the left to the right. -/
def terms : Grouping α → List α
  | one a => [a]
  | both l r => l.terms ++ r.terms

/-- The same groups of other terms. -/
def map (f : α → β) : Grouping α → Grouping β
  | one a => one (f a)
  | both l r => both (l.map f) (r.map f)

/-- The shape that is left in the end. -/
def result? : Grouping Shape → Option Shape
  | one s => some s
  | both l r => do
      let a ← l.result?
      let b ← r.result?
      Shape.broadcast a b

theorem result?_both (l r : Grouping Shape) :
    (both l r).result? = l.result?.bind fun a => r.result?.bind (Shape.broadcast a) := rfl

@[simp] theorem terms_map (f : α → β) (t : Grouping α) : (t.map f).terms = t.terms.map f := by
  induction t with
  | one a => rfl
  | both l r ihl ihr => simp only [map, terms, ihl, ihr, List.map_append]

/-- Dimensions that may be missing because a part of a sum has failed. -/
def join (p q : Option (List Dim)) : Option (List Dim) :=
  p.bind fun xs => q.bind (alignRight Dim.broadcast xs)

theorem join_comm (p q : Option (List Dim)) : join p q = join q p := by
  have halign : ∀ xs ys, alignRight Dim.broadcast xs ys = alignRight Dim.broadcast ys xs := by
    intro xs ys
    unfold alignRight
    rw [← Shape.broadcastFromLast_eq_pairUp, Shape.broadcastFromLast_comm,
      Shape.broadcastFromLast_eq_pairUp]
  cases p with
  | none => cases q <;> rfl
  | some xs =>
      cases q with
      | none => rfl
      | some ys => exact halign xs ys

theorem join_assoc (p q r : Option (List Dim)) : join (join p q) r = join p (join q r) := by
  cases p with
  | none => rfl
  | some xs =>
      cases q with
      | none => rfl
      | some ys =>
          cases r with
          | none =>
              simp only [join, Option.bind_some, Option.bind_none, Option.bind_fun_none]
          | some zs =>
              have hassoc := alignRight_assoc Dim.broadcast_assoc xs ys zs
              simpa only [join, Option.bind_some] using hassoc

@[simp] theorem join_nil (p : Option (List Dim)) : join p (some []) = p := by
  cases p with
  | none => rfl
  | some xs =>
      show alignRight Dim.broadcast xs [] = some xs
      rw [alignRight, List.reverse_nil, pairUp_nil_right, Option.map_some, List.reverse_reverse]

instance : Std.Commutative join := ⟨join_comm⟩

instance : Std.Associative join := ⟨join_assoc⟩

/-- What terms with known ranks come to, without groups. -/
def total? (shapes : List Shape) : Option (List Dim) := (shapes.map Shape.dims?).foldr join (some [])

theorem total?_append (xs ys : List Shape) : total? (xs ++ ys) = join (total? xs) (total? ys) := by
  unfold total?
  induction xs with
  | nil => rw [List.nil_append, List.map_nil, List.foldr_nil, join_comm, join_nil]
  | cons x xs ih => rw [List.cons_append, List.map_cons, List.map_cons, List.foldr_cons, List.foldr_cons,
      ih, join_assoc]

/-- **The groups do not matter**: with known ranks a sum is determined by the list of its terms. -/
theorem result?_eq_total? {t : Grouping Shape} (h : ∀ s ∈ t.terms, s.isStatic) :
    t.result? = (total? t.terms).map .ranked := by
  induction t with
  | one s =>
      obtain ⟨dims, rfl⟩ := Shape.exists_ranked_of_isStatic (h s List.mem_cons_self)
      show some (Shape.ranked dims) = (join (some dims) (some [])).map .ranked
      rw [join_nil, Option.map_some]
  | both l r ihl ihr =>
      have hl := ihl fun s hs => h s (List.mem_append_left _ hs)
      have hr := ihr fun s hs => h s (List.mem_append_right _ hs)
      rw [result?_both, hl, hr, terms, total?_append]
      simp only [join, Option.bind_map, Option.map_bind, Function.comp_def, Shape.broadcast_ranked]

/-- **Nor does the order.** -/
theorem result?_eq_of_perm {t u : Grouping Shape} (hperm : t.terms.Perm u.terms)
    (h : ∀ s ∈ t.terms, s.isStatic) : t.result? = u.result? := by
  have hu : ∀ s ∈ u.terms, s.isStatic := fun s hs => h s (hperm.mem_iff.mpr hs)
  have htotal : total? t.terms = total? u.terms := (hperm.map Shape.dims?).foldr_op_eq
  rw [result?_eq_total? h, result?_eq_total? hu, htotal]

/-- The terms of a list one after another, behind what is there. -/
def chain (t : Grouping α) (rest : List α) : Grouping α := rest.foldl (fun t a => both t (one a)) t

theorem terms_chain (t : Grouping α) (rest : List α) : (t.chain rest).terms = t.terms ++ rest := by
  induction rest generalizing t with
  | nil => exact (List.append_nil _).symm
  | cons a rest ih =>
      show ((both t (one a)).chain rest).terms = _
      rw [ih, terms, terms, List.append_assoc]
      rfl

/-- A chain of shapes comes to the same as folding the list. -/
theorem result?_chain (t : Grouping Shape) (rest : List Shape) :
    (t.chain rest).result? = t.result?.bind fun a => rest.foldlM Shape.broadcast a := by
  induction rest generalizing t with
  | nil => exact (Option.bind_fun_some _).symm
  | cons s rest ih =>
      show ((both t (one s)).chain rest).result? = _
      rw [ih, result?_both, Option.bind_assoc]
      rfl

/-- Folding a list of shapes with known ranks is one of the ways to sum them up, and all come to the same. -/
theorem result?_eq_foldlM {t : Grouping Shape} {first : Shape} {rest : List Shape}
    (hperm : t.terms.Perm (first :: rest)) (h : ∀ s ∈ first :: rest, s.isStatic) :
    t.result? = rest.foldlM Shape.broadcast first := by
  have hterms : ((one first).chain rest).terms = first :: rest := terms_chain _ _
  rw [result?_eq_of_perm (u := (one first).chain rest) (hterms ▸ hperm)
    (fun s hs => h s (hperm.mem_iff.mp hs)), result?_chain]
  rfl

end Grouping

end GateGraph
