import GateGraph.Proofs.Shape.Alignment

/-!
# `GateGraph.Proofs.Shape.Broadcast` — broadcasting of partly unknown shapes is exact

A shape stands for the concrete shapes that it admits, and two shapes for the concrete results that their
tensors may give. This file compares that set of results with the one shape that broadcasting computes.

## Contents
- `Extents.broadcast?_comm`, `broadcast?_self`, `exists_long_broadcast?`.
- `Dim.exists_broadcast`, `Dim.exists_pair?`: the two directions, for one pair of dimensions.
- `Shape.Results`, and `Results.exists_broadcast`, `results_of_admits`: the two directions, for shapes;
  `broadcast_eq_none_iff`.
- `exists_long_results`: with an open rank the results have no bound in length, so no shape with a known
  rank admits them all.
- `Shape.broadcast_exact`, the main theorem.
-/

namespace GateGraph

/-! ## Concrete broadcasting -/

namespace Extents

theorem pair?_comm (m n : UInt64) : pair? m n = pair? n m := by
  unfold pair?
  grind

theorem broadcast?_comm (c d : Extents) : c.broadcast? d = d.broadcast? c := by
  unfold broadcast?
  rw [Nat.max_comm]
  simp only [pair?_comm]

theorem broadcast?_self (c : Extents) : c.broadcast? c = some c := by
  have hself : ∀ d : Extents, pairUp pair? d d = some d := by
    intro d
    induction d with
    | nil => rfl
    | cons n rest ih => exact (pairUp_cons_eq_some_iff ..).mpr ⟨n, rest, by simp [pair?], ih, rfl⟩
  rw [broadcast?_eq_alignRight, alignRight_eq_some_iff, hself]

theorem exists_pairUp_ones (n : Nat) (d : Extents) :
    ∃ e, pairUp pair? (List.replicate n 1) d = some e := by
  induction n generalizing d with
  | zero => exact ⟨d, pairUp_nil pair? d⟩
  | succ n ih =>
      cases d with
      | nil => exact ⟨_, pairUp_nil_right pair? _⟩
      | cons k d =>
          obtain ⟨e, he⟩ := ih d
          exact ⟨k :: e, (pairUp_cons_eq_some_iff ..).mpr ⟨k, e, pair?_one_left k, he, rfl⟩⟩

/-- Every concrete shape broadcasts to one that is as long as we like: with as many ones. -/
theorem exists_long_broadcast? (d : Extents) (n : Nat) :
    ∃ c e, broadcast? c d = some e ∧ n ≤ e.length := by
  obtain ⟨e, he⟩ := exists_pairUp_ones n d.reverse
  refine ⟨List.replicate n 1, e.reverse, ?_, ?_⟩
  · rw [broadcast?_eq_alignRight, alignRight_eq_some_iff, List.reverse_replicate, List.reverse_reverse,
      he]
  · have hlen : e.length = max (List.replicate n (1 : UInt64)).length d.reverse.length :=
      length_of_pairUp he
    rw [List.length_replicate] at hlen
    rw [List.length_reverse, hlen]
    exact Nat.le_max_left ..

end Extents

/-! ## One pair of dimensions -/

/-- Dimensions whose extents combine do broadcast, and to a dimension that admits what comes out. -/
theorem Dim.exists_broadcast {x y : Dim} {m n k : UInt64} (hx : x.Admits m) (hy : y.Admits n)
    (hk : Extents.pair? m n = some k) : ∃ z, Dim.broadcast x y = some z ∧ z.Admits k := by
  unfold Extents.pair? at hk
  rcases hx with rfl | rfl <;> rcases hy with rfl | rfl
  · exact ⟨none, rfl, Or.inl rfl⟩
  · by_cases hn : n = 1
    · exact ⟨none, by simp [Dim.broadcast, hn], Or.inl rfl⟩
    · exact ⟨some n, by simp [Dim.broadcast, hn], Or.inr (by grind)⟩
  · by_cases hm : m = 1
    · exact ⟨none, by simp [Dim.broadcast, hm], Or.inl rfl⟩
    · exact ⟨some m, by simp [Dim.broadcast, hm], Or.inr (by grind)⟩
  · refine ⟨some k, ?_, Or.inr rfl⟩
    simp only [Dim.broadcast]
    grind

/-- Every extent that a broadcast dimension admits comes from extents of the two. -/
theorem Dim.exists_pair? {x y z : Dim} {k : UInt64} (hz : Dim.broadcast x y = some z)
    (hk : z.Admits k) : ∃ m n, x.Admits m ∧ y.Admits n ∧ Extents.pair? m n = some k := by
  cases x with
  | none =>
      cases y with
      | none => exact ⟨k, k, Or.inl rfl, Or.inl rfl, by simp [Extents.pair?]⟩
      | some n =>
          by_cases hn : n = 1
          -- a one gives way to any extent, so the open dimension supplies it
          · subst hn
            exact ⟨k, 1, Or.inl rfl, Or.inr rfl, Extents.pair?_one_right k⟩
          -- any other extent is kept, and the open dimension may have it as well
          · have hkn : k = n := by
              simp only [Dim.broadcast, if_neg hn, Option.some.injEq] at hz
              subst hz
              simpa [Dim.Admits, eq_comm] using hk
            exact ⟨n, n, Or.inl rfl, Or.inr rfl, by simp [Extents.pair?, hkn]⟩
  | some m =>
      cases y with
      | none =>
          by_cases hm : m = 1
          · subst hm
            exact ⟨1, k, Or.inr rfl, Or.inl rfl, Extents.pair?_one_left k⟩
          · have hkm : k = m := by
              simp only [Dim.broadcast, if_neg hm, Option.some.injEq] at hz
              subst hz
              simpa [Dim.Admits, eq_comm] using hk
            exact ⟨m, m, Or.inr rfl, Or.inl rfl, by simp [Extents.pair?, hkm]⟩
      | some n =>
          refine ⟨m, n, Or.inr rfl, Or.inr rfl, ?_⟩
          simp only [Dim.broadcast] at hz
          unfold Dim.Admits at hk
          unfold Extents.pair?
          grind

/-! ## The concrete results of two shapes -/

namespace Shape

theorem admits_ranked_iff (dims : List Dim) (c : Extents) :
    (ranked dims).Admits c ↔ List.Forall₂ Dim.Admits dims c := forall₂_iff_zip_mem.symm

/-- A concrete shape that two tensors may give whose shapes the two shapes admit. -/
def Results (a b : Shape) (e : Extents) : Prop :=
  ∃ c d, a.Admits c ∧ b.Admits d ∧ Extents.broadcast? c d = some e

/-- If there is a result, the shapes broadcast, and to a shape that admits it. -/
theorem Results.exists_broadcast {a b : Shape} {e : Extents} (h : Results a b e) :
    ∃ s, broadcast a b = some s ∧ s.Admits e := by
  obtain ⟨c, d, hc, hd, he⟩ := h
  cases a with
  | unranked => exact ⟨unranked, rfl, trivial⟩
  | ranked as =>
      cases b with
      | unranked => exact ⟨unranked, rfl, trivial⟩
      | ranked bs =>
          rw [admits_ranked_iff] at hc hd
          rw [Extents.broadcast?_eq_alignRight] at he
          obtain ⟨zs, hzs, hrel⟩ := alignRight_simulates
            (fun x y m n k hx hy hk => Dim.exists_broadcast hx hy hk) hc hd he
          refine ⟨ranked zs, ?_, (admits_ranked_iff zs e).mpr hrel⟩
          rw [broadcast_ranked, hzs, Option.map_some]

theorem Results.admits {a b s : Shape} {e : Extents} (h : Results a b e) (hs : broadcast a b = some s) :
    s.Admits e := by
  obtain ⟨s', hs', hadmits⟩ := h.exists_broadcast
  rw [hs, Option.some.injEq] at hs'
  rw [hs']
  exact hadmits

/-- With known ranks, all that the broadcast shape admits is a result. -/
theorem results_of_admits {as bs : List Dim} {s : Shape} {e : Extents}
    (hs : broadcast (ranked as) (ranked bs) = some s) (he : s.Admits e) :
    Results (ranked as) (ranked bs) e := by
  rw [broadcast_ranked, Option.map_eq_some_iff] at hs
  obtain ⟨zs, hzs, rfl⟩ := hs
  rw [admits_ranked_iff] at he
  obtain ⟨c, d, hc, hd, hcd⟩ := alignRight_covers (fun x y z k => Dim.exists_pair?) hzs he
  refine ⟨c, d, (admits_ranked_iff as c).mpr hc, (admits_ranked_iff bs d).mpr hd, ?_⟩
  rw [Extents.broadcast?_eq_alignRight, hcd]

theorem admits_iff_results {a b s : Shape} (ha : a.isStatic) (hb : b.isStatic)
    (hs : broadcast a b = some s) (e : Extents) : s.Admits e ↔ Results a b e := by
  cases a with
  | unranked => exact absurd ha (by decide)
  | ranked as =>
      cases b with
      | unranked => exact absurd hb (by decide)
      | ranked bs => exact ⟨results_of_admits hs, fun h => h.admits hs⟩

theorem exists_admits (s : Shape) : ∃ c, s.Admits c := by
  cases s with
  | unranked => exact ⟨[], trivial⟩
  | ranked dims =>
      -- an open dimension admits every extent, zero for one
      refine ⟨dims.map fun d => d.getD 0, (admits_ranked_iff ..).mpr ?_⟩
      induction dims with
      | nil => exact .nil
      | cons d dims ih =>
          refine .cons ?_ ih
          cases d with
          | none => exact Or.inl rfl
          | some n => exact Or.inr rfl

/-- Shapes that broadcast have a result. -/
theorem exists_results {a b s : Shape} (hs : broadcast a b = some s) : ∃ e, Results a b e := by
  cases a with
  -- an operand of open rank may turn out to have the shape of the other one
  | unranked =>
      obtain ⟨d, hd⟩ := exists_admits b
      exact ⟨d, d, d, trivial, hd, Extents.broadcast?_self d⟩
  | ranked as =>
      cases b with
      | unranked =>
          obtain ⟨c, hc⟩ := exists_admits (ranked as)
          exact ⟨c, c, c, hc, trivial, Extents.broadcast?_self c⟩
      | ranked bs =>
          obtain ⟨e, he⟩ := exists_admits s
          exact ⟨e, results_of_admits hs he⟩

/-- **Shapes fail to broadcast exactly if no tensors of these shapes broadcast.** -/
theorem broadcast_eq_none_iff (a b : Shape) : broadcast a b = none ↔ ∀ e, ¬ Results a b e := by
  constructor
  · intro hnone e he
    obtain ⟨s, hs, -⟩ := he.exists_broadcast
    rw [hnone] at hs
    cases hs
  · intro hall
    cases hs : broadcast a b with
    | none => rfl
    | some s =>
        obtain ⟨e, he⟩ := exists_results hs
        exact absurd he (hall e)

/-! ## Shapes of open rank -/

theorem Results.symm {a b : Shape} {e : Extents} (h : Results a b e) : Results b a e := by
  obtain ⟨c, d, hc, hd, he⟩ := h
  exact ⟨d, c, hd, hc, by rw [Extents.broadcast?_comm]; exact he⟩

/-- With an operand of open rank there are results of any length. -/
theorem exists_long_results {a b : Shape} (h : a = unranked ∨ b = unranked) (n : Nat) :
    ∃ e, Results a b e ∧ n ≤ e.length := by
  rcases h with rfl | rfl
  · obtain ⟨d, hd⟩ := exists_admits b
    obtain ⟨c, e, he, hlen⟩ := Extents.exists_long_broadcast? d n
    exact ⟨e, ⟨c, d, trivial, hd, he⟩, hlen⟩
  · obtain ⟨d, hd⟩ := exists_admits a
    obtain ⟨c, e, he, hlen⟩ := Extents.exists_long_broadcast? d n
    exact ⟨e, Results.symm ⟨c, d, trivial, hd, he⟩, hlen⟩

/-- A shape that admits concrete shapes of any length has an open rank. -/
theorem eq_unranked_of_admits_long {t : Shape} (h : ∀ n, ∃ e : Extents, t.Admits e ∧ n ≤ e.length) :
    t = unranked := by
  cases t with
  | unranked => rfl
  | ranked dims =>
      obtain ⟨e, he, hlen⟩ := h (dims.length + 1)
      have heq : dims.length = e.length := he.1
      omega

/-- A broadcast shape is within every shape that admits all results. -/
theorem admits_of_covers {a b s t : Shape} (hs : broadcast a b = some s)
    (ht : ∀ e, Results a b e → t.Admits e) (e : Extents) (he : s.Admits e) : t.Admits e := by
  by_cases hopen : a = unranked ∨ b = unranked
  -- nothing is known of the results, not even their lengths
  · have htop : t = unranked := by
      apply eq_unranked_of_admits_long
      intro n
      obtain ⟨e', he', hlen⟩ := exists_long_results hopen n
      exact ⟨e', ht e' he', hlen⟩
    rw [htop]
    trivial
  -- what the shape admits is a result, so a shape that misses it does not cover
  · cases a with
    | unranked => exact absurd (Or.inl rfl) hopen
    | ranked as =>
        cases b with
        | unranked => exact absurd (Or.inr rfl) hopen
        | ranked bs => exact ht e (results_of_admits hs he)

/-! ## The main theorem -/

/-- **Broadcasting of shapes is the tightest account of broadcasting of tensors.**
    * It fails exactly when no two tensors of these shapes broadcast.
    * The shape that it gives admits every result, and whatever else admits every result admits all that
      this shape does.
    * With both ranks known the shape admits the results and nothing else.
    * Computed as a loop from the left, it never reads beyond the end of a list of dimensions. -/
theorem broadcast_exact (a b : Shape) :
    (broadcast a b = none ↔
      ∀ c d, a.Admits c → b.Admits d → Extents.broadcast? c d = none) ∧
    (∀ s, broadcast a b = some s →
      (∀ e, Results a b e → s.Admits e) ∧
      (∀ t : Shape, (∀ e, Results a b e → t.Admits e) → ∀ e, s.Admits e → t.Admits e) ∧
      (a.isStatic → b.isStatic → ∀ e, s.Admits e ↔ Results a b e)) ∧
    (∀ as bs, a = ranked as → b = ranked bs →
      (∀ i < max as.length bs.length,
        (readAt as (max as.length bs.length) i).isSome ∧
        (readAt bs (max as.length bs.length) i).isSome) ∧
      broadcast a b = (broadcastDims as bs).map ranked) := by
  refine ⟨?_, ?_, ?_⟩
  · rw [broadcast_eq_none_iff]
    constructor
    · intro hall c d hc hd
      rw [Option.eq_none_iff_forall_ne_some]
      intro e he
      exact hall e ⟨c, d, hc, hd, he⟩
    · rintro hall e ⟨c, d, hc, hd, he⟩
      rw [hall c d hc hd] at he
      cases he
  · intro s hs
    exact ⟨fun e he => he.admits hs, fun t ht => admits_of_covers hs ht,
      fun ha hb => admits_iff_results ha hb hs⟩
  · rintro as bs rfl rfl
    refine ⟨fun i hi => ⟨isSome_readAt as hi, isSome_readAt bs hi⟩, ?_⟩
    rw [broadcast_ranked, broadcastDims_eq]

example : broadcast (ranked [none, some 32]) (ranked [some 8, some 1]) = some (fixed [8, 32]) := by decide

end Shape

end GateGraph
