import GateGraph.Proofs.Shape.Broadcast

/-!
# `GateGraph.Proofs.Shape.Refinement` — broadcasting when more is known

Whoever builds a graph may know more of its inputs at one time than at another. Broadcasting goes along with
that: operands that say more give a result that says more, and shapes that are known completely broadcast
just as the tensors do.

## Contents
- `getElem?_rel` and `exists_of_rel`: looking up an entry in two related lists.
- `Refines.admits`: a refined shape admits no more than before; `admits_of_fixed_refines`.
- `fixed_refines_iff`, `Refines.rank_eq` and `Refines.dim`: what becomes of ranks and dimensions.
- `Dim.broadcast_refines` and `Shape.broadcast_refines`: broadcasting is monotone in both operands.
- `Shape.broadcast_fixed`.
-/

namespace GateGraph

variable {α β : Type}

/-! ## Lists that are related entry by entry -/

theorem getElem?_rel {R : α → β → Prop} {xs : List α} {ys : List β} (h : List.Forall₂ R xs ys) (i : Nat) :
    Option.Rel R xs[i]? ys[i]? := by
  induction h generalizing i with
  | nil => exact .none
  | cons hxy _ ih =>
      cases i with
      | zero => exact .some hxy
      | succ i => exact ih i

theorem exists_of_rel {R : α → β → Prop} {x : α} {o : Option β} (h : Option.Rel R (some x) o) :
    ∃ y, o = some y ∧ R x y := by
  cases h with
  | some hxy => exact ⟨_, rfl, hxy⟩

/-! ## One pair of dimensions -/

theorem Dim.Refines.admits {x' x : Dim} {n : UInt64} (h : x'.Refines x) (hn : x'.Admits n) :
    x.Admits n := by
  rcases h with rfl | rfl
  · exact Or.inl rfl
  · exact hn

/-- An open dimension beside one that is kept as it is. -/
theorem Dim.none_broadcast_refines {x' y z' : Dim} (h : Dim.broadcast x' y = some z') :
    ∃ z, Dim.broadcast none y = some z ∧ z'.Refines z := by
  cases y with
  | none => exact ⟨none, rfl, Or.inl rfl⟩
  | some n =>
      by_cases hn : n = 1
      · refine ⟨none, ?_, Or.inl rfl⟩
        rw [hn, Dim.broadcast_one]
      · refine ⟨some n, by simp [Dim.broadcast, hn], Or.inr ?_⟩
        -- beside an extent other than one, whatever is there gives way to it
        cases x' with
        | none => simpa [Dim.broadcast, hn, eq_comm] using h
        | some m =>
            simp only [Dim.broadcast] at h
            grind

/-- **Dimensions that say more broadcast to one that says more**, and those that say less broadcast too. -/
theorem Dim.broadcast_refines {x' x y' y z' : Dim} (hx : x'.Refines x) (hy : y'.Refines y)
    (h : Dim.broadcast x' y' = some z') : ∃ z, Dim.broadcast x y = some z ∧ z'.Refines z := by
  rcases hx with rfl | rfl
  · rcases hy with rfl | rfl
    · exact ⟨none, rfl, Or.inl rfl⟩
    · exact none_broadcast_refines h
  · rcases hy with rfl | rfl
    · rw [Dim.broadcast_comm] at h
      obtain ⟨z, hz, hrefines⟩ := none_broadcast_refines h
      exact ⟨z, by rw [Dim.broadcast_comm, hz], hrefines⟩
    · exact ⟨z', h, Or.inr rfl⟩

theorem Dim.broadcast_some (m n : UInt64) :
    Dim.broadcast (some m) (some n) = (Extents.pair? m n).map some := by
  simp only [Dim.broadcast, Extents.pair?]
  grind

namespace Shape

/-! ## Shapes -/

theorem refines_ranked_iff (xs ys : List Dim) :
    (ranked xs).Refines (ranked ys) ↔ List.Forall₂ Dim.Refines xs ys := forall₂_iff_zip_mem.symm

theorem refines_unranked (s : Shape) : s.Refines unranked := by
  cases s <;> trivial

/-- A shape that refines one with a known rank has a known rank. -/
theorem Refines.exists_ranked {t : Shape} {dims : List Dim} (h : t.Refines (ranked dims)) :
    ∃ dims', t = ranked dims' ∧ List.Forall₂ Dim.Refines dims' dims := by
  cases t with
  | unranked => exact h.elim
  | ranked dims' => exact ⟨dims', rfl, (refines_ranked_iff ..).mp h⟩

/-- A refined shape admits no more than before. -/
theorem Refines.admits {t s : Shape} {c : Extents} (h : t.Refines s) (hc : t.Admits c) : s.Admits c := by
  cases s with
  | unranked => trivial
  | ranked dims =>
      obtain ⟨dims', rfl, hrefines⟩ := h.exists_ranked
      rw [admits_ranked_iff] at hc ⊢
      clear h
      induction hrefines generalizing c with
      | nil => exact hc
      | cons hd _ ih =>
          cases hc with
          | cons hn hrest => exact .cons (hd.admits hn) (ih hrest)

/-- What a shape is refined to when all is known is one of the concrete shapes that it admits. -/
theorem admits_of_fixed_refines {s : Shape} {c : Extents} (h : (fixed c).Refines s) : s.Admits c :=
  h.admits ((admits_fixed c c).mpr rfl)

/-- A concrete shape that is admitted says all that there is to say. -/
theorem fixed_refines_iff (s : Shape) (c : Extents) : (fixed c).Refines s ↔ s.Admits c := by
  refine ⟨admits_of_fixed_refines, fun hc => ?_⟩
  cases s with
  | unranked => exact refines_unranked (fixed c)
  | ranked dims =>
      rw [fixed, refines_ranked_iff, List.forall₂_map_left_iff]
      refine ((admits_ranked_iff dims c).mp hc).flip.imp ?_
      rintro n d (rfl | rfl)
      · exact Or.inl rfl
      · exact Or.inr rfl

/-- A rank that is known is kept. -/
theorem Refines.rank_eq {t s : Shape} (h : t.Refines s) (hs : s.isStatic = true) : t.rank = s.rank := by
  cases s with
  | unranked => cases hs
  | ranked dims =>
      obtain ⟨dims', rfl, hdims⟩ := h.exists_ranked
      rw [rank_ranked, rank_ranked, hdims.length_eq]

theorem Refines.dim {t s : Shape} (h : t.Refines s) (i : Nat) : (t.dim i).Refines (s.dim i) := by
  cases s with
  | unranked => exact Or.inl rfl
  | ranked dims =>
      obtain ⟨dims', rfl, hdims⟩ := h.exists_ranked
      have hrel := getElem?_rel hdims i
      rw [dim_ranked, dim_ranked]
      generalize dims'[i]? = x', dims[i]? = x at hrel
      cases hrel with
      | none => exact Or.inl rfl
      | some hx => exact hx

/-- **Broadcasting is monotone.** If two shapes broadcast, so do any that say less, and their result says
    less. -/
theorem broadcast_refines {a' a b' b s' : Shape} (ha : a'.Refines a) (hb : b'.Refines b)
    (h : broadcast a' b' = some s') : ∃ s, broadcast a b = some s ∧ s'.Refines s := by
  cases a with
  | unranked => exact ⟨unranked, rfl, refines_unranked s'⟩
  | ranked as =>
      cases b with
      | unranked => exact ⟨unranked, rfl, refines_unranked s'⟩
      | ranked bs =>
          obtain ⟨as', rfl, has⟩ := ha.exists_ranked
          obtain ⟨bs', rfl, hbs⟩ := hb.exists_ranked
          rw [broadcast_ranked, Option.map_eq_some_iff] at h
          obtain ⟨zs', hzs', rfl⟩ := h
          -- the second operands take the place of the concrete ones
          obtain ⟨zs, hzs, hrel⟩ := alignRight_simulates (R := fun x x' => Dim.Refines x' x)
            (fun x y x' y' z' hx hy hz => Dim.broadcast_refines hx hy hz) has.flip hbs.flip hzs'
          refine ⟨ranked zs, ?_, (refines_ranked_iff zs' zs).mpr hrel.flip⟩
          rw [broadcast_ranked, hzs, Option.map_some]

/-! ## Shapes that are known completely -/

/-- Shapes that are known completely broadcast as the tensors do. -/
theorem broadcast_fixed (c d : Extents) :
    broadcast (fixed c) (fixed d) = (Extents.broadcast? c d).map fixed := by
  unfold fixed
  rw [broadcast_ranked, Extents.broadcast?_eq_alignRight, alignRight_map Dim.broadcast_some,
    Option.map_map]
  rfl

end Shape

end GateGraph
