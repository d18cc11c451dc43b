import GateGraph.Proofs.Shape.Refinement

/-!
# `GateGraph.Proofs.Shape.Queries` — what the queries of a shape say together

Every query goes through the dimensions in its own way, and each draws its lines elsewhere. `dim` is silent
alike about an open rank, an open dimension and a position beyond the last one. `isDynamicAt` counts every
position of an open rank as open, but nothing beyond the last dimension of a known one. `fixedDims?` gives
everything or nothing.

They are brought together by the concrete shapes that a shape admits. At a position there are three cases
(`dim_cases`): the dimension is open, and then the concrete shapes differ there; it is known, and then they all
have its extent there; or the shape has ended before, and so have they.

## Contents
- `filled`, a shape whose open dimensions all get one extent; `exists_admits_of_isDynamicAt`.
- `dim_cases`, and what the queries about one position mean: `isDynamicAt_iff` and `dim_eq_some_iff`.
- `fixedDims?_eq_some_iff`, `fixedDims?_eq_none_iff` and `eq_fixed_iff`: shapes about which all is known.
- `eq_of_dim_eq`: rank and dimensions make up a shape.
- `queries_agree`.
-/

namespace GateGraph.Shape

variable {s : Shape} {e : Extents} {i : Nat} {n : UInt64}

/-! ## Open dimensions that get an extent -/

/-- The dimensions of a shape, with one extent for all that are open. -/
def filled (n : UInt64) : Shape → Extents
  | unranked => []
  | ranked dims => dims.map fun d => d.getD n

theorem admits_filled (n : UInt64) {s : Shape} (hs : s.isStatic = true) : s.Admits (s.filled n) := by
  cases s with
  | unranked => cases hs
  | ranked dims =>
      rw [filled, admits_ranked_iff, List.forall₂_map_right_iff, List.forall₂_same]
      intro d _
      cases d with
      | none => exact Or.inl rfl
      | some m => exact Or.inr rfl

theorem rank_fixed_filled (n : UInt64) {s : Shape} (hs : s.isStatic = true) :
    (fixed (s.filled n)).rank = s.rank :=
  Refines.rank_eq ((fixed_refines_iff _ _).mpr (admits_filled n hs)) hs

theorem dim_fixed_filled (n : UInt64) {s : Shape} {rank i : Nat} (hs : s.rank = .static rank) (hi : i < rank) :
    (fixed (s.filled n)).dim i = some ((s.dim i).getD n) := by
  cases s with
  | unranked => cases hs
  | ranked dims =>
      obtain rfl : dims.length = rank := Rank.static.inj hs
      rw [filled, fixed, dim_ranked, dim_ranked, List.getElem?_map, List.getElem?_map,
        List.getElem?_eq_getElem hi]
      rfl

/-! ## One position -/

/-- An open dimension may turn out to have any extent. -/
theorem exists_admits_of_isDynamicAt (h : s.isDynamicAt i = true) (n : UInt64) :
    ∃ e, s.Admits e ∧ e[i]? = some n := by
  cases s with
  | unranked =>
      exact ⟨List.replicate (i + 1) n, trivial, List.getElem?_replicate_of_lt (Nat.lt_succ_self i)⟩
  | ranked dims =>
      have hopen : dims[i]? = some none := beq_iff_eq.mp h
      refine ⟨(ranked dims).filled n, admits_filled n rfl, ?_⟩
      rw [filled, List.getElem?_map, hopen]
      rfl

/-- A dimension that is known has its extent in all concrete shapes. -/
theorem Admits.getElem?_of_dim (he : s.Admits e) (h : s.dim i = some n) : e[i]? = some n := by
  cases s with
  | unranked => cases h
  | ranked dims =>
      have hdim : dims[i]? = some (some n) := Option.join_eq_some_iff.mp h
      have hrel := getElem?_rel ((admits_ranked_iff dims e).mp he) i
      rw [hdim] at hrel
      obtain ⟨m, hm, hopen | hsame⟩ := exists_of_rel hrel
      · cases hopen
      · rw [hm, hsame]

/-- Where a shape has ended, all concrete shapes have. -/
theorem Admits.getElem?_of_rank_le {rank : Nat} (he : s.Admits e) (hrank : s.rank = .static rank)
    (h : rank ≤ i) : e[i]? = none := by
  cases s with
  | unranked => cases hrank
  | ranked dims =>
      obtain rfl : dims.length = rank := Rank.static.inj hrank
      rw [List.getElem?_eq_none_iff, ← he.1]
      exact h

/-- **The three cases at a position**: the dimension is open, it is known, or the shape has ended before. -/
theorem dim_cases (s : Shape) (i : Nat) :
    s.isDynamicAt i = true ∨ (∃ n, s.dim i = some n) ∨ ∃ rank, s.rank = .static rank ∧ rank ≤ i := by
  cases s with
  | unranked => exact .inl rfl
  | ranked dims =>
      match h : dims[i]? with
      | none => exact .inr (.inr ⟨dims.length, rfl, List.getElem?_eq_none_iff.mp h⟩)
      | some none => exact .inl (beq_iff_eq.mpr h)
      | some (some n) => exact .inr (.inl ⟨n, Option.join_eq_some_iff.mpr h⟩)

/-- **A dimension is open exactly if concrete shapes differ there.** -/
theorem isDynamicAt_iff (s : Shape) (i : Nat) :
    s.isDynamicAt i = true ↔
      ∃ e e' m n, s.Admits e ∧ s.Admits e' ∧ e[i]? = some m ∧ e'[i]? = some n ∧ m ≠ n := by
  constructor
  · intro h
    obtain ⟨e, he, hzero⟩ := exists_admits_of_isDynamicAt h 0
    obtain ⟨e', he', hone⟩ := exists_admits_of_isDynamicAt h 1
    exact ⟨e, e', 0, 1, he, he', hzero, hone, by decide⟩
  · rintro ⟨e, e', m, n, he, he', hm, hn, hne⟩
    rcases dim_cases s i with hopen | ⟨k, hk⟩ | ⟨rank, hrank, hle⟩
    · exact hopen
    -- a known extent is that of both
    · rw [he.getElem?_of_dim hk] at hm
      rw [he'.getElem?_of_dim hk] at hn
      exact absurd (Option.some.inj (hm.symm.trans hn)) hne
    · rw [he.getElem?_of_rank_le hrank hle] at hm
      cases hm

/-- A dimension is not open where the concrete shapes do not differ. -/
theorem not_isDynamicAt_of_forall {x : Option UInt64} (h : ∀ e, s.Admits e → e[i]? = x) :
    ¬ s.isDynamicAt i = true := by
  intro hopen
  obtain ⟨e, e', m, n, he, he', hm, hn, hne⟩ := (isDynamicAt_iff s i).mp hopen
  rw [h e he] at hm
  rw [h e' he'] at hn
  exact hne (Option.some.inj (hm.symm.trans hn))

theorem exists_rank_of_dim (h : s.dim i = some n) : ∃ rank, s.rank = .static rank ∧ i < rank := by
  cases s with
  | unranked => cases h
  | ranked dims =>
      obtain ⟨hi, -⟩ := List.getElem?_eq_some_iff.mp (Option.join_eq_some_iff.mp h)
      exact ⟨dims.length, rfl, hi⟩

/-- **A dimension is known exactly if all concrete shapes have the same extent there**, and the rank says that
    there is such a dimension. -/
theorem dim_eq_some_iff (s : Shape) (i : Nat) (n : UInt64) :
    s.dim i = some n ↔
      (∃ rank, s.rank = .static rank ∧ i < rank) ∧ ∀ e, s.Admits e → e[i]? = some n := by
  constructor
  · intro h
    exact ⟨exists_rank_of_dim h, fun e he => he.getElem?_of_dim h⟩
  · rintro ⟨⟨rank, hrank, hi⟩, hall⟩
    rcases dim_cases s i with hopen | ⟨k, hk⟩ | ⟨rank', hrank', hle⟩
    · exact absurd hopen (not_isDynamicAt_of_forall hall)
    · obtain ⟨e, he⟩ := exists_admits s
      rw [hk, ← he.getElem?_of_dim hk, hall e he]
    · obtain rfl : rank = rank' := Rank.static.inj (hrank.symm.trans hrank')
      exact absurd hle (Nat.not_le_of_lt hi)

/-! ## All positions -/

/-- The extents of a shape are given one by one, as long as all of them are known. -/
theorem fixedDims?_ranked_cons (d : Dim) (dims : List Dim) :
    (ranked (d :: dims)).fixedDims? = d.bind fun n => (ranked dims).fixedDims?.map (n :: ·) := by
  show (d :: dims).mapM id = d.bind fun n => (dims.mapM id).map (n :: ·)
  rw [List.mapM_cons]
  cases d with
  | none => rfl
  | some n => cases dims.mapM id <;> rfl

/-- The extents are given exactly if the shape is the one with these extents. -/
theorem fixedDims?_eq_some_iff (s : Shape) (v : Extents) : s.fixedDims? = some v ↔ s = fixed v := by
  cases s with
  | unranked => exact ⟨nofun, nofun⟩
  | ranked dims =>
      induction dims generalizing v with
      | nil => cases v <;> simp [fixed, fixedDims?]
      | cons d dims ih =>
          rw [fixedDims?_ranked_cons]
          simp only [Option.bind_eq_some_iff, Option.map_eq_some_iff, ih]
          cases v <;> simp [fixed]

/-- The extents are kept back exactly if something is open. -/
theorem fixedDims?_eq_none_iff (s : Shape) : s.fixedDims? = none ↔ s.hasDynamicDims = true := by
  cases s with
  | unranked => exact ⟨fun _ => rfl, fun _ => rfl⟩
  | ranked dims =>
      induction dims with
      | nil => exact ⟨nofun, nofun⟩
      | cons d dims ih =>
          rw [fixedDims?_ranked_cons]
          cases d with
          | none => exact ⟨fun _ => rfl, fun _ => rfl⟩
          | some n => exact Option.map_eq_none_iff.trans ih

/-- Something is open exactly if the dimension at some position is. -/
theorem hasDynamicDims_iff (s : Shape) : s.hasDynamicDims = true ↔ ∃ i, s.isDynamicAt i = true := by
  cases s with
  | unranked => exact ⟨fun _ => ⟨0, rfl⟩, fun _ => rfl⟩
  | ranked dims =>
      simp only [hasDynamicDims, isDynamicAt, List.any_eq_true, Option.isNone_iff_eq_none, exists_eq_right,
        List.mem_iff_getElem?, beq_iff_eq]

/-- **All is known exactly if there is one concrete shape only.** -/
theorem eq_fixed_iff (s : Shape) (v : Extents) : s = fixed v ↔ ∀ e, s.Admits e ↔ e = v := by
  constructor
  · rintro rfl e
    exact admits_fixed v e
  · intro hall
    match h : s.fixedDims? with
    | some w =>
        obtain rfl := (fixedDims?_eq_some_iff s w).mp h
        rw [(hall w).mp ((admits_fixed w w).mpr rfl)]
    | none =>
        obtain ⟨i, hopen⟩ := (hasDynamicDims_iff s).mp ((fixedDims?_eq_none_iff s).mp h)
        have hsame : ∀ e, s.Admits e → e[i]? = v[i]? := fun e he => congrArg (·[i]?) ((hall e).mp he)
        exact absurd hopen (not_isDynamicAt_of_forall hsame)

/-- Rank and dimensions make up a shape. -/
theorem eq_of_dim_eq {s t : Shape} (hrank : s.rank = t.rank) (hdim : ∀ i, s.dim i = t.dim i) : s = t := by
  cases s with
  | unranked =>
      cases t with
      | unranked => rfl
      | ranked _ => cases hrank
  | ranked xs =>
      cases t with
      | unranked => cases hrank
      | ranked ys =>
          have hlength : xs.length = ys.length := Rank.static.inj hrank
          refine congrArg ranked (List.ext_getElem hlength fun i hx hy => ?_)
          have hi := hdim i
          rwa [dim_ranked, dim_ranked, List.getElem?_eq_getElem hx, List.getElem?_eq_getElem hy] at hi

/-- **The queries of a shape tell one story.**
    * All extents are given exactly for the shapes that are made of extents, and these are the shapes that
      admit one concrete shape only.
    * Something is open exactly if the extents are not given, and exactly if the dimension at some position is.
    * A dimension is open exactly if two concrete shapes have it and differ in it.
    * A dimension is known exactly if the rank says that it is there and all concrete shapes have its extent.
    * Shapes of the same rank and the same dimensions are the same. -/
theorem queries_agree (s : Shape) :
    (∀ v, (s.fixedDims? = some v ↔ s = fixed v) ∧ (s = fixed v ↔ ∀ e, s.Admits e ↔ e = v)) ∧
    (s.hasDynamicDims = true ↔ s.fixedDims? = none) ∧
    (s.hasDynamicDims = true ↔ ∃ i, s.isDynamicAt i = true) ∧
    (∀ i, s.isDynamicAt i = true ↔
      ∃ e e' m n, s.Admits e ∧ s.Admits e' ∧ e[i]? = some m ∧ e'[i]? = some n ∧ m ≠ n) ∧
    (∀ i n, s.dim i = some n ↔
      (∃ rank, s.rank = .static rank ∧ i < rank) ∧ ∀ e, s.Admits e → e[i]? = some n) ∧
    (∀ t : Shape, s = t ↔ s.rank = t.rank ∧ ∀ i, s.dim i = t.dim i) := by
  refine ⟨fun v => ⟨fixedDims?_eq_some_iff s v, eq_fixed_iff s v⟩, (fixedDims?_eq_none_iff s).symm,
    hasDynamicDims_iff s, isDynamicAt_iff s, dim_eq_some_iff s, fun t => ⟨?_, ?_⟩⟩
  · rintro rfl
    exact ⟨rfl, fun _ => rfl⟩
  · rintro ⟨hrank, hdim⟩
    exact eq_of_dim_eq hrank hdim

/-- `dim` is silent in three cases. `isDynamicAt` tells the last of them from the others, the rank the first. -/
example : (unranked.dim 1, unranked.isDynamicAt 1) = (none, true) ∧
    ((ranked [some 3, none]).dim 1, (ranked [some 3, none]).isDynamicAt 1) = (none, true) ∧
    ((fixed [3]).dim 1, (fixed [3]).isDynamicAt 1) = (none, false) := by decide

end GateGraph.Shape
