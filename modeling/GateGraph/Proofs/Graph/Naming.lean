import Mathlib.Data.List.Forall2
import GateGraph.Proofs.Graph.Transition

/-!
# `GateGraph.Proofs.Graph.Naming` — names and the counters behind automatic names

The index of taken names and the counters are derived from the nodes, but not recomputed: a counter only
remembers where the last search for a free number has ended. This module says what keeps the search honest:
all numbers up to a counter are taken (`Graph.Named.counted`). Hence it makes no difference whether the
search starts at the counter or at one.

## Contents
- `firstFree_free`: the search ends with a free number, for want of names to fill all of its numbers.
- `Graph.Named`, with `Named.transition` for one step and `Reachable.named` for all runs.
- `Graph.IsFirstFree` and `Named.isFirstFree_freshNumber`: the number of an automatic name is the first
  one that is free, whatever the counters say.
-/

namespace GateGraph

/-! ## The search for a free number -/

/-- A search that ends with a taken number has used up its fuel. -/
theorem firstFree_eq_of_taken {taken : Std.TreeSet String} {label : String} {fuel k : Nat}
    (h : taken.contains (numbered label (firstFree taken label fuel k)) = true) :
    firstFree taken label fuel k = k + fuel := by
  induction fuel generalizing k with
  | zero => rfl
  | succ fuel ih =>
      simp only [firstFree] at h ⊢
      by_cases hk : taken.contains (numbered label k) = true
      · rw [if_pos hk] at h ⊢
        rw [ih h]
        omega
      · rw [if_neg hk] at h
        exact absurd h hk

/-- As many numbers in a row as are taken with a label, so many names there are. -/
theorem length_le_size_of_taken {taken : Std.TreeSet String} {label : String} {k count : Nat}
    (h : ∀ j, k ≤ j → j < k + count → taken.contains (numbered label j) = true) : count ≤ taken.size := by
  -- pigeonhole: these names are distinct, and all of them are in the set
  let names := (List.range count).map fun i => numbered label (k + i)
  have hnodup : names.Nodup := by
    refine List.Pairwise.map _ (fun i j hij hname => hij ?_) List.nodup_range
    exact Nat.add_left_cancel (numbered_injective hname)
  have hsub : names ⊆ taken.toList := by
    intro s hs
    obtain ⟨i, hi, rfl⟩ := List.mem_map.mp hs
    have hlt := List.mem_range.mp hi
    rw [Std.TreeSet.mem_toList]
    exact h (k + i) (Nat.le_add_right k i) (by omega)
  have hle := hnodup.length_le_of_subset hsub
  rw [Std.TreeSet.length_toList] at hle
  simpa [names] using hle

/-- **The search ends with a free number.** -/
theorem firstFree_free (taken : Std.TreeSet String) (label : String) (k : Nat) :
    ¬ taken.contains (numbered label (firstFree taken label (taken.size + 1) k)) = true := by
  intro htaken
  -- otherwise the search has passed one number more than there are names
  have hend := firstFree_eq_of_taken htaken
  have hall : ∀ j, k ≤ j → j < k + (taken.size + 1) → taken.contains (numbered label j) = true := by
    intro j hkj hj
    exact taken_of_lt_firstFree hkj (by rw [hend]; exact hj)
  exact absurd (length_le_size_of_taken hall) (Nat.not_succ_le_self _)

theorem numbered_ne_empty (label : String) (k : Nat) : numbered label k ≠ "" := by
  intro h
  have hlist := congrArg String.toList h
  simp [numbered] at hlist

namespace Graph

variable {g : Graph}

/-! ## First free numbers -/

/-- The number is the first one from one on with which a label is no name of a node. -/
structure IsFirstFree (g : Graph) (label : String) (m : Nat) : Prop where
  pos : 1 ≤ m
  free : ∀ n ∈ g.nodes, n.name ≠ numbered label m
  least : ∀ j, 1 ≤ j → j < m → ∃ n ∈ g.nodes, n.name = numbered label j

/-- There is no more than one first free number. -/
theorem IsFirstFree.unique {label : String} {m k : Nat} (hm : g.IsFirstFree label m)
    (hk : g.IsFirstFree label k) : m = k := by
  rcases Nat.lt_trichotomy m k with hlt | heq | hgt
  · obtain ⟨n, hn, hname⟩ := hk.least m hm.pos hlt
    exact absurd hname (hm.free n hn)
  · exact heq
  · obtain ⟨n, hn, hname⟩ := hm.least k hk.pos hgt
    exact absurd hname (hk.free n hn)

/-! ## Graphs whose names are in order -/

/-- The index of names and the counters agree with the nodes. -/
structure Named (g : Graph) : Prop where
  /-- A name is taken when a node has it. -/
  taken : ∀ s, g.names.contains s = true ↔ ∃ n ∈ g.nodes, n.name = s
  nonempty : ∀ n ∈ g.nodes, n.name ≠ ""
  distinct : (g.nodes.toList.map (·.name)).Nodup
  /-- The numbers up to a counter are taken. -/
  counted : ∀ label k, 1 ≤ k → k ≤ g.counters.getD label 0 → g.names.contains (numbered label k) = true

theorem named_empty (name : String) : (empty name).Named where
  taken := by simp [empty]
  nonempty := by simp [empty]
  distinct := by simp [empty]
  counted := by
    intro label k hpos hle
    simp only [empty, Std.TreeMap.getD_emptyc] at hle
    omega

/-- **An automatic name has the first free number**, although the search starts at the counter. -/
theorem Named.isFirstFree_freshNumber (h : g.Named) (label : String) :
    g.IsFirstFree label (g.freshNumber label) where
  pos := Nat.le_trans (Nat.le_add_left 1 _) (le_firstFree _ _ _ _)
  free := by
    intro n hn hname
    have htaken : g.names.contains (numbered label (g.freshNumber label)) = true :=
      (h.taken _).mpr ⟨n, hn, hname⟩
    exact firstFree_free _ _ _ htaken
  least := by
    intro j hpos hlt
    rw [← h.taken]
    -- below the counter the invariant knows it, above it the search has seen it
    by_cases hj : j ≤ g.counters.getD label 0
    · exact h.counted label j hpos hj
    · exact taken_of_lt_firstFree (by omega) hlt

/-- A new node's name is not empty and not taken. -/
theorem Named.of_nameFor (h : g.Named) {d : Draft} {name : String} (hname : g.nameFor d = .ok name) :
    name ≠ "" ∧ ∀ n ∈ g.nodes, n.name ≠ name := by
  unfold nameFor at hname
  split at hname
  · cases hname
    exact ⟨numbered_ne_empty _ _, (h.isFirstFree_freshNumber d.op.label).free⟩
  · next hasked =>
      split at hname
      · cases hname
      · next hfree =>
          cases hname
          refine ⟨hasked, fun n hn heq => hfree ?_⟩
          rw [h.taken]
          exact ⟨n, hn, heq⟩

theorem contains_names_grow (d : Draft) (name s : String) :
    (g.grow d name).names.contains s = true ↔ s = name ∨ g.names.contains s = true := by
  rw [grow_names, Std.TreeSet.contains_insert, Bool.or_eq_true, beq_iff_eq, Std.compare_eq_iff_eq]
  exact or_congr_left eq_comm

/-- Once a name is found, the counters still count taken numbers only. -/
theorem Named.counted_grow (h : g.Named) {d : Draft} {name : String} (hname : g.nameFor d = .ok name)
    {label : String} {k : Nat} (hpos : 1 ≤ k) (hle : k ≤ (g.countersFor d).getD label 0) :
    k ≤ g.counters.getD label 0 ∨ (∃ n ∈ g.nodes, n.name = numbered label k) ∨ numbered label k = name := by
  unfold countersFor at hle
  unfold nameFor at hname
  -- only an automatic name moves a counter, and only that of its own label
  by_cases hasked : d.asked.getD "" = ""
  · rw [if_pos hasked] at hle hname
    rw [Std.TreeMap.getD_insert] at hle
    by_cases hlabel : compare d.op.label label = .eq
    · rw [if_pos hlabel] at hle
      obtain rfl := Std.compare_eq_iff_eq.mp hlabel
      -- the counter has come to the new name's number, and all numbers before it are taken
      rcases Nat.lt_or_eq_of_le hle with hlt | rfl
      · exact .inr (.inl ((h.isFirstFree_freshNumber _).least k hpos hlt))
      · exact .inr (.inr (Except.ok.inj hname))
    · rw [if_neg hlabel] at hle
      exact .inl hle
  · rw [if_neg hasked] at hle
    exact .inl hle

/-- **A node with a name that was found keeps the names in order.** -/
theorem Named.grow (h : g.Named) {d : Draft} {name : String} (hname : g.nameFor d = .ok name) :
    (g.grow d name).Named := by
  obtain ⟨hne, hfresh⟩ := h.of_nameFor hname
  refine ⟨?_, ?_, ?_, ?_⟩
  · intro s
    rw [contains_names_grow, h.taken]
    constructor
    · rintro (rfl | ⟨n, hn, rfl⟩)
      · exact ⟨g.drafted d s, Array.mem_push_self, rfl⟩
      · exact ⟨n, Array.mem_push_of_mem _ hn, rfl⟩
    · rintro ⟨n, hn, rfl⟩
      rcases Array.mem_push.mp hn with hold | rfl
      · exact .inr ⟨n, hold, rfl⟩
      · exact .inl rfl
  · intro n hn
    rcases Array.mem_push.mp hn with hold | rfl
    · exact h.nonempty n hold
    · exact hne
  · rw [grow_nodes, Array.toList_push, List.map_append, List.nodup_append]
    refine ⟨h.distinct, by simp, ?_⟩
    intro s hs t ht
    obtain ⟨n, hn, rfl⟩ := List.mem_map.mp hs
    rw [List.mem_singleton.mp ht]
    exact hfresh n (Array.mem_toList_iff.mp hn)
  · intro label k hpos hle
    rw [contains_names_grow]
    rcases h.counted_grow hname hpos hle with hold | hnode | hnew
    · exact .inr (h.counted label k hpos hold)
    · exact .inr ((h.taken _).mpr hnode)
    · exact .inl hnew

theorem Named.transition {s : Step} {outcome : Except Error NodeId} {g' : Graph} (h : g.Named)
    (ht : Transition g s outcome g') : g'.Named := by
  cases ht with
  | failed e => exact h
  | existing _ => exact h
  | added _ hname => exact h.grow hname

/-- **The names of all reachable graphs are in order.** -/
theorem Reachable.named (h : g.Reachable) : g.Named :=
  h.induction named_empty fun hg ht => hg.transition ht

end Graph

end GateGraph
