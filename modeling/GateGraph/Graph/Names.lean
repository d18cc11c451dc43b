import GateGraph.Graph.Basic

/-!
# `GateGraph.Graph.Names` — names for new nodes

A name that is asked for is taken as it is, or refused when another node has it. Without one, a node is
called by its label and a number. The search for a free number goes on from the last one that was given to
that label; it ends because among more numbers than there are names one is free.

## Contents
- `numbered`, with `numbered_injective`; `firstFree`, the search.
- `Graph.freshNumber`, the number of the next automatic name.
-/

namespace GateGraph

/-- A label with a number. -/
def numbered (label : String) (k : Nat) : String := label ++ "_" ++ Decimal.text k

theorem numbered_injective {label : String} {j k : Nat} (h : numbered label j = numbered label k) :
    j = k := by
  have h' := congrArg String.toList h
  simp only [numbered, String.toList_append, List.append_cancel_left_eq] at h'
  exact Decimal.text_injective (String.toList_injective h')

/-- The first number from `k` on, among as many as the fuel allows, with which a label is not taken. -/
def firstFree (taken : Std.TreeSet String) (label : String) : Nat → Nat → Nat
  | 0, k => k
  | fuel + 1, k => if taken.contains (numbered label k) then firstFree taken label fuel (k + 1) else k

theorem le_firstFree (taken : Std.TreeSet String) (label : String) (fuel k : Nat) :
    k ≤ firstFree taken label fuel k := by
  induction fuel generalizing k with
  | zero => exact Nat.le_refl k
  | succ fuel ih =>
      simp only [firstFree]
      split
      · exact Nat.le_of_succ_le (ih (k + 1))
      · exact Nat.le_refl k

/-- All numbers that the search has passed are taken. -/
theorem taken_of_lt_firstFree {taken : Std.TreeSet String} {label : String} {fuel k j : Nat}
    (hkj : k ≤ j) (hj : j < firstFree taken label fuel k) : taken.contains (numbered label j) = true := by
  induction fuel generalizing k with
  | zero =>
      simp only [firstFree] at hj
      omega
  | succ fuel ih =>
      simp only [firstFree] at hj
      split at hj
      · next h =>
          rcases Nat.eq_or_lt_of_le hkj with rfl | hlt
          · exact h
          · exact ih hlt hj
      · omega

/-- The number of the next automatic name for a label. -/
def Graph.freshNumber (g : Graph) (label : String) : Nat :=
  firstFree g.names label (g.names.size + 1) (g.counters.getD label 0 + 1)

end GateGraph
