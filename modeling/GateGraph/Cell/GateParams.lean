import GateGraph.Binary.Basic

/-!
# `GateGraph.Cell.GateParams` — one optional parameter per gate

From outside, the parameters of a cell's gates are a list of numbers for the first gates; the gates after
these have none. Inside, each gate has its own entry.

## Contents
- `GateParams`, made by `ofPositional` and turned back by `positional`.
- `get?`, the parameter of a gate; `length_ofPositional` and `positional_ofPositional`.
-/

namespace GateGraph

/-- The parameters of the gates, in order. -/
structure GateParams where
  gates : List (Option Binary32)
  deriving DecidableEq, BEq

namespace GateParams

/-- No gates. -/
def empty : GateParams := ⟨[]⟩

/-- Parameters for the first gates out of `count`; numbers beyond that are dropped. -/
def ofPositional (values : List Binary32) (count : Nat) : GateParams :=
  ⟨(values.take count).map some ++ List.replicate (count - values.length) none⟩

/-- The parameter of a gate, if there is such a gate and it has one. -/
def get? (p : GateParams) (gate : Nat) : Option Binary32 := p.gates[gate]?.join

/-- The number of gates. -/
def length (p : GateParams) : Nat := p.gates.length

def isEmpty (p : GateParams) : Bool := p.gates.isEmpty

/-- The values up to the first `none`. -/
def leading {α : Type} : List (Option α) → List α
  | some x :: rest => x :: leading rest
  | _ => []

/-- The parameters of the gates before the first one without. -/
def positional (p : GateParams) : List Binary32 := leading p.gates

theorem leading_map_some_append {α : Type} (xs : List α) (n : Nat) :
    leading (xs.map some ++ List.replicate n none) = xs := by
  induction xs with
  | nil => cases n <;> rfl
  | cons x xs ih => simp [leading, ih]

@[simp] theorem length_ofPositional (values : List Binary32) (count : Nat) :
    (ofPositional values count).length = count := by
  simp only [length, ofPositional, List.length_append, List.length_map, List.length_take,
    List.length_replicate]
  omega

@[simp] theorem positional_ofPositional (values : List Binary32) (count : Nat) :
    (ofPositional values count).positional = values.take count :=
  leading_map_some_append _ _

end GateParams

end GateGraph
