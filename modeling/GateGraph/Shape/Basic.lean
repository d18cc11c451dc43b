/-!
# `GateGraph.Shape.Basic` — shapes that may be partly unknown

While a graph is built, not everything about a tensor's shape has to be known: single dimensions may be
left open (a batch size, say), and so may the number of dimensions itself.

## Contents
- `Dim`, `Rank`, `Shape` and the ways to make a shape: `fixed`, `withDynamicBatch`, `ranked`, `unranked`.
- Queries: `rank`, `dim`, `isDynamicAt`, `hasDynamicDims`, `dims?`, `fixedDims?`.
-/

namespace GateGraph

/-- The extent of one dimension; `none` is an extent that is only known at run time. -/
abbrev Dim := Option UInt64

/-- The number of dimensions of a shape. -/
inductive Rank
  | static (length : Nat)
  | dynamic
  deriving DecidableEq, Repr

namespace Rank

def isStatic : Rank → Bool
  | static _ => true
  | dynamic => false

def isDynamic (r : Rank) : Bool := !r.isStatic

/-- The number of dimensions, when it is known. -/
def length? : Rank → Option Nat
  | static n => some n
  | dynamic => none

end Rank

/-- What is known of a tensor's shape: nothing at all, or its dimensions one by one. -/
inductive Shape
  | unranked
  | ranked (dims : List Dim)
  deriving DecidableEq, Repr

namespace Shape

/-! ## Making shapes -/

/-- The shape with exactly these dimensions, all of them known. -/
def fixed (dims : List UInt64) : Shape := ranked (dims.map some)

/-- An open leading dimension, followed by known ones. -/
def withDynamicBatch (dims : List UInt64) : Shape := ranked (none :: dims.map some)

/-! ## Queries -/

def rank : Shape → Rank
  | unranked => .dynamic
  | ranked dims => .static dims.length

/-- The number of dimensions is known; the dimensions themselves need not be. -/
def isStatic (s : Shape) : Bool := s.rank.isStatic

/-- The dimensions, when their number is known. -/
def dims? : Shape → Option (List Dim)
  | unranked => none
  | ranked dims => some dims

/-- The known extent at an index. It is `none` where the dimension is open, where the rank is open, and
    beyond the last dimension; `rank` tells these apart. -/
def dim : Shape → Nat → Dim
  | unranked, _ => none
  | ranked dims, i => dims[i]?.join

/-- The dimension at an index is open. With an open rank every index counts as open, and with a known rank
    no index beyond the last dimension does. -/
def isDynamicAt : Shape → Nat → Bool
  | unranked, _ => true
  | ranked dims, i => dims[i]? == some none

/-- Something about the shape is open: its rank, or one of its dimensions. -/
def hasDynamicDims : Shape → Bool
  | unranked => true
  | ranked dims => dims.any Option.isNone

/-- The extents of a shape about which everything is known. -/
def fixedDims? : Shape → Option (List UInt64)
  | unranked => none
  | ranked dims => dims.mapM id

@[simp] theorem rank_ranked (dims : List Dim) : (ranked dims).rank = .static dims.length := rfl

@[simp] theorem dim_ranked (dims : List Dim) (i : Nat) : (ranked dims).dim i = dims[i]?.join := rfl

end Shape

end GateGraph
