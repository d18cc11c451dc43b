import GateGraph.Binary.Basic

/-!
# `GateGraph.Activation` — activation functions

An activation function is one of a few known kinds of nonlinearity, with two parameters that may be set or
left to the kind's own defaults.

## Contents
- `ActivationKind` with its `name`; `ofName?` knows a kind by that name and no other, which is what
  `ofName?_name` and `name_of_ofName?` say.
- `Activation`, and the parameters in effect, `effectiveAlpha?` and `effectiveBeta?`.
-/

namespace GateGraph

/-- The known nonlinearities. -/
inductive ActivationKind
  | sigmoid
  | tanh
  | relu
  /-- The function `max 0 (min 1 (alpha * x + beta))`. -/
  | hardSigmoid
  deriving DecidableEq, Repr

namespace ActivationKind

/-- All kinds. -/
def all : List ActivationKind := [sigmoid, tanh, relu, hardSigmoid]

/-- The name of a kind, in lower case. -/
def name : ActivationKind → String
  | sigmoid => "sigmoid"
  | tanh => "tanh"
  | relu => "relu"
  | hardSigmoid => "hardsigmoid"

/-- The kind with exactly this name. -/
def ofName? (s : String) : Option ActivationKind := all.find? (·.name == s)

/-- The parameter `alpha` of a kind that uses one, when none is set. -/
def defaultAlpha? : ActivationKind → Option Binary32
  | hardSigmoid => some (.ofQuotient .single 1 5)
  | _ => none

/-- The parameter `beta` of a kind that uses one, when none is set. -/
def defaultBeta? : ActivationKind → Option Binary32
  | hardSigmoid => some (.ofQuotient .single 1 2)
  | _ => none

@[simp] theorem ofName?_name (k : ActivationKind) : ofName? k.name = some k := by
  cases k <;> rfl

theorem name_of_ofName? {s : String} {k : ActivationKind} (h : ofName? s = some k) : k.name = s := by
  simpa using List.find?_some h

end ActivationKind

/-- An activation function. A parameter that is not set is `none`. -/
structure Activation where
  kind : ActivationKind
  alpha : Option Binary32
  beta : Option Binary32
  deriving DecidableEq, BEq

namespace Activation

/-- A kind without parameters. -/
def ofKind (kind : ActivationKind) : Activation := ⟨kind, none, none⟩

def setAlpha (a : Activation) (alpha : Binary32) : Activation := { a with alpha := some alpha }

def setBeta (a : Activation) (beta : Binary32) : Activation := { a with beta := some beta }

/-- The parameter that is set, or else the kind's default. -/
def effectiveAlpha? (a : Activation) : Option Binary32 := a.alpha <|> a.kind.defaultAlpha?

/-- The parameter that is set, or else the kind's default. -/
def effectiveBeta? (a : Activation) : Option Binary32 := a.beta <|> a.kind.defaultBeta?

end Activation

end GateGraph
