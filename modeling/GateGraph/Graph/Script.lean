import GateGraph.Graph.Build

/-!
# `GateGraph.Graph.Script` — sequences of changes to a graph

Everything that can be done to a graph is one of five steps. A script is a list of steps; a step that fails
does not end it.

## Contents
- `Step` and `Step.action`; `Script.run`, which gives the outcome of each step and the final graph.
- `Graph.Reachable`, the graphs that scripts make out of an empty one.
- `run_append`: a script can be run in two parts.
-/

namespace GateGraph

/-- A change to a graph. -/
inductive Step
  | parameter (shape : Shape) (name : Option String)
  | arith (op : Arith) (lhs rhs : NodeId) (name : Option String)
  | clamp (input : NodeId) (min max : Binary32) (name : Option String)
  | activation (input : NodeId) (function : Activation) (name : Option String)
  | clip (input : NodeId) (bound : Binary32)
  deriving DecidableEq

/-- What a step does. -/
def Step.action : Step → Builder NodeId
  | parameter shape name => addParameter shape name
  | arith op lhs rhs name => addArith op lhs rhs name
  | clamp input min max name => addClamp input min max name
  | activation input function name => addActivation input function name
  | clip input bound => addClip input bound

namespace Script

/-- Runs steps one after another. -/
def run : List Step → Graph → List (Except Error NodeId) × Graph
  | [], g => ([], g)
  | s :: rest, g =>
      let (outcome, g) := s.action.runOn g
      let (outcomes, g) := run rest g
      (outcome :: outcomes, g)

@[simp] theorem run_nil (g : Graph) : run [] g = ([], g) := rfl

/-- The first step acts on the graph itself, the others on what it leaves. -/
theorem run_cons (s : Step) (rest : List Step) (g : Graph) :
    run (s :: rest) g =
      ((s.action.runOn g).1 :: (run rest (s.action.runOn g).2).1, (run rest (s.action.runOn g).2).2) :=
  rfl

/-- There is one outcome for each step. -/
@[simp] theorem length_run (steps : List Step) (g : Graph) : (run steps g).1.length = steps.length := by
  induction steps generalizing g with
  | nil => rfl
  | cons s rest ih => simp [run_cons, ih]

theorem run_append (first second : List Step) (g : Graph) :
    run (first ++ second) g =
      ((run first g).1 ++ (run second (run first g).2).1, (run second (run first g).2).2) := by
  induction first generalizing g with
  | nil => simp
  | cons s rest ih => simp [run_cons, ih]

end Script

/-- The graph is made by some script from a graph without nodes. -/
def Graph.Reachable (g : Graph) : Prop := ∃ name steps, (Script.run steps (Graph.empty name)).2 = g

namespace Graph

/-- A graph without nodes is reachable, by no steps. -/
theorem Reachable.empty (name : String) : (Graph.empty name).Reachable := ⟨name, [], rfl⟩

/-- What scripts make of reachable graphs is reachable. -/
theorem Reachable.run {g : Graph} (h : g.Reachable) (steps : List Step) :
    (Script.run steps g).2.Reachable := by
  obtain ⟨name, before, rfl⟩ := h
  exact ⟨name, before ++ steps, by rw [Script.run_append]⟩

end Graph

end GateGraph
