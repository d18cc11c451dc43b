import GateGraph.Proofs.Binary.Magnitude
import GateGraph.Proofs.Error.Precedence
import GateGraph.Proofs.Graph.NameChoice
import GateGraph.Proofs.Shape.Algebra

/-!
# `GateGraph.Proofs.Graph.Outcome` — when a step fails, with which error, and what it makes otherwise

Several things may be wrong with a step at once: operands that do not exist, shapes that do not go together,
bounds that make no sense, a name that is taken. This module lists them for each step, in the order in which
they count, as conditions on the graph and the arguments that do not mention how steps are carried out. A
step fails with the first of them that applies and with nothing else; when none applies it makes the node
that was asked for.

## Contents
- `Step.hurdles`, what may be wrong with a step, and `error_iff_stop`.
- `Step.Makes`, what a step makes, and `makes_of_clear`.
- `Builder.Gives`, the shape of what is built; `gives_addArith_iff` and `shapeMismatch_iff`: the elementwise
  operations treat their operands alike, from either side.
- `construction_decided`.
-/

namespace GateGraph

open Hurdle

/-! ## What may be wrong with a step -/

namespace Graph

/-- There is no node with this id. -/
def missing (g : Graph) (id : NodeId) : Hurdle := fun e => ¬ g.InRange id ∧ e = .nodeNotFound id

/-- The shapes of two nodes do not broadcast. -/
def mismatched (g : Graph) (op : Arith) (lhs rhs : NodeId) : Hurdle := fun e =>
  ∃ a b, g.nodeShape lhs = .ok a ∧ g.nodeShape rhs = .ok b ∧ a.broadcast b = none ∧
    e = .shapeMismatch op a b

/-- The name that is asked for is that of another node. -/
def duplicate (g : Graph) (asked : Option String) : Hurdle := fun e =>
  ∃ name, asked = some name ∧ name ≠ "" ∧ g.NameTaken name ∧ e = .duplicateNodeName name g.name

end Graph

/-- One of the bounds is not finite. -/
def unbounded (min max : Binary32) : Hurdle := fun e =>
  (min.isFinite = false ∨ max.isFinite = false) ∧ e = .invalidOperation (.clampNotFinite min max)

/-- The lower bound is above the upper one. -/
def reversed (min max : Binary32) : Hurdle := fun e =>
  max.value < min.value ∧ e = .invalidOperation (.clampReversed min max)

/-- What may be wrong with a step apart from the name. -/
def Step.checks (g : Graph) : Step → List Hurdle
  | .parameter _ _ => []
  | .arith op lhs rhs _ => [g.missing lhs, g.missing rhs, g.mismatched op lhs rhs]
  | .clamp input min max _ => [g.missing input, unbounded min max, reversed min max]
  | .activation input _ _ => [g.missing input]
  | .clip input bound =>
      if bound.isZero then [g.missing input]
      else [g.missing input, unbounded (-bound) bound, reversed (-bound) bound]

/-- The name that a step asks for. -/
def Step.asked : Step → Option String
  | .parameter _ name => name
  | .arith _ _ _ name => name
  | .clamp _ _ _ name => name
  | .activation _ _ name => name
  | .clip _ _ => none

/-- What may be wrong with a step, in the order in which it counts. The name comes last. -/
def Step.hurdles (g : Graph) (s : Step) : List Hurdle := s.checks g ++ [g.duplicate s.asked]

/-! ## Single hurdles -/

section

variable {g : Graph}

/-- An id has a node, or it is missing. -/
theorem Graph.found_or_missing (g : Graph) (id : NodeId) :
    (∃ n, g.node id = .ok n ∧ ∀ e, ¬ g.missing id e) ∨
      g.node id = .error (.nodeNotFound id) ∧ ∀ e, g.missing id e ↔ e = .nodeNotFound id := by
  by_cases hin : g.InRange id
  · obtain ⟨n, hn⟩ := node?_of_number hin
    exact .inl ⟨n, node_of_node? hn, fun e he => he.1 hin⟩
  · exact .inr ⟨node_of_not_inRange hin, fun e => ⟨fun he => he.2, fun he => ⟨hin, he⟩⟩⟩

/-- Looking for an operand first: what comes after it counts once the operand has been found. -/
theorem stop_missing_iff {id : NodeId} {hurdles : List Hurdle} {e : Error} {r : Except Error Request}
    (hfound : ∀ n, g.node id = .ok n → (Stop hurdles e ↔ r = .error e))
    (hlost : g.node id = .error (.nodeNotFound id) → r = .error (.nodeNotFound id)) :
    Stop (g.missing id :: hurdles) e ↔ r = .error e := by
  rcases g.found_or_missing id with ⟨n, hn, hclear⟩ | ⟨hn, hmissing⟩
  · rw [stop_cons_of_clear hclear]
    exact hfound n hn
  · rw [stop_cons_of_eq hmissing, hlost hn, Except.error.injEq]
    exact eq_comm

theorem Graph.nodeShape_of_node {id : NodeId} {n : Node} (hn : g.node id = .ok n) :
    g.nodeShape id = .ok n.shape := field_of_node? (·.shape) (node_eq_ok_iff.mp hn)

theorem Graph.mismatched_iff {op : Arith} {lhs rhs : NodeId} {l r : Node} (hl : g.node lhs = .ok l)
    (hr : g.node rhs = .ok r) (e : Error) :
    g.mismatched op lhs rhs e ↔
      l.shape.broadcast r.shape = none ∧ e = .shapeMismatch op l.shape r.shape := by
  unfold mismatched
  rw [nodeShape_of_node hl, nodeShape_of_node hr]
  constructor
  · rintro ⟨a, b, ha, hb, hnone, rfl⟩
    cases ha
    cases hb
    exact ⟨hnone, rfl⟩
  · rintro ⟨hnone, rfl⟩
    exact ⟨_, _, rfl, rfl, hnone, rfl⟩

/-- Bounds are looked at in this order: are they finite, and are they the right way round? -/
theorem stop_bounds_iff {min max : Binary32} {e : Error} :
    Stop [unbounded min max, reversed min max] e ↔
      ∃ cause, clampFault? min max = some cause ∧ e = .invalidOperation cause := by
  unfold clampFault?
  by_cases hinfinite : min.isFinite = false ∨ max.isFinite = false
  · have hunbounded : ∀ e, unbounded min max e ↔ e = .invalidOperation (.clampNotFinite min max) :=
      fun e => ⟨fun he => he.2, fun he => ⟨hinfinite, he⟩⟩
    have hfault : (!min.isFinite || !max.isFinite) = true := by simpa using hinfinite
    rw [stop_cons_of_eq hunbounded, if_pos hfault]
    simp
  · have hclear : ∀ e, ¬ unbounded min max e := fun e he => hinfinite he.1
    obtain ⟨hmin, hmax⟩ : min.isFinite = true ∧ max.isFinite = true := by simpa using hinfinite
    -- bounds that are finite are compared as the values that they stand for
    have hreversed : reversed min max e ↔
        max.lt min = true ∧ e = .invalidOperation (.clampReversed min max) := by
      rw [Binary.lt_iff_value_lt hmax hmin]
      rfl
    rw [stop_cons_of_clear hclear, stop_cons, hreversed]
    simp only [hmin, hmax, stop_nil, and_false, or_false]
    cases max.lt min <;> simp

theorem stop_clampChecks_iff {input : NodeId} {min max : Binary32} {name : Option String} {e : Error} :
    Stop [g.missing input, unbounded min max, reversed min max] e ↔
      clampRequest g input min max name = .error e := by
  unfold clampRequest
  refine stop_missing_iff (fun n hn => ?_) (fun hn => ?_)
  · rw [stop_bounds_iff, hn]
    cases clampFault? min max <;> simp [eq_comm]
  · rw [hn]

/-! ## The request of a step -/

/-- **A step is stopped before it comes to its name by the first thing that is wrong.** -/
theorem Step.stop_checks_iff (s : Step) (g : Graph) (e : Error) :
    Stop (s.checks g) e ↔ s.request g = .error e := by
  cases s with
  | parameter shape name => exact iff_of_false stop_nil (by simp [request])
  | arith op lhs rhs name =>
      -- a missing operand on the left hides one on the right
      refine stop_missing_iff (fun l hl => stop_missing_iff (fun r hr => ?_) (fun hr => ?_)) (fun hl => ?_)
      · simp only [request, hl, hr, stop_cons, Graph.mismatched_iff hl hr, stop_nil, and_false, or_false]
        cases l.shape.broadcast r.shape <;> simp [eq_comm]
      · simp only [request, hl, hr]
      · simp only [request, hl]
  | clamp input min max name => exact stop_clampChecks_iff
  | activation input function name =>
      refine stop_missing_iff (fun n hn => ?_) (fun hn => ?_)
      · exact iff_of_false stop_nil (by simp [request, hn])
      · simp only [request, hn]
  | clip input bound =>
      simp only [checks, request]
      by_cases hzero : bound.isZero = true
      · rw [if_pos hzero, if_pos hzero]
        refine stop_missing_iff (fun n hn => ?_) (fun hn => ?_)
        · exact iff_of_false stop_nil (by simp [hn])
        · rw [hn]
      · rw [if_neg hzero, if_neg hzero]
        exact stop_clampChecks_iff

theorem Step.clear_checks_iff (s : Step) (g : Graph) : Clear (s.checks g) ↔ ∃ r, s.request g = .ok r := by
  rw [clear_iff_forall_not_stop]
  simp only [s.stop_checks_iff]
  cases s.request g <;> simp

/-! ## The name of a step -/

theorem Step.Adds.asked_eq {s : Step} {d : Draft} (h : s.Adds g d) : d.asked = s.asked := by
  cases h <;> rfl

/-- A draft is refused a name only if it asks for one that is taken. -/
theorem Graph.Named.nameFor_eq_error_iff (h : g.Named) (d : Draft) (e : Error) :
    g.nameFor d = .error e ↔ g.duplicate d.asked e := by
  unfold nameFor duplicate
  rcases hasked : d.asked with _ | name
  · simp
  · rw [Option.getD_some]
    by_cases hne : name = ""
    · simp [hne]
    · rw [if_neg hne]
      by_cases htaken : g.names.contains name = true
      · simp [hne, htaken, (h.contains_iff name).mp htaken, eq_comm]
      · simp [hne, htaken, mt (h.contains_iff name).mpr htaken]

/-- A step without a node to add asks for no name. -/
theorem Step.not_duplicate_of_existing {s : Step} {id : NodeId} (h : s.request g = .ok (.existing id))
    (e : Error) : ¬ g.duplicate s.asked e := by
  obtain ⟨bound, n, rfl, -, -⟩ := request_eq_existing_iff.mp h
  rintro ⟨name, hasked, -⟩
  cases hasked

/-- **The error of a step is the first thing that is wrong.** -/
theorem Graph.Named.error_iff_stop (h : g.Named) (s : Step) (e : Error) :
    (s.action.runOn g).1 = .error e ↔ Stop (s.hurdles g) e := by
  unfold Step.hurdles
  rw [stop_append, s.stop_checks_iff, s.clear_checks_iff, stop_cons]
  simp only [stop_nil, and_false, or_false]
  cases hrequest : s.request g with
  | error e' =>
      rw [runOn_action_of_error hrequest]
      simp
  | ok r =>
      cases r with
      | existing id =>
          rw [runOn_action_of_existing hrequest]
          simp [s.not_duplicate_of_existing hrequest]
      | add d =>
          rw [runOn_action_of_add hrequest, ← (Step.request_eq_add_iff.mp hrequest).asked_eq,
            ← h.nameFor_eq_error_iff]
          cases g.nameFor d <;> simp

end

/-! ## What a step makes -/

/-- A step's node is to have this shape: the one given for a parameter, what the shapes of two operands
    broadcast to, or the shape of the only operand. -/
def Step.Shapes (g : Graph) : Step → Shape → Prop
  | .parameter declared _, shape => shape = declared
  | .arith _ lhs rhs _, shape =>
      ∃ a b, g.nodeShape lhs = .ok a ∧ g.nodeShape rhs = .ok b ∧ a.broadcast b = some shape
  | .clamp input _ _ _, shape => g.nodeShape input = .ok shape
  | .activation input _ _, shape => g.nodeShape input = .ok shape
  | .clip input _, shape => g.nodeShape input = .ok shape

/-- A step's node is to have this name: the one asked for, or the label of its operation with the first free
    number. -/
def Step.Names (g : Graph) (s : Step) (name : String) : Prop :=
  if s.asked.getD "" = "" then ∃ m, g.IsFirstFree s.op.label m ∧ name = numbered s.op.label m
  else s.asked = some name

/-- One graph is another one with the node that a step asks for, under the next id. -/
structure Step.Makes (s : Step) (g g' : Graph) : Prop where
  size : g'.size = g.size + 1
  op : g'.nodeOp g.nextId = .ok s.op
  operands : g'.nodeParents g.nextId = .ok s.operands
  shape : ∃ shape, g'.nodeShape g.nextId = .ok shape ∧ s.Shapes g shape
  name : ∃ name, g'.nodeName g.nextId = .ok name ∧ s.Names g name

theorem Step.Adds.shapes {g : Graph} {s : Step} {d : Draft} (h : s.Adds g d) : s.Shapes g d.shape := by
  have hfound {id : NodeId} {n : Node} (hn : g.node? id = some n) : g.nodeShape id = .ok n.shape :=
    Graph.field_of_node? (·.shape) hn
  cases h with
  | parameter shape name => rfl
  | arith hl hr hshape => exact ⟨_, _, hfound hl, hfound hr, hshape⟩
  | clamp hn _ => exact hfound hn
  | activation hn => exact hfound hn
  | clip _ hn _ => exact hfound hn

namespace Graph

variable {g : Graph}

/-- A name that a draft has been given is the one that its step is to have. -/
theorem Named.names_of_nameFor (h : g.Named) {s : Step} {d : Draft} {name : String} (hadds : s.Adds g d)
    (hname : g.nameFor d = .ok name) : s.Names g name := by
  unfold nameFor at hname
  unfold Step.Names
  rw [hadds.asked_eq, hadds.draft_eq.1] at hname
  split at hname
  · next hnone =>
      rw [if_pos hnone]
      exact ⟨_, h.isFirstFree_freshNumber _, (Except.ok.inj hname).symm⟩
  · next hasked =>
      rw [if_neg hasked]
      split at hname
      · cases hname
      · cases hs : s.asked with
        | none =>
            rw [hs] at hasked
            exact absurd rfl hasked
        | some asked =>
            rw [hs] at hname
            exact congrArg some (Except.ok.inj hname)

/-- **When nothing is wrong, a step makes its node.** Only a clip that clips nothing makes none, and returns
    its operand. -/
theorem Named.makes_of_clear (h : g.Named) (hg : g.WellFormed) {s : Step} (hclear : Clear (s.hurdles g)) :
    (s.IsIdle → ∃ input, s.operands = [input] ∧ s.action.runOn g = (.ok input, g)) ∧
      (¬ s.IsIdle → ∃ g', s.action.runOn g = (.ok g.nextId, g') ∧ s.Makes g g') := by
  obtain ⟨hchecks, htaken⟩ := clear_append.mp hclear
  obtain ⟨r, hrequest⟩ := (s.clear_checks_iff g).mp hchecks
  cases r with
  | existing id =>
      refine ⟨fun _ => ⟨id, ?_, runOn_action_of_existing hrequest⟩, fun hbusy => ?_⟩
      · obtain ⟨bound, n, rfl, -, -⟩ := Step.request_eq_existing_iff.mp hrequest
        rfl
      · exact absurd (Step.isIdle_of_existing hrequest) hbusy
  | add d =>
      have hadds := Step.request_eq_add_iff.mp hrequest
      refine ⟨fun hidle => absurd hidle hadds.not_isIdle, fun _ => ?_⟩
      cases hname : g.nameFor d with
      | error e =>
          have htaken' := (h.nameFor_eq_error_iff d e).mp hname
          rw [hadds.asked_eq] at htaken'
          exact absurd htaken' (htaken _ List.mem_cons_self e)
      | ok name =>
          refine ⟨g.grow d name, ?_, size_grow g d name, ?_, ?_, ?_, ?_⟩
          · rw [runOn_action_of_add hrequest, hname]
          · rw [← hadds.draft_eq.1]
            exact field_grow hg.counted (·.op) d name
          · rw [← hadds.draft_eq.2, (hg.grow name (declares_of_adds hadds)).nodeParents_eq]
            exact field_grow hg.counted (·.parents) d name
          · exact ⟨d.shape, field_grow hg.counted (·.shape) d name, hadds.shapes⟩
          · exact ⟨name, nodeName_grow hg.counted d name, h.names_of_nameFor hadds hname⟩

end Graph

/-! ## Elementwise operations -/

/-- Something is built, and its node has this shape. -/
def Builder.Gives (b : Builder NodeId) (g : Graph) (shape : Shape) : Prop :=
  ∃ id g', b.runOn g = (.ok id, g') ∧ g'.nodeShape id = .ok shape

namespace Graph

variable {g : Graph}

/-- **Which operands an elementwise operation takes, and the shape that it gives.** Nothing of this depends on
    the operation. -/
theorem Named.gives_addArith_iff (h : g.Named) (hids : g.lastId = g.size) (op : Arith) (lhs rhs : NodeId)
    (name : Option String) (shape : Shape) :
    (addArith op lhs rhs name).Gives g shape ↔
      (∃ a b, g.nodeShape lhs = .ok a ∧ g.nodeShape rhs = .ok b ∧ a.broadcast b = some shape) ∧
        ∀ e, ¬ g.duplicate name e := by
  show (Step.arith op lhs rhs name).action.Gives g shape ↔ _
  constructor
  · rintro ⟨id, g', hrun, hshape⟩
    have ht := (Step.arith op lhs rhs name).transition g
    rw [hrun] at ht
    cases ht with
    | existing hrequest =>
        obtain ⟨_, _, heq, -⟩ := Step.request_eq_existing_iff.mp hrequest
        cases heq
    | @added d given hadds hname =>
        obtain rfl : d.shape = shape := Except.ok.inj ((field_grow hids (·.shape) d given).symm.trans hshape)
        have hasked : d.asked = name := hadds.asked_eq
        refine ⟨hadds.shapes, fun e he => ?_⟩
        rw [← hasked, ← h.nameFor_eq_error_iff, hname] at he
        cases he
  · rintro ⟨⟨a, b, ha, hb, hshape⟩, hfree⟩
    obtain ⟨l, hl, rfl⟩ := of_map_node ha
    obtain ⟨r, hr, rfl⟩ := of_map_node hb
    have hadds : (Step.arith op lhs rhs name).Adds g _ := .arith hl hr hshape
    cases hname : g.nameFor ⟨name, .arith op, shape, [lhs, rhs]⟩ with
    | error e => exact absurd ((h.nameFor_eq_error_iff _ e).mp hname) (hfree e)
    | ok given =>
        refine ⟨g.nextId, g.grow ⟨name, .arith op, shape, [lhs, rhs]⟩ given, ?_,
          field_grow hids (·.shape) _ given⟩
        rw [runOn_action_of_add (Step.request_eq_add_iff.mpr hadds), hname]

/-- **Which operands an elementwise operation refuses because of their shapes.** -/
theorem Named.shapeMismatch_iff (h : g.Named) (op : Arith) (lhs rhs : NodeId) (name : Option String)
    (a b : Shape) :
    ((addArith op lhs rhs name).runOn g).1 = .error (.shapeMismatch op a b) ↔
      g.nodeShape lhs = .ok a ∧ g.nodeShape rhs = .ok b ∧ a.broadcast b = none := by
  show ((Step.arith op lhs rhs name).action.runOn g).1 = _ ↔ _
  rw [h.error_iff_stop]
  constructor
  · rintro ⟨before, hurdle, after, heq, -, he⟩
    have hmem : hurdle ∈ (Step.arith op lhs rhs name).hurdles g := heq ▸ List.mem_append_cons_self
    -- missing operands and names that are taken are reported by other errors
    simp only [Step.hurdles, Step.checks, List.cons_append, List.nil_append, List.mem_cons, List.not_mem_nil,
      or_false] at hmem
    rcases hmem with rfl | rfl | rfl | rfl
    · cases he.2
    · cases he.2
    · obtain ⟨a', b', ha, hb, hnone, heq⟩ := he
      cases heq
      exact ⟨ha, hb, hnone⟩
    · obtain ⟨_, -, -, -, heq⟩ := he
      cases heq
  · rintro ⟨ha, hb, hnone⟩
    have hfound {id : NodeId} {s : Shape} (hs : g.nodeShape id = .ok s) : ∀ e, ¬ g.missing id e := by
      obtain ⟨n, hn, -⟩ := of_map_node hs
      exact fun e he => he.1 (number_of_node? hn)
    refine ⟨[g.missing lhs, g.missing rhs], _, _, rfl, ?_, a, b, ha, hb, hnone, rfl⟩
    exact clear_cons.mpr ⟨hfound ha, clear_cons.mpr ⟨hfound hb, clear_nil⟩⟩

/-- A step that is to add a node does so exactly if nothing is wrong. -/
theorem Named.clear_iff_makes (h : g.Named) (hg : g.WellFormed) {s : Step} (hbusy : ¬ s.IsIdle) :
    Clear (s.hurdles g) ↔ ∃ g', s.action.runOn g = (.ok ⟨g.size + 1⟩, g') ∧ s.Makes g g' := by
  constructor
  · intro hclear
    rw [← hg.nextId_eq]
    exact (h.makes_of_clear hg hclear).2 hbusy
  · rintro ⟨g', hrun, -⟩
    rw [clear_iff_forall_not_stop]
    intro e hstop
    rw [← h.error_iff_stop, hrun] at hstop
    cases hstop

/-- **What becomes of a step.** In a reachable graph, whatever its arguments are, a step fails with the first
    thing that is wrong and with nothing else. If nothing is wrong, it makes its node, with the next id and
    with the operation, the operands, the shape and the name that were asked for. The three elementwise
    operations take the same operands with the same result, and exchanging the operands makes no difference
    to that. -/
theorem construction_decided (hg : g.Reachable) :
    (∀ (s : Step) (e : Error), (s.action.runOn g).1 = .error e ↔ Stop (s.hurdles g) e) ∧
    (∀ s : Step, ¬ s.IsIdle → (Clear (s.hurdles g) ↔
      ∃ g', s.action.runOn g = (.ok ⟨g.size + 1⟩, g') ∧ s.Makes g g')) ∧
    ∀ (op op' : Arith) (lhs rhs : NodeId) (name : Option String),
      (∀ a b, (((addArith op lhs rhs name).runOn g).1 = .error (.shapeMismatch op a b) ↔
          ((addArith op' lhs rhs name).runOn g).1 = .error (.shapeMismatch op' a b)) ∧
        (((addArith op lhs rhs name).runOn g).1 = .error (.shapeMismatch op a b) ↔
          ((addArith op rhs lhs name).runOn g).1 = .error (.shapeMismatch op b a))) ∧
      ∀ shape, ((addArith op lhs rhs name).Gives g shape ↔ (addArith op' lhs rhs name).Gives g shape) ∧
        ((addArith op lhs rhs name).Gives g shape ↔ (addArith op rhs lhs name).Gives g shape) := by
  have h := hg.named
  have hids := hg.wellFormed.counted
  refine ⟨h.error_iff_stop, fun s hbusy => h.clear_iff_makes hg.wellFormed hbusy, ?_⟩
  intro op op' lhs rhs name
  refine ⟨fun a b => ⟨?_, ?_⟩, fun shape => ⟨?_, ?_⟩⟩
  · rw [h.shapeMismatch_iff, h.shapeMismatch_iff]
  · rw [h.shapeMismatch_iff, h.shapeMismatch_iff, Shape.broadcast_comm b a]
    exact and_left_comm
  · rw [h.gives_addArith_iff hids, h.gives_addArith_iff hids]
  · rw [h.gives_addArith_iff hids, h.gives_addArith_iff hids]
    refine and_congr_left fun _ => ⟨?_, ?_⟩
    · rintro ⟨a, b, ha, hb, hshape⟩
      exact ⟨b, a, hb, ha, (Shape.broadcast_comm b a).trans hshape⟩
    · rintro ⟨a, b, ha, hb, hshape⟩
      exact ⟨b, a, hb, ha, (Shape.broadcast_comm b a).trans hshape⟩

/-- Steps with several things wrong at once, and one with none: shapes that do not broadcast go before a name
    that is taken, a missing operand before bounds that are not numbers, and bounds before a name. -/
theorem construction_decided_faults :
    ∃ g : Graph, g.Reachable ∧
      ((addArith .add ⟨1⟩ ⟨2⟩ (some "x")).runOn g).1 =
        .error (.shapeMismatch .add (.fixed [2, 3]) (.fixed [4])) ∧
      ((addClamp ⟨3⟩ (.ofBits .single 0x7fc00000) 0 (some "x")).runOn g).1 = .error (.nodeNotFound ⟨3⟩) ∧
      ((addClamp ⟨1⟩ (.ofNat .single 1) 0 (some "x")).runOn g).1 =
        .error (.invalidOperation (.clampReversed (.ofNat .single 1) 0)) ∧
      ∃ g', (addArith .multiply ⟨2⟩ ⟨2⟩ none).runOn g = (.ok ⟨3⟩, g') ∧
        (Step.arith .multiply ⟨2⟩ ⟨2⟩ none).Makes g g' := by
  let steps : List Step := [.parameter (.fixed [2, 3]) (some "x"), .parameter (.fixed [4]) (some "w")]
  let g : Graph := (Script.run steps (empty "gate")).2
  have hreachable : g.Reachable := ⟨"gate", steps, rfl⟩
  have hx : g.nodeShape ⟨1⟩ = .ok (.fixed [2, 3]) := by decide +kernel
  have hw : g.nodeShape ⟨2⟩ = .ok (.fixed [4]) := by decide +kernel
  have hfound : ∀ id : NodeId, 1 ≤ id.number → id.number ≤ 2 → ∀ e, ¬ g.missing id e :=
    fun id hpos hle e he => he.1 ⟨hpos, hle⟩
  have hone := hfound ⟨1⟩ (by decide) (by decide)
  have htwo := hfound ⟨2⟩ (by decide) (by decide)
  obtain ⟨herror, hmakes, -⟩ := construction_decided hreachable
  refine ⟨g, hreachable, ?_, ?_, ?_, ?_⟩
  · refine (herror (.arith .add ⟨1⟩ ⟨2⟩ (some "x")) _).mpr ⟨[g.missing ⟨1⟩, g.missing ⟨2⟩], _, _, rfl, ?_,
      .fixed [2, 3], .fixed [4], hx, hw, by decide, rfl⟩
    exact clear_cons.mpr ⟨hone, clear_cons.mpr ⟨htwo, clear_nil⟩⟩
  · refine (herror (.clamp ⟨3⟩ (.ofBits .single 0x7fc00000) 0 (some "x")) _).mpr ⟨[], _, _, rfl, clear_nil, ?_,
      rfl⟩
    exact fun hin => absurd hin.2 (by decide)
  · have hone_finite : (Binary.ofNat .single 1).isFinite = true := by decide +kernel
    refine (herror (.clamp ⟨1⟩ (.ofNat .single 1) 0 (some "x")) _).mpr ⟨[g.missing ⟨1⟩, unbounded _ _], _, _,
      rfl, ?_, (Binary.lt_iff_value_lt rfl hone_finite).mp (by decide +kernel), rfl⟩
    refine clear_cons.mpr ⟨hone, clear_cons.mpr ⟨?_, clear_nil⟩⟩
    rintro e ⟨hinfinite | hinfinite, -⟩
    · rw [hone_finite] at hinfinite
      cases hinfinite
    · cases hinfinite
  · refine (hmakes (.arith .multiply ⟨2⟩ ⟨2⟩ none) id).mp ?_
    have hshapes : ∀ e, ¬ g.mismatched .multiply ⟨2⟩ ⟨2⟩ e := by
      rintro e ⟨a, b, ha, hb, hnone, -⟩
      rw [hw] at ha hb
      cases ha
      cases hb
      cases hnone
    have hname : ∀ e, ¬ g.duplicate none e := by
      rintro e ⟨name, hname, -⟩
      cases hname
    exact clear_cons.mpr ⟨htwo, clear_cons.mpr ⟨htwo, clear_cons.mpr ⟨hshapes, clear_cons.mpr ⟨hname, clear_nil⟩⟩⟩⟩

end Graph

end GateGraph
