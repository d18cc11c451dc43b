import GateGraph.Cell.Gates
import GateGraph.Graph.Script

/-!
# `GateGraph.Proofs.Graph.Transition` — what one step does to a graph

A step is an action in a monad, whose parts read and write the graph in turn. This module says once, without
the monad, what comes out of it; the theory of graphs builds on that and does not look at the actions again.

A step first makes a *request* out of what it finds in the graph. Either the result is a node that exists
(`Request.existing`), or a node is to be added, of which all but the name and the id is settled
(`Request.add`). Only then is a name looked for.

## Contents
- `Draft`, `Request` and `Step.request`, with `Step.Adds`, the rules by which a node is added;
  `Graph.nameFor` and `Graph.grow`.
- `runOn_action`: the action of a step is its request, carried out.
- `Transition`, the three ways in which a step ends, and `Step.transition`: there is no other way.
- `Operation` and `operation_iff`: the operations that are offered on graphs, those of cells included, are
  the actions of steps.
-/

namespace GateGraph

/-! ## Requests -/

/-- A node that is to be added: all of it but its id and, if none is asked for, its name. -/
structure Draft where
  asked : Option String
  op : Op
  shape : Shape
  parents : List NodeId

/-- What a step asks of a graph. -/
inductive Request
  | existing (id : NodeId)
  | add (draft : Draft)

/-- The request for a clamp. -/
def clampRequest (g : Graph) (input : NodeId) (min max : Binary32) (name : Option String) :
    Except Error Request :=
  match g.node input with
  | .error e => .error e
  | .ok n =>
      match clampFault? min max with
      | some cause => .error (.invalidOperation cause)
      | none => .ok (.add ⟨name, .clamp min max, n.shape, [input]⟩)

/-- What a step asks for, or why it fails before it comes to a name. Nothing but the nodes of the graph is
    read. -/
def Step.request (g : Graph) : Step → Except Error Request
  | parameter shape name => .ok (.add ⟨name, .parameter, shape, []⟩)
  | arith op lhs rhs name =>
      match g.node lhs, g.node rhs with
      | .error e, _ => .error e
      | .ok _, .error e => .error e
      | .ok l, .ok r =>
          match l.shape.broadcast r.shape with
          | none => .error (.shapeMismatch op l.shape r.shape)
          | some shape => .ok (.add ⟨name, .arith op, shape, [lhs, rhs]⟩)
  | clamp input min max name => clampRequest g input min max name
  | activation input function name =>
      match g.node input with
      | .error e => .error e
      | .ok n => .ok (.add ⟨name, .activation function, n.shape, [input]⟩)
  | clip input bound =>
      if bound.isZero then
        match g.node input with
        | .error e => .error e
        | .ok _ => .ok (.existing input)
      else clampRequest g input (-bound) bound none

/-- A step has a node added, and the draft is this one. -/
inductive Step.Adds (g : Graph) : Step → Draft → Prop
  | parameter (shape : Shape) (name : Option String) :
      Adds g (.parameter shape name) ⟨name, .parameter, shape, []⟩
  | arith {op : Arith} {lhs rhs : NodeId} {name : Option String} {l r : Node} {shape : Shape} :
      g.node? lhs = some l → g.node? rhs = some r → l.shape.broadcast r.shape = some shape →
        Adds g (.arith op lhs rhs name) ⟨name, .arith op, shape, [lhs, rhs]⟩
  | clamp {input : NodeId} {min max : Binary32} {name : Option String} {n : Node} :
      g.node? input = some n → clampFault? min max = none →
        Adds g (.clamp input min max name) ⟨name, .clamp min max, n.shape, [input]⟩
  | activation {input : NodeId} {function : Activation} {name : Option String} {n : Node} :
      g.node? input = some n →
        Adds g (.activation input function name) ⟨name, .activation function, n.shape, [input]⟩
  | clip {input : NodeId} {bound : Binary32} {n : Node} :
      ¬ bound.isZero = true → g.node? input = some n → clampFault? (-bound) bound = none →
        Adds g (.clip input bound) ⟨none, .clamp (-bound) bound, n.shape, [input]⟩

theorem clampRequest_ne_existing (g : Graph) (input : NodeId) (min max : Binary32) (name : Option String)
    (id : NodeId) : clampRequest g input min max name ≠ .ok (.existing id) := by
  intro h
  unfold clampRequest at h
  split at h
  · cases h
  · split at h <;> cases h

theorem clampRequest_eq_add_iff {g : Graph} {input : NodeId} {min max : Binary32} {name : Option String}
    {d : Draft} :
    clampRequest g input min max name = .ok (.add d) ↔
      ∃ n, g.node? input = some n ∧ clampFault? min max = none ∧
        d = ⟨name, .clamp min max, n.shape, [input]⟩ := by
  constructor
  · intro h
    unfold clampRequest at h
    -- the operand comes first: its absence is reported whatever the bounds are
    split at h
    · cases h
    · next n hn =>
        split at h
        · cases h
        · next hfault =>
            cases h
            exact ⟨n, Graph.node_eq_ok_iff.mp hn, hfault, rfl⟩
  · rintro ⟨n, hn, hfault, rfl⟩
    simp only [clampRequest, Graph.node_eq_ok_iff.mpr hn, hfault]

/-- **What a request to add rests on**: operands that exist and that the operation takes. -/
theorem Step.request_eq_add_iff {s : Step} {g : Graph} {d : Draft} :
    s.request g = .ok (.add d) ↔ s.Adds g d := by
  constructor
  · intro h
    cases s with
    | parameter shape name =>
        cases h
        exact .parameter shape name
    | arith op lhs rhs name =>
        simp only [request] at h
        split at h
        · cases h
        · cases h
        · next l r hl hr =>
            split at h
            · cases h
            · next shape hshape =>
                cases h
                exact .arith (Graph.node_eq_ok_iff.mp hl) (Graph.node_eq_ok_iff.mp hr) hshape
    | clamp input min max name =>
        obtain ⟨n, hn, hfault, rfl⟩ := clampRequest_eq_add_iff.mp h
        exact .clamp hn hfault
    | activation input function name =>
        simp only [request] at h
        split at h
        · cases h
        · next n hn =>
            cases h
            exact .activation (Graph.node_eq_ok_iff.mp hn)
    | clip input bound =>
        simp only [request] at h
        split at h
        · split at h <;> cases h
        · next hzero =>
            obtain ⟨n, hn, hfault, rfl⟩ := clampRequest_eq_add_iff.mp h
            exact .clip hzero hn hfault
  · intro h
    cases h with
    | parameter shape name => rfl
    | arith hl hr hshape =>
        simp only [request, Graph.node_eq_ok_iff.mpr hl, Graph.node_eq_ok_iff.mpr hr, hshape]
    | clamp hn hfault => exact clampRequest_eq_add_iff.mpr ⟨_, hn, hfault, rfl⟩
    | activation hn => simp only [request, Graph.node_eq_ok_iff.mpr hn]
    | clip hzero hn hfault =>
        simp only [request, if_neg hzero]
        exact clampRequest_eq_add_iff.mpr ⟨_, hn, hfault, rfl⟩

/-- The only step that adds nothing is a clip that clips nothing. -/
theorem Step.request_eq_existing_iff {s : Step} {g : Graph} {id : NodeId} :
    s.request g = .ok (.existing id) ↔
      ∃ bound n, s = .clip id bound ∧ bound.isZero = true ∧ g.node? id = some n := by
  constructor
  · intro h
    cases s with
    | parameter shape name => cases h
    | arith op lhs rhs name =>
        simp only [request] at h
        split at h
        · cases h
        · cases h
        · split at h <;> cases h
    | clamp input min max name => exact absurd h (clampRequest_ne_existing _ _ _ _ _ _)
    | activation input function name =>
        simp only [request] at h
        split at h <;> cases h
    | clip input bound =>
        simp only [request] at h
        split at h
        · next hzero =>
            split at h
            · cases h
            · next n hn =>
                cases h
                exact ⟨bound, n, rfl, hzero, Graph.node_eq_ok_iff.mp hn⟩
        · exact absurd h (clampRequest_ne_existing _ _ _ _ _ _)
  · rintro ⟨bound, n, rfl, hzero, hn⟩
    simp only [request, if_pos hzero, Graph.node_eq_ok_iff.mpr hn]

namespace Graph

/-- The name of a draft's node: the one asked for, if it is free, or else an automatic one. -/
def nameFor (g : Graph) (d : Draft) : Except Error String :=
  if d.asked.getD "" = "" then .ok (numbered d.op.label (g.freshNumber d.op.label))
  else if g.names.contains (d.asked.getD "") then .error (.duplicateNodeName (d.asked.getD "") g.name)
  else .ok (d.asked.getD "")

/-- The counters once a draft has its name; only an automatic name moves one. -/
def countersFor (g : Graph) (d : Draft) : Std.TreeMap String Nat :=
  if d.asked.getD "" = "" then g.counters.insert d.op.label (g.freshNumber d.op.label) else g.counters

/-- A draft's node, with the next id and a name. -/
def drafted (g : Graph) (d : Draft) (name : String) : Node := ⟨g.nextId, name, d.op, d.shape, d.parents⟩

/-- The graph with a draft's node added under a name. -/
def grow (g : Graph) (d : Draft) (name : String) : Graph :=
  { g.extend (g.drafted d name) with counters := g.countersFor d, lastId := g.lastId + 1 }

variable (g : Graph) (d : Draft) (name : String)

@[simp] theorem grow_nodes : (g.grow d name).nodes = g.nodes.push (g.drafted d name) := rfl

@[simp] theorem grow_children :
    (g.grow d name).children = d.parents.foldl (adopt g.nextId) g.children := rfl

@[simp] theorem grow_parents :
    (g.grow d name).parents = g.parents.insert g.nextId (g.parents.getD g.nextId [] ++ d.parents) := rfl

@[simp] theorem grow_names : (g.grow d name).names = g.names.insert name := rfl

@[simp] theorem grow_lastId : (g.grow d name).lastId = g.lastId + 1 := rfl

@[simp] theorem size_grow : (g.grow d name).size = g.size + 1 := by
  simp [size]

/-- A name that is asked for is given or refused. -/
theorem nameFor_of_asked {asked : String} (hasked : d.asked = some asked) (hne : asked ≠ "") :
    g.nameFor d =
      if g.names.contains asked then .error (.duplicateNodeName asked g.name) else .ok asked := by
  unfold nameFor
  rw [hasked]
  exact if_neg hne

end Graph

/-! ## Carrying out a request -/

open Builder

theorem runOn_register_draft (g : Graph) (d : Draft) :
    (register d.asked d.op d.shape d.parents).runOn g =
      match g.nameFor d with
      | .error e => (.error e, g)
      | .ok name => (.ok g.nextId, g.grow d name) := by
  rw [runOn_register, runOn_claimName]
  -- no name asked for, a name that is taken, a name that is free
  unfold Graph.nameFor Graph.grow Graph.countersFor
  by_cases hasked : d.asked.getD "" = ""
  · simp only [hasked, if_true]
    rfl
  · by_cases htaken : g.names.contains (d.asked.getD "") = true
    · simp only [hasked, htaken, if_true, if_false]
    · simp only [hasked, htaken, if_false]
      rfl

theorem runOn_addClamp (g : Graph) (input : NodeId) (min max : Binary32) (name : Option String) :
    (addClamp input min max name).runOn g =
      match clampRequest g input min max name with
      | .error e => (.error e, g)
      | .ok (.existing id) => (.ok id, g)
      | .ok (.add d) => (register d.asked d.op d.shape d.parents).runOn g := by
  unfold addClamp clampRequest
  rw [runOn_bind, runOn_operand]
  cases g.node input with
  | error e => rfl
  | ok n => cases clampFault? min max <;> rfl

/-- **A step is its request, carried out.** -/
theorem runOn_action (s : Step) (g : Graph) :
    s.action.runOn g =
      match s.request g with
      | .error e => (.error e, g)
      | .ok (.existing id) => (.ok id, g)
      | .ok (.add d) => (register d.asked d.op d.shape d.parents).runOn g := by
  cases s with
  | parameter shape name => rfl
  | arith op lhs rhs name =>
      -- the operands are looked up from left to right, so the first one that is missing is reported
      simp only [Step.action, addArith, Step.request]
      rw [runOn_bind, runOn_operand]
      cases g.node lhs with
      | error e => rfl
      | ok l =>
          simp only [runOn_bind, runOn_operand]
          cases g.node rhs with
          | error e => rfl
          | ok r =>
              simp only
              cases l.shape.broadcast r.shape <;> rfl
  | clamp input min max name => exact runOn_addClamp g input min max name
  | activation input function name =>
      simp only [Step.action, addActivation, Step.request]
      rw [runOn_bind, runOn_operand]
      cases g.node input <;> rfl
  | clip input bound =>
      -- with a bound of zero a clip is its operand, otherwise it is a clamp
      simp only [Step.action, addClip, Step.request]
      by_cases hzero : bound.isZero = true
      · simp only [hzero, if_true, runOn_bind, runOn_operand]
        cases g.node input <;> rfl
      · simp only [hzero]
        exact runOn_addClamp g input (-bound) bound none

/-! ## How a step ends -/

/-- How a step may end, with its outcome and the graph that it leaves. -/
inductive Transition (g : Graph) (s : Step) : Except Error NodeId → Graph → Prop
  /-- It fails, and nothing has changed. -/
  | failed (e : Error) : Transition g s (.error e) g
  /-- There is nothing to add. -/
  | existing {id : NodeId} : s.request g = .ok (.existing id) → Transition g s (.ok id) g
  /-- One node has been added, behind all others. -/
  | added {d : Draft} {name : String} : s.Adds g d → g.nameFor d = .ok name →
      Transition g s (.ok g.nextId) (g.grow d name)

/-- **Every step ends in one of the three ways.** -/
theorem Step.transition (s : Step) (g : Graph) :
    Transition g s (s.action.runOn g).1 (s.action.runOn g).2 := by
  rw [runOn_action]
  cases hrequest : s.request g with
  | error e => exact .failed e
  | ok r =>
      cases r with
      | existing id => exact .existing hrequest
      | add d =>
          simp only [runOn_register_draft]
          cases hname : g.nameFor d with
          | error e => exact .failed e
          | ok name => exact .added (request_eq_add_iff.mp hrequest) hname

/-- **What every step keeps is kept by scripts.** -/
theorem Script.run_induction {motive : Graph → Prop} {g : Graph} (start : motive g)
    (step : ∀ g (s : Step), motive g → motive (s.action.runOn g).2) (steps : List Step) :
    motive (run steps g).2 := by
  induction steps generalizing g with
  | nil => exact start
  | cons s rest ih =>
      rw [run_cons]
      exact ih (step g s start)

/-- What holds of graphs without nodes and is kept by every transition holds of all reachable graphs. -/
theorem Graph.Reachable.induction {motive : Graph → Prop} (start : ∀ name, motive (Graph.empty name))
    (step : ∀ {g s outcome g'}, motive g → Transition g s outcome g' → motive g')
    {g : Graph} (h : g.Reachable) : motive g := by
  obtain ⟨name, steps, rfl⟩ := h
  exact Script.run_induction (start name) (fun g s hg => step hg (s.transition g)) steps

/-! ## The operations on graphs -/

/-- The operations by which a graph is changed. -/
inductive Operation : Builder NodeId → Prop
  | addParameter (shape : Shape) (name : Option String) : Operation (addParameter shape name)
  | addArith (op : Arith) (lhs rhs : NodeId) (name : Option String) : Operation (addArith op lhs rhs name)
  | addClamp (input : NodeId) (min max : Binary32) (name : Option String) :
      Operation (addClamp input min max name)
  | addActivation (input : NodeId) (function : Activation) (name : Option String) :
      Operation (addActivation input function name)
  | apply (function : Activation) (input : NodeId) (name : Option String) :
      Operation (function.apply input name)
  | cellAdd (lhs rhs : NodeId) : Operation (Cell.add lhs rhs)
  | cellSubtract (lhs rhs : NodeId) : Operation (Cell.subtract lhs rhs)
  | cellMultiply (lhs rhs : NodeId) : Operation (Cell.multiply lhs rhs)
  | clipped (c : Cell) (input : NodeId) : Operation (c.clipped input)

/-- **The operations are the actions of steps**, so that scripts of steps are all there is. -/
theorem operation_iff (b : Builder NodeId) : Operation b ↔ ∃ s : Step, s.action = b := by
  constructor
  · intro h
    cases h with
    | addParameter shape name => exact ⟨.parameter shape name, rfl⟩
    | addArith op lhs rhs name => exact ⟨.arith op lhs rhs name, rfl⟩
    | addClamp input min max name => exact ⟨.clamp input min max name, rfl⟩
    | addActivation input function name => exact ⟨.activation input function name, rfl⟩
    | apply function input name => exact ⟨.activation input function name, rfl⟩
    | cellAdd lhs rhs => exact ⟨.arith .add lhs rhs none, rfl⟩
    | cellSubtract lhs rhs => exact ⟨.arith .subtract lhs rhs none, rfl⟩
    | cellMultiply lhs rhs => exact ⟨.arith .multiply lhs rhs none, rfl⟩
    | clipped c input => exact ⟨.clip input c.clip, rfl⟩
  -- cells differ in their clip threshold only, so any cell with the bound will do
  · rintro ⟨s, rfl⟩
    cases s with
    | parameter shape name => exact .addParameter shape name
    | arith op lhs rhs name => exact .addArith op lhs rhs name
    | clamp input min max name => exact .addClamp input min max name
    | activation input function name => exact .addActivation input function name
    | clip input bound => exact .clipped { Cell.unset with clip := bound } input

end GateGraph
