import GateGraph.Descriptor
import GateGraph.Proofs.Graph.Coherence
import GateGraph.Proofs.Graph.Naming

/-!
# `GateGraph.Proofs.Graph.Snapshot` — a descriptor holds all there is to know of a graph

A descriptor keeps the nodes of a graph and leaves out the rest: the children, the taken names, the counters and
the last id. Nothing is lost by that. Two reachable graphs with the same descriptor answer all queries alike and
go on to do so, whatever is done to both (`Graph.Indistinguishable`), although their counters may differ. And
the graph can be built again from its descriptor, node by node.

The shape of the argument: a request and a name depend on the nodes alone, so one step on two graphs with the
same nodes ends alike (`describe_step`); runs follow by induction. For rebuilding, the invariant is that a
first part of the nodes has been built and the rest is still to come (`run_rebuild`).

## Contents
- `Graph.Alike` and `Graph.Indistinguishable`; `describe_step`, `describe_run` and
  `indistinguishable_of_describe_eq`.
- `Node.rebuild?` and `Descriptor.rebuild?`, the steps that make a node and a graph again; `run_rebuild`.
- `describe_complete`, both together.
-/

namespace GateGraph

namespace Graph

variable {g g' : Graph}

/-! ## Graphs that cannot be told apart -/

/-- Every query has the same answer. -/
structure Alike (g g' : Graph) : Prop where
  name : g.name = g'.name
  size : g.size = g'.size
  ids : g.ids = g'.ids
  contains : ∀ id, g.contains id = g'.contains id
  nodeName : ∀ id, g.nodeName id = g'.nodeName id
  nodeShape : ∀ id, g.nodeShape id = g'.nodeShape id
  nodeOp : ∀ id, g.nodeOp id = g'.nodeOp id
  nodeParents : ∀ id, g.nodeParents id = g'.nodeParents id
  nodeChildren : ∀ id, g.nodeChildren id = g'.nodeChildren id
  nodeText : ∀ id, g.nodeText id = g'.nodeText id
  describe : g.describe = g'.describe

/-- Whatever is done to both graphs, every step has the same outcome on both, and they are alike at the
    end. -/
def Indistinguishable (g g' : Graph) : Prop :=
  ∀ steps : List Step, (Script.run steps g).1 = (Script.run steps g').1 ∧
    (Script.run steps g).2.Alike (Script.run steps g').2

/-- In a well-formed graph the edges show every node the operands that it has itself. -/
theorem WellFormed.nodes_describe (h : g.WellFormed) : g.describe.nodes = g.nodes.toList := by
  have hsame : ∀ n ∈ g.nodes.toList, ({ n with parents := g.parents.getD n.id [] } : Node) = n := by
    intro n hn
    rw [h.recorded, h.node?_id (Array.mem_toList_iff.mp hn)]
    rfl
  unfold describe
  rw [List.map_congr_left hsame, List.map_id']

theorem WellFormed.describe_eq_iff (hg : g.WellFormed) (hg' : g'.WellFormed) :
    g.describe = g'.describe ↔ g.name = g'.name ∧ g.nodes = g'.nodes := by
  rw [Descriptor.mk.injEq, hg.nodes_describe, hg'.nodes_describe, Array.toList_inj]
  exact and_iff_right rfl

theorem node_congr (h : g.nodes = g'.nodes) : g.node = g'.node := by
  funext id
  unfold node node?
  rw [h]

/-- A request depends on the nodes alone. -/
theorem request_congr (h : g.nodes = g'.nodes) (s : Step) : s.request g = s.request g' := by
  have hclamp : clampRequest g = clampRequest g' := by
    funext input min max name
    unfold clampRequest
    rw [node_congr h]
  unfold Step.request
  rw [node_congr h, hclamp]

theorem Named.contains_congr (hg : g.Named) (hg' : g'.Named) (h : g.nodes = g'.nodes) (s : String) :
    g.names.contains s = g'.names.contains s := by
  rw [Bool.eq_iff_iff, hg.taken, hg'.taken, h]

/-- The number of an automatic name depends on the nodes alone, not on the counters. -/
theorem Named.freshNumber_congr (hg : g.Named) (hg' : g'.Named) (h : g.nodes = g'.nodes)
    (label : String) : g.freshNumber label = g'.freshNumber label := by
  -- the first free number is a property of the nodes, and there is only one
  have hfirst := hg.isFirstFree_freshNumber label
  have hfirst' := hg'.isFirstFree_freshNumber label
  refine IsFirstFree.unique hfirst ⟨hfirst'.pos, ?_, ?_⟩
  · rw [h]
    exact hfirst'.free
  · rw [h]
    exact hfirst'.least

theorem Named.nameFor_congr (hg : g.Named) (hg' : g'.Named) (hname : g.name = g'.name)
    (hnodes : g.nodes = g'.nodes) (d : Draft) : g.nameFor d = g'.nameFor d := by
  unfold nameFor
  rw [hg.freshNumber_congr hg' hnodes, hg.contains_congr hg' hnodes, hname]

theorem WellFormed.nextId_congr (hg : g.WellFormed) (hg' : g'.WellFormed) (h : g.nodes = g'.nodes) :
    g.nextId = g'.nextId := by
  rw [hg.nextId_eq, hg'.nextId_eq, size, size, h]

theorem Reachable.action (h : g.Reachable) (s : Step) : (s.action.runOn g).2.Reachable := h.run [s]

/-- **One step ends alike on two graphs with the same descriptor.** -/
theorem describe_step (hg : g.Reachable) (hg' : g'.Reachable) (h : g.describe = g'.describe) (s : Step) :
    (s.action.runOn g).1 = (s.action.runOn g').1 ∧
      (s.action.runOn g).2.describe = (s.action.runOn g').2.describe := by
  -- before and after the step, the descriptors are the same when the names and the nodes are
  obtain ⟨hname, hnodes⟩ := (hg.wellFormed.describe_eq_iff hg'.wellFormed).mp h
  rw [(hg.action s).wellFormed.describe_eq_iff (hg'.action s).wellFormed, runOn_action, runOn_action,
    request_congr hnodes]
  cases s.request g' with
  | error e => exact ⟨rfl, hname, hnodes⟩
  | ok r =>
      cases r with
      | existing id => exact ⟨rfl, hname, hnodes⟩
      | add d =>
          simp only [runOn_register_draft, hg.named.nameFor_congr hg'.named hname hnodes]
          cases g'.nameFor d with
          | error e => exact ⟨rfl, hname, hnodes⟩
          | ok name =>
              have hnext : g.nextId = g'.nextId := hg.wellFormed.nextId_congr hg'.wellFormed hnodes
              refine ⟨congrArg Except.ok hnext, hname, ?_⟩
              rw [grow_nodes, grow_nodes, drafted, drafted, hnext, hnodes]

/-- **So does every script.** -/
theorem describe_run (hg : g.Reachable) (hg' : g'.Reachable) (h : g.describe = g'.describe)
    (steps : List Step) :
    (Script.run steps g).1 = (Script.run steps g').1 ∧
      (Script.run steps g).2.describe = (Script.run steps g').2.describe := by
  induction steps generalizing g g' with
  | nil => exact ⟨rfl, h⟩
  | cons s rest ih =>
      obtain ⟨houtcome, hdescribe⟩ := describe_step hg hg' h s
      obtain ⟨houtcomes, hfinal⟩ := ih (hg.action s) (hg'.action s) hdescribe
      rw [Script.run_cons, Script.run_cons, houtcome, houtcomes]
      exact ⟨rfl, hfinal⟩

/-- The queries tell no more than the descriptor shows; the edges are a function of the nodes. -/
theorem WellFormed.alike (hg : g.WellFormed) (hg' : g'.WellFormed) (h : g.describe = g'.describe) :
    g.Alike g' := by
  obtain ⟨hname, hnodes⟩ := (hg.describe_eq_iff hg').mp h
  have hnode : g.node = g'.node := node_congr hnodes
  have hsize : g.size = g'.size := congrArg Array.size hnodes
  have hfield : ∀ {α : Type} (f : Node → α) id, (g.node id).map f = (g'.node id).map f := by
    intro α f id
    rw [hnode]
  have hids : g.ids = g'.ids := by
    unfold ids
    rw [hnodes]
  have hcontains : ∀ id, g.contains id = g'.contains id := by
    intro id
    unfold contains node?
    rw [hnodes]
  have hparents : ∀ id, g.nodeParents id = g'.nodeParents id := by
    intro id
    rw [hg.nodeParents_eq, hg'.nodeParents_eq]
    exact hfield _ id
  refine ⟨hname, hsize, hids, hcontains, hfield _, hfield _, hfield _, hparents, ?_, hfield _, h⟩
  intro id
  -- the children are stored apart, but they are the occurrences among the nodes
  by_cases hin : g.InRange id
  · have hin' : g'.InRange id := by
      unfold InRange at hin ⊢
      rw [← hsize]
      exact hin
    rw [hg.nodeChildren_eq hin, hg'.nodeChildren_eq hin']
    unfold occurrences
    rw [hnodes]
  · have hout' : ¬ g'.InRange id := by
      unfold InRange at hin ⊢
      rw [← hsize]
      exact hin
    rw [(answers_nodeChildren id).2 hin, (answers_nodeChildren id).2 hout']

/-- **Reachable graphs with the same descriptor cannot be told apart.** -/
theorem indistinguishable_of_describe_eq (hg : g.Reachable) (hg' : g'.Reachable)
    (h : g.describe = g'.describe) : g.Indistinguishable g' := by
  intro steps
  obtain ⟨houtcomes, hdescribe⟩ := describe_run hg hg' h steps
  exact ⟨houtcomes, (hg.run steps).wellFormed.alike (hg'.run steps).wellFormed hdescribe⟩

end Graph

/-! ## Building a graph again -/

/-- The step that makes a node again under its name, if it has as many operands as it takes. -/
def Node.rebuild? (n : Node) : Option Step :=
  match n.op, n.parents with
  | .parameter, [] => some (.parameter n.shape (some n.name))
  | .arith op, [lhs, rhs] => some (.arith op lhs rhs (some n.name))
  | .clamp min max, [input] => some (.clamp input min max (some n.name))
  | .activation function, [input] => some (.activation input function (some n.name))
  | _, _ => none

/-- The steps that make the nodes of a descriptor again, in order. -/
def Descriptor.rebuild? (d : Descriptor) : Option (List Step) := d.nodes.mapM Node.rebuild?

namespace Graph

variable {g h : Graph}

/-- The draft of a node that is made again. -/
def redraft (n : Node) : Draft := ⟨some n.name, n.op, n.shape, n.parents⟩

/-- Where a node's operands are there, it can be made again. -/
theorem rebuild_adds {n : Node} {operands : List Node} (hlookup : h.Lookup n.parents operands)
    (hdeclares : n.op.Declares (operands.map (·.shape)) n.shape) :
    ∃ s, n.rebuild? = some s ∧ s.Adds h (redraft n) := by
  obtain ⟨id, name, op, shape, parents⟩ := n
  simp only at hlookup hdeclares
  cases op with
  | parameter =>
      cases hlookup with
      | nil => exact ⟨_, rfl, .parameter shape (some name)⟩
      | cons _ _ => exact hdeclares.elim
  | arith op =>
      cases hlookup with
      | nil => exact hdeclares.elim
      | cons hl hrest =>
          cases hrest with
          | nil => exact hdeclares.elim
          | cons hr hrest =>
              cases hrest with
              | nil => exact ⟨_, rfl, .arith hl hr hdeclares⟩
              | cons _ _ => exact hdeclares.elim
  | clamp min max =>
      cases hlookup with
      | nil => exact hdeclares.elim
      | @cons _ m _ _ hn hrest =>
          cases hrest with
          | nil =>
              have hshape : shape = m.shape := hdeclares.2
              subst hshape
              exact ⟨_, rfl, Step.Adds.clamp (n := m) hn hdeclares.1⟩
          | cons _ _ => exact hdeclares.elim
  | activation function =>
      cases hlookup with
      | nil => exact hdeclares.elim
      | @cons _ m _ _ hn hrest =>
          cases hrest with
          | nil =>
              have hshape : shape = m.shape := hdeclares
              subst hshape
              exact ⟨_, rfl, Step.Adds.activation (n := m) hn⟩
          | cons _ _ => exact hdeclares.elim

/-- A graph whose nodes are the first ones of another graph, under the same name. -/
structure IsPart (h g : Graph) (rest : List Node) : Prop where
  name : h.name = g.name
  nodes : h.nodes.toList ++ rest = g.nodes.toList

theorem IsPart.node?_of_lt {rest : List Node} (hpart : h.IsPart g rest) {id : NodeId}
    (hlt : id.number ≤ h.size) : h.node? id = g.node? id := by
  obtain ⟨_ | i⟩ := id
  · rfl
  · have hi : i < h.nodes.toList.length := hlt
    rw [node?_succ, node?_succ, ← Array.getElem?_toList, ← Array.getElem?_toList, ← hpart.nodes,
      List.getElem?_append_left hi]

theorem IsPart.head {n : Node} {rest : List Node} (hpart : h.IsPart g (n :: rest)) :
    g.nodes[h.size]? = some n := by
  have hsize : h.size = h.nodes.toList.length := rfl
  rw [← Array.getElem?_toList, ← hpart.nodes, hsize, List.getElem?_append_right (Nat.le_refl _),
    Nat.sub_self]
  rfl

/-- Making the next node again: it gets its old id, its old name and its old shape. -/
theorem IsPart.grow {n : Node} {rest : List Node} (hg : g.WellFormed) (hh : h.WellFormed)
    (hpart : h.IsPart g (n :: rest)) :
    n.id = h.nextId ∧ (h.grow (redraft n) n.name).IsPart g rest := by
  have hid : n.id = h.nextId := (hg.numbered _ _ hpart.head).trans hh.nextId_eq.symm
  refine ⟨hid, hpart.name, ?_⟩
  have hsame : h.drafted (redraft n) n.name = n := by
    unfold drafted redraft
    rw [← hid]
  rw [grow_nodes, hsame, Array.toList_push, List.append_assoc]
  exact hpart.nodes

/-- A graph's nodes have distinct names, so the next node's name is still free. -/
theorem IsPart.nameFor {n : Node} {rest : List Node} (hg : g.Named) (hh : h.Named)
    (hpart : h.IsPart g (n :: rest)) : h.nameFor (redraft n) = .ok n.name := by
  have hmem : n ∈ g.nodes := Array.mem_of_getElem? hpart.head
  have hdistinct := hg.distinct
  rw [← hpart.nodes, List.map_append, List.map_cons, List.nodup_append] at hdistinct
  -- a name that is taken in the part belongs to an earlier node
  have hfree : ¬ h.names.contains n.name = true := by
    intro htaken
    obtain ⟨m, hm, hname⟩ := (hh.taken _).mp htaken
    have hold : m.name ∈ h.nodes.toList.map (·.name) :=
      List.mem_map.mpr ⟨m, Array.mem_toList_iff.mpr hm, rfl⟩
    exact hdistinct.2.2 _ hold _ List.mem_cons_self hname
  rw [nameFor_of_asked h (redraft n) rfl (hg.nonempty n hmem), if_neg hfree]

/-- The step for the next node adds it. -/
theorem IsPart.rebuild_head {n : Node} {rest : List Node} (hg : g.Reachable) (hh : h.Reachable)
    (hpart : h.IsPart g (n :: rest)) :
    ∃ s, n.rebuild? = some s ∧ s.action.runOn h = (.ok n.id, h.grow (redraft n) n.name) := by
  have hmem : n ∈ g.nodes := Array.mem_of_getElem? hpart.head
  have hid : n.id = h.nextId := (hpart.grow hg.wellFormed hh.wellFormed).1
  obtain ⟨operands, hlookup, hdeclares⟩ := hg.wellFormed.declared n hmem
  -- the operands come before the node, so they are in the part that is there
  have hlookup' : h.Lookup n.parents operands := by
    refine hlookup.congr fun p hp => hpart.node?_of_lt ?_
    have hlt := hg.wellFormed.earlier n hmem p hp
    rw [hid, hh.wellFormed.nextId_eq] at hlt
    exact Nat.le_of_lt_succ hlt
  obtain ⟨s, hs, hadds⟩ := rebuild_adds hlookup' hdeclares
  refine ⟨s, hs, ?_⟩
  rw [runOn_action, Step.request_eq_add_iff.mpr hadds, hid]
  simp only [runOn_register_draft, hpart.nameFor hg.named hh.named]

/-- **Building the rest of a graph.** Every step succeeds, with the old ids, and in the end all nodes are
    there again. -/
theorem run_rebuild (hg : g.Reachable) {rest : List Node} (hh : h.Reachable) (hpart : h.IsPart g rest) :
    ∃ steps, rest.mapM Node.rebuild? = some steps ∧
      (Script.run steps h).1 = rest.map (fun n => .ok n.id) ∧
      (Script.run steps h).2.describe = g.describe := by
  -- the part that is there grows as the rest gets shorter
  induction rest generalizing h with
  | nil =>
      refine ⟨[], rfl, rfl, (hh.wellFormed.describe_eq_iff hg.wellFormed).mpr ⟨hpart.name, ?_⟩⟩
      rw [← Array.toList_inj, ← hpart.nodes, List.append_nil]
  | cons n rest ih =>
      obtain ⟨s, hs, hrun⟩ := hpart.rebuild_head hg hh
      have hnext : (h.grow (redraft n) n.name).Reachable := by
        have hafter := hh.action s
        rwa [hrun] at hafter
      obtain ⟨steps, hsteps, houtcomes, hdescribe⟩ :=
        ih hnext (hpart.grow hg.wellFormed hh.wellFormed).2
      refine ⟨s :: steps, ?_, ?_, ?_⟩
      · rw [List.mapM_cons, hs, hsteps]
        rfl
      · rw [Script.run_cons, hrun, List.map_cons]
        exact congrArg _ houtcomes
      · rw [Script.run_cons, hrun]
        exact hdescribe

/-- **A descriptor is a complete snapshot.** The nodes of a reachable graph can be made again one after
    another, each with its old id, and give a graph with the same descriptor. That graph, like every other
    reachable graph with this descriptor, cannot be told from the first one by anything that is done later. -/
theorem describe_complete (hg : g.Reachable) :
    (∃ steps, g.describe.rebuild? = some steps ∧
      (Script.run steps (empty g.name)).1 = g.ids.map .ok ∧
      (Script.run steps (empty g.name)).2.describe = g.describe ∧
      (Script.run steps (empty g.name)).2.Indistinguishable g) ∧
    ∀ g' : Graph, g'.Reachable → g'.describe = g.describe → g'.Indistinguishable g := by
  have hpart : (empty g.name).IsPart g g.nodes.toList := ⟨rfl, rfl⟩
  obtain ⟨steps, hsteps, houtcomes, hdescribe⟩ := run_rebuild hg (.empty g.name) hpart
  have hreachable : (Script.run steps (empty g.name)).2.Reachable := ⟨g.name, steps, rfl⟩
  have hrebuild : g.describe.rebuild? = some steps := by
    unfold Descriptor.rebuild?
    rw [hg.wellFormed.nodes_describe, hsteps]
  refine ⟨⟨steps, hrebuild, ?_, hdescribe, ?_⟩, ?_⟩
  · rw [houtcomes, ids, List.map_map]
    rfl
  · exact indistinguishable_of_describe_eq hreachable hg hdescribe
  · intro g' hg' h
    exact indistinguishable_of_describe_eq hg' hg h

/-- A graph for which this says something: a node that is used twice, a name that an automatic one has to
    avoid, and a failing step. -/
theorem describe_complete_tanh :
    ∃ g : Graph, g.Reachable ∧ g.size = 4 ∧
      (∃ steps, g.describe.rebuild? = some steps ∧
        (Script.run steps (empty g.name)).1 = g.ids.map .ok ∧
        (Script.run steps (empty g.name)).2.describe = g.describe ∧
        (Script.run steps (empty g.name)).2.Indistinguishable g) ∧
      ∀ g' : Graph, g'.Reachable → g'.describe = g.describe → g'.Indistinguishable g :=
  let steps : List Step := [
    .parameter (.ranked [none, some 32]) (some "x"),
    .arith .add ⟨1⟩ ⟨1⟩ (some "tanh_1"),
    .arith .add ⟨1⟩ ⟨9⟩ none,
    .activation ⟨2⟩ (.ofKind .tanh) none,
    .activation ⟨2⟩ (.ofKind .tanh) none]
  have hreachable : (Script.run steps (empty "gate")).2.Reachable := ⟨"gate", steps, rfl⟩
  ⟨(Script.run steps (empty "gate")).2, hreachable, by decide +kernel, describe_complete hreachable⟩

end Graph

end GateGraph
