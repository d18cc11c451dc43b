import GateGraph.Proofs.Graph.Coherence
import GateGraph.Proofs.Shape.Refinement

/-!
# `GateGraph.Proofs.Graph.Specialization` — the same script with more known of its inputs

A script can be run with the shapes of its parameters left open here and there, and again with more of them
known. If the second run goes well, so does the first, and the two graphs differ in nothing but shapes, of
which the second one says more.

The argument is a simulation of the second run by the first one, a step at a time. Names and ids do not look
at shapes, so they come out alike; shapes do, and broadcasting is monotone.

## Contents
- `Step.Refines`, `Node.Refines`, `Draft.Refines` and `Graph.Refines`, the relation of the simulation.
- `Step.Adds.refines`: if the second step adds a node, so does the first.
- `Graph.Refines.step` and `Graph.Refines.run`.
- `Graph.Specializes` and `Refines.specializes`: what the simulation means to those who ask queries.
-/

namespace GateGraph

/-! ## The relation between the two runs -/

/-- A step says at least as much as another one: it is the same step, but for the shape of a parameter. -/
inductive Step.Refines : Step → Step → Prop
  | parameter {t s : Shape} (name : Option String) :
      t.Refines s → Refines (.parameter t name) (.parameter s name)
  | same (s : Step) : Refines s s

/-- A node that differs from another one in its shape, of which it says at least as much. -/
structure Node.Refines (n' n : Node) : Prop where
  id : n'.id = n.id
  name : n'.name = n.name
  op : n'.op = n.op
  parents : n'.parents = n.parents
  shape : n'.shape.Refines n.shape

/-- The same for a node that is to be added. -/
structure Draft.Refines (d' d : Draft) : Prop where
  asked : d'.asked = d.asked
  op : d'.op = d.op
  parents : d'.parents = d.parents
  shape : d'.shape.Refines d.shape

/-- The same for graphs: they have the same edges, names, counters and ids, and node by node the same but for
    the shapes. -/
structure Graph.Refines (g' g : Graph) : Prop where
  name : g'.name = g.name
  nodes : List.Forall₂ Node.Refines g'.nodes.toList g.nodes.toList
  children : g'.children = g.children
  parents : g'.parents = g.parents
  names : g'.names = g.names
  counters : g'.counters = g.counters
  lastId : g'.lastId = g.lastId

namespace Graph

variable {g' g : Graph}

theorem refines_empty (name : String) : (empty name).Refines (empty name) :=
  ⟨rfl, .nil, rfl, rfl, rfl, rfl, rfl⟩

theorem Refines.nextId (h : g'.Refines g) : g'.nextId = g.nextId := by
  unfold Graph.nextId
  rw [h.lastId]

theorem Refines.node? (h : g'.Refines g) (id : NodeId) :
    Option.Rel Node.Refines (g'.node? id) (g.node? id) := by
  obtain ⟨_ | i⟩ := id
  · exact .none
  · rw [node?_succ, node?_succ, ← Array.getElem?_toList, ← Array.getElem?_toList]
    exact getElem?_rel h.nodes i

theorem Refines.exists_node? (h : g'.Refines g) {id : NodeId} {n' : Node} (hn : g'.node? id = some n') :
    ∃ n, g.node? id = some n ∧ n'.Refines n := by
  have hrel := h.node? id
  rw [hn] at hrel
  exact exists_of_rel hrel

/-- Names do not look at shapes. -/
theorem Refines.nameFor (h : g'.Refines g) {d' d : Draft} (hd : d'.Refines d) :
    g'.nameFor d' = g.nameFor d := by
  unfold Graph.nameFor Graph.freshNumber
  rw [hd.asked, hd.op, h.names, h.counters, h.name]

theorem Refines.countersFor (h : g'.Refines g) {d' d : Draft} (hd : d'.Refines d) :
    g'.countersFor d' = g.countersFor d := by
  unfold Graph.countersFor Graph.freshNumber
  rw [hd.asked, hd.op, h.names, h.counters]

theorem Refines.grow (h : g'.Refines g) {d' d : Draft} (hd : d'.Refines d) (name : String) :
    (g'.grow d' name).Refines (g.grow d name) where
  name := h.name
  nodes := by
    have hlast : (g'.drafted d' name).Refines (g.drafted d name) :=
      ⟨h.nextId, rfl, hd.op, hd.parents, hd.shape⟩
    rw [grow_nodes, grow_nodes, Array.toList_push, Array.toList_push]
    exact List.rel_append h.nodes (.cons hlast .nil)
  children := by
    rw [grow_children, grow_children, h.nextId, h.children, hd.parents]
  parents := by
    rw [grow_parents, grow_parents, h.nextId, h.parents, hd.parents]
  names := by
    rw [grow_names, grow_names, h.names]
  counters := h.countersFor hd
  lastId := by
    rw [grow_lastId, grow_lastId, h.lastId]

end Graph

/-! ## One step -/

/-- **If the second step adds a node, so does the first**, and the two differ in their shapes alone. -/
theorem Step.Adds.refines {g' g : Graph} {s' s : Step} {d' : Draft} (h : s'.Adds g' d')
    (hg : g'.Refines g) (hs : s'.Refines s) : ∃ d, s.Adds g d ∧ d'.Refines d := by
  cases hs with
  | parameter name hshape =>
      cases h with
      | parameter _ _ => exact ⟨_, .parameter _ name, rfl, rfl, rfl, hshape⟩
  | same =>
      cases h with
      | parameter shape name => exact ⟨_, .parameter shape name, rfl, rfl, rfl, shape.refines_refl⟩
      | arith hl' hr' hshape' =>
          -- the only place where a shape decides whether a step fails
          obtain ⟨l, hl, hll⟩ := hg.exists_node? hl'
          obtain ⟨r, hr, hrr⟩ := hg.exists_node? hr'
          obtain ⟨shape, hshape, hrefines⟩ := Shape.broadcast_refines hll.shape hrr.shape hshape'
          exact ⟨_, .arith hl hr hshape, rfl, rfl, rfl, hrefines⟩
      | clamp hn' hfault =>
          obtain ⟨n, hn, hrefines⟩ := hg.exists_node? hn'
          exact ⟨_, .clamp hn hfault, rfl, rfl, rfl, hrefines.shape⟩
      | activation hn' =>
          obtain ⟨n, hn, hrefines⟩ := hg.exists_node? hn'
          exact ⟨_, .activation hn, rfl, rfl, rfl, hrefines.shape⟩
      | clip hzero hn' hfault =>
          obtain ⟨n, hn, hrefines⟩ := hg.exists_node? hn'
          exact ⟨_, .clip hzero hn hfault, rfl, rfl, rfl, hrefines.shape⟩

namespace Graph

variable {g' g : Graph}

/-- **If the second step succeeds, so does the first**, with the same id, and the graphs stay related. -/
theorem Refines.step {s' s : Step} (hg : g'.Refines g) (hs : s'.Refines s) {id : NodeId}
    (hok : (s'.action.runOn g').1 = .ok id) :
    (s.action.runOn g).1 = .ok id ∧ (s'.action.runOn g').2.Refines (s.action.runOn g).2 := by
  -- how the second step has ended says what the first one finds
  have ht := s'.transition g'
  rw [hok] at ht
  generalize (s'.action.runOn g').2 = after at ht ⊢
  cases ht with
  | existing hrequest =>
      -- a clip that clips nothing looks at no shape, so it is one in the first run too
      obtain ⟨bound, n', rfl, hzero, hn'⟩ := Step.request_eq_existing_iff.mp hrequest
      cases hs with
      | same =>
          obtain ⟨n, hn, -⟩ := hg.exists_node? hn'
          rw [runOn_action, Step.request_eq_existing_iff.mpr ⟨bound, n, rfl, hzero, hn⟩]
          exact ⟨rfl, hg⟩
  | @added d' name hadds' hname' =>
      obtain ⟨d, hadds, hd⟩ := hadds'.refines hg hs
      have hname : g.nameFor d = .ok name := by
        rw [← hg.nameFor hd, hname']
      rw [runOn_action, Step.request_eq_add_iff.mpr hadds]
      simp only [runOn_register_draft, hname]
      rw [hg.nextId]
      exact ⟨rfl, hg.grow hd name⟩

/-- **If all of the second run succeeds, so does the first run**, with the same ids. -/
theorem Refines.run {second first : List Step} (hg : g'.Refines g)
    (hsteps : List.Forall₂ Step.Refines second first)
    (hok : ∀ outcome ∈ (Script.run second g').1, ∃ id, outcome = .ok id) :
    (Script.run first g).1 = (Script.run second g').1 ∧
      (Script.run second g').2.Refines (Script.run first g).2 := by
  -- along both scripts at once, with the relation between the graphs as the invariant
  induction hsteps generalizing g' g with
  | nil => exact ⟨rfl, hg⟩
  | @cons s' s second first hs _ ih =>
      rw [Script.run_cons] at hok
      obtain ⟨⟨id, hid⟩, hrest⟩ := List.forall_mem_cons.mp hok
      obtain ⟨houtcome, hafter⟩ := hg.step hs hid
      obtain ⟨houtcomes, hfinal⟩ := ih hafter hrest
      rw [Script.run_cons, Script.run_cons, houtcome, hid, houtcomes]
      exact ⟨rfl, hfinal⟩

/-! ## What the queries say -/

/-- A graph answers all queries as another one does, except that its shapes say at least as much. -/
structure Specializes (g' g : Graph) : Prop where
  ids : g'.ids = g.ids
  names : ∀ id, g'.nodeName id = g.nodeName id
  ops : ∀ id, g'.nodeOp id = g.nodeOp id
  parents : ∀ id, g'.nodeParents id = g.nodeParents id
  children : ∀ id, g'.nodeChildren id = g.nodeChildren id
  shapes : ∀ id t, g'.nodeShape id = .ok t → ∃ s, g.nodeShape id = .ok s ∧ t.Refines s

/-- A query for a field other than the shape. -/
theorem Refines.map_node (h : g'.Refines g) {f : Node → α} (hf : ∀ n' n : Node, n'.Refines n → f n' = f n)
    (id : NodeId) : (g'.node id).map f = (g.node id).map f := by
  have hrel := h.node? id
  unfold node
  generalize g'.node? id = o' at hrel ⊢
  generalize g.node? id = o at hrel ⊢
  cases hrel with
  | none => rfl
  | some hn => exact congrArg Except.ok (hf _ _ hn)

theorem Refines.specializes (h : g'.Refines g) : g'.Specializes g where
  ids := by
    have hids : List.Forall₂ (· = ·) (g'.nodes.toList.map (·.id)) (g.nodes.toList.map (·.id)) := by
      rw [List.forall₂_map_left_iff, List.forall₂_map_right_iff]
      exact h.nodes.imp fun _ _ hn => hn.id
    exact List.forall₂_eq_eq_eq ▸ hids
  names := h.map_node fun _ _ hn => hn.name
  ops := h.map_node fun _ _ hn => hn.op
  parents := by
    intro id
    unfold nodeParents
    rw [h.parents]
    exact h.map_node (fun _ _ _ => rfl) id
  children := by
    intro id
    unfold nodeChildren
    rw [h.children]
    exact h.map_node (fun _ _ _ => rfl) id
  shapes := by
    intro id t ht
    obtain ⟨n', hn', rfl⟩ := of_map_node ht
    obtain ⟨n, hn, hrefines⟩ := h.exists_node? hn'
    exact ⟨n.shape, field_of_node? (·.shape) hn, hrefines.shape⟩

end Graph

end GateGraph
