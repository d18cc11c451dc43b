import GateGraph.Proofs.Graph.Structure

/-!
# `GateGraph.Proofs.Graph.Coherence` — what the queries of a graph say together

`Graph.WellFormed` speaks of the stores inside a graph. Somebody who builds graphs sees the queries and the
ids that steps return. For them this module says what holds after any script, failing steps included:

- the ids are `1, 2, .., n`, and every query has an answer for these ids and for no others;
- operands come before the nodes that use them, so ids are a topological order of the graph;
- the children of a node are the nodes that list it among their operands, as often as they do, in order;
- the declared shape of a node is what its operation declares for the shapes of its operands.

## Contents
- `Answers` and `Coherent`, with `WellFormed.coherent`.
- `Step.Returns`, what a step promises about the id that it returns, and `returns_run`: it holds to the end.
- `coherent_run`, all of this for scripts.
-/

namespace GateGraph

namespace Graph

variable {g : Graph}

/-! ## Answers -/

/-- The id is one of those in use. -/
def InRange (g : Graph) (id : NodeId) : Prop := 1 ≤ id.number ∧ id.number ≤ g.size

/-- A query has an answer for the ids in use, and for all others says that there is no such node. -/
def Answers {α : Type} (g : Graph) (query : NodeId → Except Error α) : Prop :=
  ∀ id, (g.InRange id → ∃ a, query id = .ok a) ∧ (¬ g.InRange id → query id = .error (.nodeNotFound id))

/-- The operands of a node, as far as there is one. -/
def operandsOf (g : Graph) (id : NodeId) : List NodeId :=
  match g.nodeParents id with
  | .ok parents => parents
  | .error _ => []

/-- The queries of a graph agree with each other. -/
structure Coherent (g : Graph) : Prop where
  /-- The ids are the numbers from one on. -/
  ids : g.ids = (List.range g.size).map fun i => ⟨i + 1⟩
  contained : ∀ id, g.contains id = true ↔ g.InRange id
  names : g.Answers g.nodeName
  shapes : g.Answers g.nodeShape
  ops : g.Answers g.nodeOp
  parents : g.Answers g.nodeParents
  children : g.Answers g.nodeChildren
  texts : g.Answers g.nodeText
  /-- A node has as many operands as its operation takes, and they come before it. -/
  earlier : ∀ c op parents, g.nodeOp c = .ok op → g.nodeParents c = .ok parents →
    parents.length = op.arity ∧ ∀ p ∈ parents, 1 ≤ p.number ∧ p.number < c.number
  /-- The children of a node are found by going through all nodes and their operands. -/
  adopted : ∀ p children, g.nodeChildren p = .ok children →
    children = g.ids.flatMap fun c => List.replicate ((g.operandsOf c).count p) c
  /-- The shape of a node is the one that its operation declares for the shapes of its operands. -/
  declared : ∀ c op parents shape, g.nodeOp c = .ok op → g.nodeParents c = .ok parents →
    g.nodeShape c = .ok shape →
      ∃ shapes, List.Forall₂ (fun p s => g.nodeShape p = .ok s) parents shapes ∧ op.Declares shapes shape

theorem node_of_node? {id : NodeId} {n : Node} (h : g.node? id = some n) : g.node id = .ok n :=
  node_eq_ok_iff.mpr h

theorem node_of_not_inRange {id : NodeId} (h : ¬ g.InRange id) : g.node id = .error (.nodeNotFound id) := by
  unfold node
  cases hn : g.node? id with
  | none => rfl
  | some n => exact absurd (number_of_node? hn) h

/-- A query that reads something about a node that there is answers as looking up the node does. -/
theorem answers_map {α : Type} (f : NodeId → Node → α) : g.Answers fun id => (g.node id).map (f id) := by
  intro id
  constructor
  · intro hin
    obtain ⟨n, hn⟩ := node?_of_number hin
    refine ⟨f id n, ?_⟩
    show (g.node id).map (f id) = _
    rw [node_of_node? hn]
    rfl
  · intro hout
    show (g.node id).map (f id) = _
    rw [node_of_not_inRange hout]
    rfl

theorem answers_nodeChildren : g.Answers g.nodeChildren := answers_map _

/-- A query that has been answered was about an id in use. -/
theorem inRange_of_nodeChildren {p : NodeId} {children : List NodeId}
    (h : g.nodeChildren p = .ok children) : g.InRange p := by
  by_contra hout
  rw [(answers_nodeChildren p).2 hout] at h
  cases h

/-- A field of a node that a query has returned is that of a node of the graph. -/
theorem of_map_node {α : Type} {f : Node → α} {id : NodeId} {a : α} (h : (g.node id).map f = .ok a) :
    ∃ n, g.node? id = some n ∧ f n = a := by
  cases hn : g.node id with
  | error e =>
      rw [hn] at h
      cases h
  | ok n =>
      rw [hn] at h
      exact ⟨n, node_eq_ok_iff.mp hn, Except.ok.inj h⟩

/-! ## Well-formed graphs are coherent -/

theorem WellFormed.id_of_node? (h : g.WellFormed) {id : NodeId} {n : Node} (hn : g.node? id = some n) :
    n.id = id := by
  obtain ⟨_ | i⟩ := id
  · cases hn
  · exact h.numbered i n hn

theorem WellFormed.node?_id (h : g.WellFormed) {n : Node} (hn : n ∈ g.nodes) : g.node? n.id = some n := by
  obtain ⟨i, hi, rfl⟩ := Array.mem_iff_getElem.mp hn
  have hsome := Array.getElem?_eq_getElem hi
  rw [h.numbered i _ hsome, node?_succ, hsome]

theorem WellFormed.ids_eq (h : g.WellFormed) : g.ids = (List.range g.size).map fun i => ⟨i + 1⟩ := by
  apply List.ext_getElem?
  intro i
  simp only [ids, List.getElem?_map, Array.getElem?_toList, size]
  by_cases hi : i < g.nodes.size
  · have hsome := Array.getElem?_eq_getElem hi
    rw [hsome, List.getElem?_range hi, Option.map_some, Option.map_some, h.numbered i _ hsome]
  · have hlen : (List.range g.nodes.size).length ≤ i := by
      rw [List.length_range]
      omega
    rw [Array.getElem?_eq_none (Nat.le_of_not_lt hi), List.getElem?_eq_none hlen]
    rfl

/-- The edges of a node lead to the operands that the node itself has. -/
theorem WellFormed.nodeParents_eq (h : g.WellFormed) (id : NodeId) :
    g.nodeParents id = (g.node id).map (·.parents) := by
  unfold nodeParents
  cases hn : g.node id with
  | error e => rfl
  | ok n =>
      rw [h.recorded, node_eq_ok_iff.mp hn]
      rfl

/-- Going through the ids is going through the nodes. -/
theorem WellFormed.occurrences_eq (h : g.WellFormed) (p : NodeId) :
    g.occurrences p = g.ids.flatMap fun c => List.replicate ((g.operandsOf c).count p) c := by
  rw [occurrences, ids, List.flatMap_map]
  apply List.flatMap_congr
  intro n hn
  have hnode : g.node n.id = .ok n := node_of_node? (h.node?_id (Array.mem_toList_iff.mp hn))
  have hoperands : g.operandsOf n.id = n.parents := by
    simp only [operandsOf, h.nodeParents_eq, hnode]
    rfl
  rw [hoperands]

/-- The stored children of a node are its occurrences. -/
theorem WellFormed.nodeChildren_eq (h : g.WellFormed) {p : NodeId} (hp : g.InRange p) :
    g.nodeChildren p = .ok (g.occurrences p) := by
  obtain ⟨n, hn⟩ := node?_of_number hp
  unfold nodeChildren
  rw [node_of_node? hn, h.adopted]
  rfl

theorem Lookup.nodeShape {ids : List NodeId} {nodes : List Node} (h : g.Lookup ids nodes) :
    List.Forall₂ (fun p s => g.nodeShape p = .ok s) ids (nodes.map (·.shape)) := by
  rw [List.forall₂_map_right_iff]
  refine h.imp fun id n hn => ?_
  show (g.node id).map _ = _
  rw [node_of_node? hn]
  rfl

/-- **In a well-formed graph all queries agree.** -/
theorem WellFormed.coherent (h : g.WellFormed) : g.Coherent where
  ids := h.ids_eq
  contained := by
    intro id
    rw [contains, Option.isSome_iff_exists]
    exact ⟨fun ⟨_, hn⟩ => number_of_node? hn, node?_of_number⟩
  names := answers_map _
  shapes := answers_map _
  ops := answers_map _
  parents := answers_map _
  children := answers_nodeChildren
  texts := answers_map _
  earlier := by
    intro c op parents hop hparents
    rw [h.nodeParents_eq] at hparents
    obtain ⟨n, hn, rfl⟩ := of_map_node hop
    obtain ⟨n', hn', rfl⟩ := of_map_node hparents
    -- two queries about one id speak of one node
    obtain rfl : n = n' := Option.some.inj (hn.symm.trans hn')
    obtain ⟨operands, hlookup, hdeclares⟩ := h.declared n (mem_of_node? hn)
    constructor
    · rw [hlookup.length_eq, ← hdeclares.length_eq, List.length_map]
    · intro p hp
      have hlt := h.earlier n (mem_of_node? hn) p hp
      rw [h.id_of_node? hn] at hlt
      exact ⟨(hlookup.number hp).1, hlt⟩
  adopted := by
    intro p children hchildren
    rw [h.nodeChildren_eq (inRange_of_nodeChildren hchildren)] at hchildren
    rw [← Except.ok.inj hchildren, h.occurrences_eq]
  declared := by
    intro c op parents shape hop hparents hshape
    rw [h.nodeParents_eq] at hparents
    obtain ⟨n, hn, rfl⟩ := of_map_node hop
    obtain ⟨n₁, hn₁, rfl⟩ := of_map_node hparents
    obtain ⟨n₂, hn₂, rfl⟩ := of_map_node hshape
    obtain rfl : n = n₁ := Option.some.inj (hn.symm.trans hn₁)
    obtain rfl : n = n₂ := Option.some.inj (hn.symm.trans hn₂)
    obtain ⟨operands, hlookup, hdeclares⟩ := h.declared n (mem_of_node? hn)
    exact ⟨_, hlookup.nodeShape, hdeclares⟩

end Graph

/-! ## What a step returns -/

/-- The operation that a step asks for. -/
def Step.op : Step → Op
  | .parameter _ _ => .parameter
  | .arith op _ _ _ => .arith op
  | .clamp _ min max _ => .clamp min max
  | .activation _ function _ => .activation function
  | .clip _ bound => .clamp (-bound) bound

/-- The operands that a step gives, in their order. -/
def Step.operands : Step → List NodeId
  | .parameter _ _ => []
  | .arith _ lhs rhs _ => [lhs, rhs]
  | .clamp input _ _ _ => [input]
  | .activation input _ _ => [input]
  | .clip input _ => [input]

/-- A step asks for a clip that clips nothing. -/
def Step.IsIdle : Step → Prop
  | .clip _ bound => bound.isZero = true
  | _ => False

/-- What is known of the id that a step has returned: it belongs to a node with the operation and the
    operands that the step gave, or to the operand itself where nothing is clipped. -/
structure Step.Returns (s : Step) (g : Graph) (id : NodeId) : Prop where
  idle : s.IsIdle → s.operands = [id]
  op : ¬ s.IsIdle → g.nodeOp id = .ok s.op
  operands : ¬ s.IsIdle → g.nodeParents id = .ok s.operands
  shape : ∀ shape name, s = .parameter shape name → g.nodeShape id = .ok shape

/-- A draft has the operation and the operands of its step. -/
theorem Step.Adds.draft_eq {s : Step} {g : Graph} {d : Draft} (h : s.Adds g d) :
    d.op = s.op ∧ d.parents = s.operands := by
  cases h <;> exact ⟨rfl, rfl⟩

theorem Step.Adds.not_isIdle {s : Step} {g : Graph} {d : Draft} (h : s.Adds g d) : ¬ s.IsIdle := by
  cases h with
  | clip hzero _ _ => exact hzero
  | parameter _ _ => exact id
  | arith _ _ _ => exact id
  | clamp _ _ => exact id
  | activation _ => exact id

theorem Step.Adds.shape_of_parameter {g : Graph} {d : Draft} {shape : Shape} {name : Option String}
    (h : (Step.parameter shape name).Adds g d) : d.shape = shape := by
  cases h
  rfl

namespace Graph

variable {g g' : Graph} {s : Step}

/-- A transition leaves the nodes that are there. -/
theorem node?_of_transition {id : NodeId} {n : Node} {outcome : Except Error NodeId}
    (ht : Transition g s outcome g') (h : g.node? id = some n) : g'.node? id = some n := by
  cases ht with
  | failed e => exact h
  | existing _ => exact h
  | added _ _ => exact node?_grow_of_some _ _ h

/-- A node stays as it is, whatever is done to the graph. -/
theorem node?_run {id : NodeId} {n : Node} (steps : List Step) (h : g.node? id = some n) :
    (Script.run steps g).2.node? id = some n :=
  Script.run_induction (motive := fun g => g.node? id = some n) h
    (fun g s hg => node?_of_transition (s.transition g) hg) steps

theorem field_of_node? {α : Type} (f : Node → α) {id : NodeId} {n : Node} (h : g.node? id = some n) :
    (g.node id).map f = .ok (f n) := by
  rw [node_of_node? h]
  rfl

/-- The fields of the node that has been added. -/
theorem field_grow {α : Type} (h : g.lastId = g.size) (f : Node → α) (d : Draft) (name : String) :
    ((g.grow d name).node g.nextId).map f = .ok (f (g.drafted d name)) :=
  field_of_node? f (node?_grow_nextId h d name)

/-- **What a step has returned is what was asked for, then and ever after.** -/
theorem WellFormed.returns_run (h : g.WellFormed) {id : NodeId} (ht : Transition g s (.ok id) g')
    (steps : List Step) : s.Returns (Script.run steps g').2 id := by
  have hlater : (Script.run steps g').2.WellFormed := (h.transition ht).run steps
  generalize houtcome : (Except.ok id : Except Error NodeId) = outcome at ht
  cases ht with
  | failed e => cases houtcome
  | existing hrequest =>
      cases houtcome
      obtain ⟨bound, n, rfl, hzero, -⟩ := Step.request_eq_existing_iff.mp hrequest
      exact ⟨fun _ => rfl, fun hbusy => absurd hzero hbusy, fun hbusy => absurd hzero hbusy,
        fun _ _ hs => nomatch hs⟩
  | @added d name hadds hname =>
      cases houtcome
      have hbusy := hadds.not_isIdle
      -- the new node is found at once, and later steps leave it as it is
      have hnode := node?_run steps (node?_grow_nextId h.counted d name)
      refine ⟨fun hidle => absurd hidle hbusy, fun _ => ?_, fun _ => ?_, ?_⟩
      · rw [← hadds.draft_eq.1]
        exact field_of_node? (·.op) hnode
      · rw [← hadds.draft_eq.2, hlater.nodeParents_eq]
        exact field_of_node? (·.parents) hnode
      · rintro shape name' rfl
        rw [← hadds.shape_of_parameter]
        exact field_of_node? (·.shape) hnode

/-- The outcomes of a script, each against the graph at its end. -/
theorem WellFormed.forall₂_returns_run (h : g.WellFormed) (steps : List Step) :
    List.Forall₂ (fun s outcome => ∀ id, outcome = .ok id → s.Returns (Script.run steps g).2 id) steps
      (Script.run steps g).1 := by
  induction steps generalizing g with
  | nil => exact .nil
  | cons s rest ih =>
      rw [Script.run_cons]
      have ht := s.transition g
      refine .cons (fun id hid => ?_) (ih (h.transition ht))
      -- the first step's id is looked up at the end of the rest of the script
      rw [hid] at ht
      exact h.returns_run ht rest

/-- **The representation of graphs.** After any script, from a graph without nodes under any name, all
    queries agree with each other, and each step that has succeeded has returned what it asked for. -/
theorem coherent_run (name : String) (steps : List Step) :
    (Script.run steps (empty name)).2.Coherent ∧
      List.Forall₂ (fun s outcome => ∀ id, outcome = .ok id →
        s.Returns (Script.run steps (empty name)).2 id) steps (Script.run steps (empty name)).1 := by
  have hreachable : (Script.run steps (empty name)).2.Reachable := ⟨name, steps, rfl⟩
  exact ⟨hreachable.wellFormed.coherent, (wellFormed_empty name).forall₂_returns_run steps⟩

end Graph

end GateGraph
