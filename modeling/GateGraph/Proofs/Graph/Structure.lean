import Mathlib.Data.List.Forall2
import GateGraph.Proofs.Graph.Transition

/-!
# `GateGraph.Proofs.Graph.Structure` — how the parts of a graph hang together

The nodes of a graph, the edges in either direction and the last id are stored apart, and each node has its
operands once more with it. This module says how all of these agree (`Graph.WellFormed`), and that every
transition keeps it so.

## Contents
- `Op.Declares`: which operands an operation takes, and the shape that it declares.
- Lookups in a graph that grows: `node?_grow` and `node?_nextId`, and in its edges: `getD_insert_edges` and
  `getD_foldl_adopt`.
- `WellFormed`, with `WellFormed.transition` for one step and `Reachable.wellFormed` for all runs.
-/

namespace GateGraph

/-! ## Operations and their operands -/

/-- An operation takes operands of these shapes and declares this shape. A parameter declares what it
    likes. -/
def Op.Declares : Op → List Shape → Shape → Prop
  | .parameter, [], _ => True
  | .arith _, [l, r], s => l.broadcast r = some s
  | .clamp min max, [a], s => clampFault? min max = none ∧ s = a
  | .activation _, [a], s => s = a
  | _, _, _ => False

/-- How many operands an operation takes. -/
def Op.arity : Op → Nat
  | .parameter => 0
  | .arith _ => 2
  | .clamp _ _ => 1
  | .activation _ => 1

theorem Op.Declares.length_eq {op : Op} {shapes : List Shape} {s : Shape} (h : op.Declares shapes s) :
    shapes.length = op.arity := by
  unfold Op.Declares at h
  split at h <;> first | rfl | exact h.elim

namespace Graph

variable {g : Graph}

/-! ## Lookups -/

theorem node?_eq_getElem? {id : NodeId} (h : 1 ≤ id.number) : g.node? id = g.nodes[id.number - 1]? := by
  obtain ⟨_ | i⟩ := id
  · exact absurd h (by simp)
  · rfl

theorem number_of_node? {id : NodeId} {n : Node} (h : g.node? id = some n) :
    1 ≤ id.number ∧ id.number ≤ g.size := by
  obtain ⟨_ | i⟩ := id
  · exact absurd h (by simp)
  · rw [node?_succ] at h
    obtain ⟨hi, -⟩ := Array.getElem?_eq_some_iff.mp h
    exact ⟨Nat.succ_pos i, hi⟩

theorem node?_of_number {id : NodeId} (h : 1 ≤ id.number ∧ id.number ≤ g.size) :
    ∃ n, g.node? id = some n := by
  obtain ⟨_ | i⟩ := id
  · exact absurd h.1 (by simp)
  · have hi : i < g.nodes.size := h.2
    exact ⟨g.nodes[i], Array.getElem?_eq_getElem hi⟩

theorem mem_of_node? {id : NodeId} {n : Node} (h : g.node? id = some n) : n ∈ g.nodes := by
  rw [node?_eq_getElem? (number_of_node? h).1] at h
  exact Array.mem_of_getElem? h

/-- The next id is nobody's yet, as long as the last one is that of the last node. -/
theorem node?_nextId (h : g.lastId = g.size) : g.node? g.nextId = none := by
  unfold nextId
  rw [node?_succ, h]
  exact Array.getElem?_eq_none (Nat.le_refl _)

/-- The node that has been added is found under the next id, and the others where they were. -/
theorem node?_grow (h : g.lastId = g.size) (d : Draft) (name : String) (id : NodeId) :
    (g.grow d name).node? id = if id = g.nextId then some (g.drafted d name) else g.node? id := by
  obtain ⟨_ | i⟩ := id
  · simp [nextId]
  · simp only [node?_succ, grow_nodes, Array.getElem?_push, nextId, h, NodeId.mk.injEq,
      Nat.add_right_cancel_iff]
    rfl

theorem node?_grow_nextId (h : g.lastId = g.size) (d : Draft) (name : String) :
    (g.grow d name).node? g.nextId = some (g.drafted d name) := by
  rw [node?_grow h, if_pos rfl]

/-- What was found before is found afterwards. -/
theorem node?_grow_of_some {id : NodeId} {n : Node} (d : Draft) (name : String)
    (h : g.node? id = some n) : (g.grow d name).node? id = some n := by
  obtain ⟨_ | i⟩ := id
  · cases h
  · obtain ⟨hi, hn⟩ := Array.getElem?_eq_some_iff.mp h
    rw [node?_succ, grow_nodes, Array.getElem?_push_lt hi, hn]

/-- Each node that is added takes one id. -/
theorem lastId_grow_eq_size (h : g.lastId = g.size) (d : Draft) (name : String) :
    (g.grow d name).lastId = (g.grow d name).size := by
  rw [grow_lastId, size_grow, h]

/-! ## The operands of a draft -/

/-- The nodes with these ids, in order. -/
def Lookup (g : Graph) (ids : List NodeId) (nodes : List Node) : Prop :=
  List.Forall₂ (fun id n => g.node? id = some n) ids nodes

theorem Lookup.grow {ids : List NodeId} {nodes : List Node} (d : Draft) (name : String)
    (h : g.Lookup ids nodes) : (g.grow d name).Lookup ids nodes :=
  List.Forall₂.imp (fun _ _ hn => node?_grow_of_some d name hn) h

/-- Graphs that agree on the ids agree on their nodes. -/
theorem Lookup.congr {h : Graph} {ids : List NodeId} {nodes : List Node} (hlookup : g.Lookup ids nodes)
    (hagree : ∀ id ∈ ids, h.node? id = g.node? id) : h.Lookup ids nodes := by
  induction hlookup with
  | nil => exact .nil
  | cons hn _ ih =>
      obtain ⟨hhead, htail⟩ := List.forall_mem_cons.mp hagree
      exact .cons (hhead.trans hn) (ih htail)

theorem Lookup.number {ids : List NodeId} {nodes : List Node} (h : g.Lookup ids nodes) {id : NodeId}
    (hid : id ∈ ids) : 1 ≤ id.number ∧ id.number ≤ g.size := by
  induction h with
  | nil => exact absurd hid List.not_mem_nil
  | cons hn _ ih =>
      rcases List.mem_cons.mp hid with rfl | hmem
      · exact number_of_node? hn
      · exact ih hmem

/-- **A draft is sound**: its operands exist, and its shape is the one that the operation declares for
    them. -/
theorem declares_of_adds {s : Step} {d : Draft} (h : s.Adds g d) :
    ∃ operands, g.Lookup d.parents operands ∧ d.op.Declares (operands.map (·.shape)) d.shape := by
  cases h with
  | parameter shape name => exact ⟨[], .nil, trivial⟩
  | @arith _ _ _ _ l r _ hl hr hshape => exact ⟨[l, r], .cons hl (.cons hr .nil), hshape⟩
  | @clamp _ _ _ _ n hn hfault => exact ⟨[n], .cons hn .nil, hfault, rfl⟩
  | @activation _ _ _ n hn => exact ⟨[n], .cons hn .nil, rfl⟩
  | @clip _ _ n _ hn hfault => exact ⟨[n], .cons hn .nil, hfault, rfl⟩

/-! ## The edges -/

theorem getD_insert_edges (edges : Edges) (id other : NodeId) (ends : List NodeId) :
    (edges.insert id ends).getD other [] = if other = id then ends else edges.getD other [] := by
  rw [Std.TreeMap.getD_insert]
  by_cases h : other = id
  · rw [if_pos h, if_pos (Std.LawfulEqOrd.compare_eq_iff_eq.mpr h.symm)]
  · rw [if_neg h, if_neg fun heq => h (Std.LawfulEqOrd.eq_of_compare heq).symm]

/-- A child goes to each of its parents once for each time that the parent occurs. -/
theorem getD_foldl_adopt (child : NodeId) (parents : List NodeId) (children : Edges) (p : NodeId) :
    (parents.foldl (adopt child) children).getD p [] =
      children.getD p [] ++ List.replicate (parents.count p) child := by
  -- one parent at a time, with whatever the entries have become by then
  induction parents generalizing children with
  | nil => simp
  | cons parent parents ih =>
      rw [List.foldl_cons, ih, adopt, getD_insert_edges]
      by_cases hp : p = parent
      · subst hp
        simp [List.replicate_succ]
      · rw [if_neg hp, List.count_cons_of_ne (Ne.symm hp)]

/-- The nodes that have `p` as an operand, from the first to the last, each once for each time. -/
def occurrences (g : Graph) (p : NodeId) : List NodeId :=
  g.nodes.toList.flatMap fun n => List.replicate (n.parents.count p) n.id

theorem occurrences_grow (d : Draft) (name : String) (p : NodeId) :
    (g.grow d name).occurrences p = g.occurrences p ++ List.replicate (d.parents.count p) g.nextId := by
  simp [occurrences, drafted]

/-! ## Well-formed graphs -/

/-- The stores of a graph agree with each other. -/
structure WellFormed (g : Graph) : Prop where
  /-- A node's number is its place. -/
  numbered : ∀ (i : Nat) (n : Node), g.nodes[i]? = some n → n.id = ⟨i + 1⟩
  /-- The last id is that of the last node: none is given without a node. -/
  counted : g.lastId = g.size
  /-- The operands of a node exist, and its shape is the one that its operation declares for them. -/
  declared : ∀ n ∈ g.nodes,
    ∃ operands, g.Lookup n.parents operands ∧ n.op.Declares (operands.map (·.shape)) n.shape
  /-- The operands of a node come before it. -/
  earlier : ∀ n ∈ g.nodes, ∀ p ∈ n.parents, p.number < n.id.number
  /-- The edges in one direction lead from a node to its operands, and from no other id anywhere. -/
  recorded : ∀ id, g.parents.getD id [] = (g.node? id).elim [] (·.parents)
  /-- Those in the other direction lead to the nodes that have it as an operand. -/
  adopted : ∀ p, g.children.getD p [] = g.occurrences p

theorem wellFormed_empty (name : String) : (empty name).WellFormed where
  numbered := by simp [empty]
  counted := rfl
  declared := by simp [empty]
  earlier := by simp [empty]
  recorded := by
    rintro ⟨_ | i⟩
    · rfl
    · rfl
  adopted := fun _ => rfl

theorem WellFormed.number_le (h : g.WellFormed) {n : Node} (hn : n ∈ g.nodes) : n.id.number ≤ g.size := by
  obtain ⟨i, hi, rfl⟩ := Array.mem_iff_getElem.mp hn
  rw [h.numbered i _ (Array.getElem?_eq_getElem hi)]
  exact hi

/-- The id of the next node is the next number. -/
theorem WellFormed.nextId_eq (h : g.WellFormed) : g.nextId = ⟨g.size + 1⟩ := by
  unfold nextId
  rw [h.counted]

/-- **A node with sound operands keeps a graph well-formed.** -/
theorem WellFormed.grow (h : g.WellFormed) {d : Draft} (name : String)
    (hd : ∃ operands, g.Lookup d.parents operands ∧ d.op.Declares (operands.map (·.shape)) d.shape) :
    (g.grow d name).WellFormed := by
  obtain ⟨operands, hlookup, hdeclares⟩ := hd
  refine ⟨?_, lastId_grow_eq_size h.counted d name, ?_, ?_, ?_, ?_⟩
  -- the last node has the last place
  · intro i n hn
    rw [grow_nodes, Array.getElem?_push] at hn
    split at hn
    · next hi =>
        rw [← Option.some.inj hn, hi]
        exact h.nextId_eq
    · exact h.numbered i n hn
  -- nodes that were found before are still found, so what old nodes declare stays right
  · intro n hn
    rcases Array.mem_push.mp hn with hold | rfl
    · obtain ⟨operands, hlookup, hdeclares⟩ := h.declared n hold
      exact ⟨operands, hlookup.grow d name, hdeclares⟩
    · exact ⟨operands, hlookup.grow d name, hdeclares⟩
  -- the operands of the new node are there already
  · intro n hn p hp
    rcases Array.mem_push.mp hn with hold | rfl
    · exact h.earlier n hold p hp
    · have hle := (hlookup.number hp).2
      rw [← h.counted] at hle
      exact Nat.lt_succ_of_le hle
  -- the new id had no edges, and its node's operands are now all of them
  · intro id
    rw [grow_parents, getD_insert_edges, node?_grow h.counted, h.recorded, h.recorded,
      node?_nextId h.counted]
    split <;> rfl
  -- what the new node adds to the children of its operands is where it occurs
  · intro p
    rw [occurrences_grow, grow_children, getD_foldl_adopt, h.adopted]

theorem WellFormed.transition {s : Step} {outcome : Except Error NodeId} {g' : Graph} (h : g.WellFormed)
    (ht : Transition g s outcome g') : g'.WellFormed := by
  cases ht with
  | failed e => exact h
  | existing _ => exact h
  | added hadds _ => exact h.grow _ (declares_of_adds hadds)

theorem WellFormed.run (h : g.WellFormed) (steps : List Step) : (Script.run steps g).2.WellFormed :=
  Script.run_induction h (fun g s hg => hg.transition (s.transition g)) steps

/-- **All reachable graphs are well-formed.** -/
theorem Reachable.wellFormed (h : g.Reachable) : g.WellFormed :=
  h.induction wellFormed_empty fun hg ht => hg.transition ht

end Graph

end GateGraph
