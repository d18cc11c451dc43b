import GateGraph.Proofs.Graph.Snapshot

/-!
# `GateGraph.Proofs.Graph.Growth` — nothing that is in a graph is ever changed

Steps write to several stores: the nodes, the edges, the names, the counters, the last id. To those who look
at a graph before and after any number of steps, all of this comes to one thing: the nodes that were there
are still there, as they were, and others may stand behind them. Only the children of an old node may become
more, and those that have been added to them are new nodes.

The argument needs no look at the stores. A step leaves the old nodes in front of the new ones (`IsPart`), so
a script does; the edges are a function of the nodes, and the children that an old node has got come from the
new ones.

## Contents
- `IsPart.of_transition`, for one step, and `exists_isPart_run`, for scripts.
- `IsPart.occurrences` and `IsPart.newer`: what the new nodes add to the children of the old ones.
- `Graph.Continues` and `WellFormed.continues`; `append_only_run`.
-/

namespace GateGraph

namespace Graph

variable {g g' g'' : Graph}

/-! ## The old nodes in front -/

theorem isPart_refl (g : Graph) : g.IsPart g [] := ⟨rfl, List.append_nil _⟩

theorem isPart_grow (g : Graph) (d : Draft) (name : String) :
    g.IsPart (g.grow d name) [g.drafted d name] := ⟨rfl, by rw [grow_nodes, Array.toList_push]⟩

theorem IsPart.trans {first second : List Node} (h : g.IsPart g' first) (h' : g'.IsPart g'' second) :
    g.IsPart g'' (first ++ second) where
  name := h.name.trans h'.name
  nodes := by rw [← List.append_assoc, h.nodes, h'.nodes]

/-- **A step leaves the nodes that are there**, and puts at most one behind them. -/
theorem IsPart.of_transition {s : Step} {outcome : Except Error NodeId} (ht : Transition g s outcome g') :
    ∃ added, g.IsPart g' added := by
  cases ht with
  | failed e => exact ⟨[], g.isPart_refl⟩
  | existing _ => exact ⟨[], g.isPart_refl⟩
  | @added d name _ _ => exact ⟨[g.drafted d name], g.isPart_grow d name⟩

theorem exists_isPart_run (g : Graph) (steps : List Step) :
    ∃ added, g.IsPart (Script.run steps g).2 added := by
  refine Script.run_induction (motive := fun g' => ∃ added, g.IsPart g' added) ⟨[], g.isPart_refl⟩ ?_ steps
  rintro g' s ⟨before, hbefore⟩
  obtain ⟨added, hadded⟩ := IsPart.of_transition (s.transition g')
  exact ⟨before ++ added, hbefore.trans hadded⟩

/-! ## What the new nodes add -/

variable {added : List Node}

/-- An old node is found as before. -/
theorem IsPart.node_eq (h : g.IsPart g' added) {id : NodeId} {n : Node} (hn : g.node id = .ok n) :
    g'.node id = .ok n := by
  rw [node_eq_ok_iff] at hn ⊢
  rw [← h.node?_of_lt (number_of_node? hn).2, hn]

theorem IsPart.map_node {α : Type} (h : g.IsPart g' added) {f : Node → α} {id : NodeId} {a : α}
    (ha : (g.node id).map f = .ok a) : (g'.node id).map f = .ok a := by
  obtain ⟨n, hn, rfl⟩ := of_map_node ha
  rw [h.node_eq (node_of_node? hn)]
  rfl

/-- A new node is behind all the old ones. -/
theorem IsPart.newer (h : g.IsPart g' added) (hg' : g'.WellFormed) {n : Node} (hn : n ∈ added) :
    g.size < n.id.number := by
  obtain ⟨i, hi, rfl⟩ := List.mem_iff_getElem.mp hn
  -- its place is that among the new nodes, counted from the last old one
  have hplace : g'.nodes[g.size + i]? = some added[i] := by
    have hsize : g.nodes.toList.length = g.size := rfl
    rw [← Array.getElem?_toList, ← h.nodes, List.getElem?_append_right (by omega), hsize,
      Nat.add_sub_cancel_left, List.getElem?_eq_getElem hi]
  rw [hg'.numbered _ _ hplace]
  exact Nat.lt_succ_of_le (Nat.le_add_right g.size i)

/-- The children of a node are those among the old nodes, and then those among the new ones. -/
theorem IsPart.occurrences (h : g.IsPart g' added) (p : NodeId) :
    g'.occurrences p =
      g.occurrences p ++ added.flatMap fun n => List.replicate (n.parents.count p) n.id := by
  unfold Graph.occurrences
  rw [← h.nodes, List.flatMap_append]

/-! ## Later graphs -/

/-- A graph goes on from another one: all that could be learnt from the earlier graph still holds, except
    that its nodes may have got children, which are newer than all of its nodes. -/
structure Continues (g' g : Graph) : Prop where
  name : g'.name = g.name
  /-- The old nodes stand in front, each with all that the descriptor says of it. -/
  nodes : g.describe.nodes <+: g'.describe.nodes
  /-- A node that was found is found again: its id, name, operation, shape and operands have not changed. -/
  node : ∀ id n, g.node id = .ok n → g'.node id = .ok n
  texts : ∀ id text, g.nodeText id = .ok text → g'.nodeText id = .ok text
  /-- The children that a node had are the first ones that it has. -/
  children : ∀ p before, g.nodeChildren p = .ok before →
    ∃ later, g'.nodeChildren p = .ok (before ++ later) ∧ ∀ c ∈ later, ∀ id ∈ g.ids, id.number < c.number

theorem WellFormed.continues (hg : g.WellFormed) (hg' : g'.WellFormed) (h : g.IsPart g' added) :
    g'.Continues g where
  name := h.name.symm
  nodes := by
    rw [hg.nodes_describe, hg'.nodes_describe]
    exact ⟨added, h.nodes⟩
  node _ _ hn := h.node_eq hn
  texts _ _ htext := h.map_node htext
  children := by
    intro p before hbefore
    have hp : g.InRange p := inRange_of_nodeChildren hbefore
    rw [hg.nodeChildren_eq hp, Except.ok.injEq] at hbefore
    obtain ⟨n, hn⟩ := node?_of_number hp
    have hp' : g'.InRange p := by
      rw [h.node?_of_lt hp.2] at hn
      exact number_of_node? hn
    refine ⟨added.flatMap fun n => List.replicate (n.parents.count p) n.id, ?_, ?_⟩
    · rw [hg'.nodeChildren_eq hp', h.occurrences, hbefore]
    · intro c hc id hid
      -- a child that has been added is one of the new nodes
      obtain ⟨m, hm, hcm⟩ := List.mem_flatMap.mp hc
      obtain ⟨-, rfl⟩ := List.mem_replicate.mp hcm
      obtain ⟨old, hold, rfl⟩ := List.mem_map.mp hid
      exact Nat.lt_of_le_of_lt (hg.number_le (Array.mem_toList_iff.mp hold)) (h.newer hg' hm)

/-- **Graphs are append-only.** After any script, a reachable graph goes on from what it was before: its
    name and its nodes are the same, and only new nodes have become children of the old ones. -/
theorem append_only_run (hg : g.Reachable) (steps : List Step) :
    (Script.run steps g).2.Continues g := by
  obtain ⟨added, hadded⟩ := g.exists_isPart_run steps
  exact hg.wellFormed.continues (hg.run steps).wellFormed hadded

/-- A node that is used twice and, after a step that fails, once more: its children have the new one at
    their end. -/
theorem append_only_run_reused :
    ∃ (g : Graph) (steps : List Step), g.Reachable ∧ (Script.run steps g).2.Continues g ∧
      g.nodeChildren ⟨1⟩ = .ok [⟨2⟩, ⟨2⟩] ∧
      (Script.run steps g).2.nodeChildren ⟨1⟩ = .ok [⟨2⟩, ⟨2⟩, ⟨3⟩] :=
  let before : List Step := [.parameter (.fixed [2]) (some "x"), .arith .add ⟨1⟩ ⟨1⟩ none]
  let steps : List Step := [.arith .add ⟨1⟩ ⟨7⟩ none, .arith .multiply ⟨2⟩ ⟨1⟩ none]
  have hreachable : (Script.run before (empty "gate")).2.Reachable := ⟨"gate", before, rfl⟩
  ⟨(Script.run before (empty "gate")).2, steps, hreachable, append_only_run hreachable steps,
    by decide +kernel, by decide +kernel⟩

end Graph

end GateGraph
