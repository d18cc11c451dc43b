import GateGraph.Proofs.Graph.Specialization
import GateGraph.Proofs.Shape.Queries

/-!
# `GateGraph.Proofs.Graph.Inference` — declared shapes and the shapes of tensors

Nodes compute nothing, but the tensors that they stand for have extents, and those can be worked out from
the extents of the parameters: node after node, broadcasting as tensors do. Where the parameters declare all
of their shape, this is what the nodes declare too. Together with the simulation of
`GateGraph.Proofs.Graph.Specialization` it follows that the shapes of a script with less known of its inputs
admit what the tensors turn out to be.

## Contents
- `Op.extents?`, `Node.extents?` and `Graph.extents?`: the extents of all outputs.
- `Graph.Inferred`, the invariant: the extents can be worked out, and the shapes are just these;
  `Inferred.grow` and `Inferred.run`.
- `specialize_run`, the main theorem on scripts that are run twice.
-/

namespace GateGraph

/-! ## The extents of outputs -/

/-- The extents of an operation's output, from those of its operands; a parameter has the extents that it
    declares. -/
def Op.extents? : Op → Shape → List Extents → Option Extents
  | .parameter, declared, [] => declared.fixedDims?
  | .arith _, _, [c, d] => c.broadcast? d
  | .clamp _ _, _, [c] => some c
  | .activation _, _, [c] => some c
  | _, _, _ => none

/-- The entry of a node in a list with one entry for each node. -/
def Graph.entry? (es : List Extents) (id : NodeId) : Option Extents := (Graph.index? id).bind (es[·]?)

/-- The extents of a node's output, when those of the earlier nodes are given in order. -/
def Node.extents? (earlier : List Extents) (n : Node) : Option Extents :=
  (n.parents.mapM (Graph.entry? earlier)).bind (n.op.extents? n.shape)

/-- The extents of the outputs of all nodes, in order. -/
def Graph.extents? (g : Graph) : Option (List Extents) :=
  g.nodes.toList.foldlM (fun earlier n => (n.extents? earlier).map fun e => earlier ++ [e]) []

/-- **With operands whose shapes are known, an operation declares the shape that its output has.** -/
theorem Op.Declares.extents? {op : Op} {cs : List Extents} {s : Shape}
    (h : op.Declares (cs.map Shape.fixed) s) (hs : op = .parameter → ∃ c, s = .fixed c) :
    ∃ e, op.extents? s cs = some e ∧ s = .fixed e := by
  cases op with
  | parameter =>
      obtain ⟨c, rfl⟩ := hs rfl
      -- here and below: an operation declares nothing for another number of operands
      match cs, h with
      | [], _ => exact ⟨c, (Shape.fixedDims?_eq_some_iff _ c).mpr rfl, rfl⟩
  | arith op =>
      match cs, h with
      | [c, d], h =>
          have hbroadcast : (Shape.fixed c).broadcast (Shape.fixed d) = some s := h
          rw [Shape.broadcast_fixed, Option.map_eq_some_iff] at hbroadcast
          obtain ⟨e, he, rfl⟩ := hbroadcast
          exact ⟨e, he, rfl⟩
  | clamp min max =>
      match cs, h with
      | [c], h => exact ⟨c, rfl, h.2⟩
  | activation function =>
      match cs, h with
      | [c], h => exact ⟨c, rfl, h⟩

namespace Graph

variable {g : Graph}

/-! ## The invariant -/

/-- The extents of all outputs are these, and they are what the nodes declare. -/
structure Inferred (g : Graph) (es : List Extents) : Prop where
  extents : g.extents? = some es
  shapes : g.nodes.toList.map (·.shape) = es.map Shape.fixed

theorem inferred_empty (name : String) : (empty name).Inferred [] := ⟨rfl, rfl⟩

theorem Inferred.entry? {es : List Extents} (h : g.Inferred es) {id : NodeId} {n : Node}
    (hn : g.node? id = some n) : ∃ e, entry? es id = some e ∧ n.shape = .fixed e := by
  obtain ⟨_ | i⟩ := id
  · cases hn
  · have hi : (g.nodes.toList.map (·.shape))[i]? = some n.shape := by
      rw [List.getElem?_map, Array.getElem?_toList, ← node?_succ, hn, Option.map_some]
    rw [h.shapes, List.getElem?_map, Option.map_eq_some_iff] at hi
    obtain ⟨e, he, hshape⟩ := hi
    exact ⟨e, he, hshape.symm⟩

theorem Inferred.operands {es : List Extents} (h : g.Inferred es) {ids : List NodeId}
    {operands : List Node} (hlookup : g.Lookup ids operands) :
    ∃ cs, ids.mapM (Graph.entry? es) = some cs ∧ operands.map (·.shape) = cs.map Shape.fixed := by
  induction hlookup with
  | nil => exact ⟨[], rfl, rfl⟩
  | cons hn _ ih =>
      obtain ⟨c, hc, hshape⟩ := h.entry? hn
      obtain ⟨cs, hcs, hshapes⟩ := ih
      refine ⟨c :: cs, ?_, ?_⟩
      · rw [List.mapM_cons, hc, hcs]
        rfl
      · rw [List.map_cons, List.map_cons, hshape, hshapes]

/-- **One more node.** If it is no parameter of which less is known, its extents can be worked out as well,
    and its shape is what they are. -/
theorem Inferred.grow {es : List Extents} (h : g.Inferred es) {d : Draft} (name : String)
    (hd : ∃ operands, g.Lookup d.parents operands ∧ d.op.Declares (operands.map (·.shape)) d.shape)
    (hfixed : d.op = .parameter → ∃ c, d.shape = .fixed c) :
    ∃ e, (g.grow d name).Inferred (es ++ [e]) := by
  obtain ⟨operands, hlookup, hdeclares⟩ := hd
  -- the operands declare just the extents that have been worked out for them
  obtain ⟨cs, hcs, hshapes⟩ := h.operands hlookup
  rw [hshapes] at hdeclares
  obtain ⟨e, he, hshape⟩ := hdeclares.extents? hfixed
  have hnode : (g.drafted d name).extents? es = some e := by
    show (d.parents.mapM (Graph.entry? es)).bind (d.op.extents? d.shape) = some e
    rw [hcs, Option.bind_some, he]
  refine ⟨e, ?_, ?_⟩
  · have hearlier := h.extents
    unfold Graph.extents? at hearlier ⊢
    rw [grow_nodes, Array.toList_push, List.foldlM_append, hearlier]
    show ((g.drafted d name).extents? es).map _ >>= pure = _
    rw [hnode]
    rfl
  · rw [grow_nodes, Array.toList_push, List.map_append, List.map_append, h.shapes]
    exact congrArg (_ ++ [·]) hshape

end Graph

/-! ## Scripts that declare all of their shapes -/

/-- A step that declares all of the shape if it is for a parameter. -/
def Step.IsFixed (s : Step) : Prop := ∀ shape name, s = .parameter shape name → ∃ c, shape = .fixed c

theorem Step.Adds.fixed {s : Step} {g : Graph} {d : Draft} (h : s.Adds g d) (hs : s.IsFixed)
    (hop : d.op = .parameter) : ∃ c, d.shape = .fixed c := by
  cases h with
  | parameter shape name => exact hs shape name rfl
  | arith _ _ _ => cases hop
  | clamp _ _ => cases hop
  | activation _ => cases hop
  | clip _ _ _ => cases hop

namespace Graph

variable {g g' : Graph}

theorem Inferred.transition {es : List Extents} (h : g.Inferred es) {s : Step} (hs : s.IsFixed)
    {outcome : Except Error NodeId} (ht : Transition g s outcome g') : ∃ es', g'.Inferred es' := by
  cases ht with
  | failed e => exact ⟨es, h⟩
  | existing _ => exact ⟨es, h⟩
  | @added d name hadds _ =>
      obtain ⟨e, he⟩ := h.grow name (declares_of_adds hadds) (hadds.fixed hs)
      exact ⟨es ++ [e], he⟩

/-- **Shapes are inferred as tensors broadcast**, by scripts that leave nothing open in their
    parameters. -/
theorem Inferred.run {es : List Extents} (h : g.Inferred es) {steps : List Step}
    (hsteps : ∀ s ∈ steps, s.IsFixed) : ∃ es', (Script.run steps g).2.Inferred es' := by
  induction steps generalizing g es with
  | nil => exact ⟨es, h⟩
  | cons s rest ih =>
      obtain ⟨hs, hrest⟩ := List.forall_mem_cons.mp hsteps
      obtain ⟨es', h'⟩ := h.transition hs (s.transition g)
      rw [Script.run_cons]
      exact ih h' hrest

/-! ## The main theorem -/

/-- **Saying more of the inputs is safe, and so is saying less.** Let a script be run twice, the second
    time with parameter shapes that say at least as much. If all of the second run succeeds, then
    * all of the first run succeeds, with the same ids;
    * the second graph is the first one but for shapes that say more;
    * where the second run leaves nothing open, its shapes are the extents that the outputs have, and the
      shapes of the first run admit these. -/
theorem specialize_run (name : String) {second first : List Step}
    (hsteps : List.Forall₂ Step.Refines second first)
    (hok : ∀ outcome ∈ (Script.run second (empty name)).1, ∃ id, outcome = .ok id) :
    (∀ outcome ∈ (Script.run first (empty name)).1, ∃ id, outcome = .ok id) ∧
    (Script.run first (empty name)).1 = (Script.run second (empty name)).1 ∧
    (Script.run second (empty name)).2.Specializes (Script.run first (empty name)).2 ∧
    ((∀ s ∈ second, s.IsFixed) →
      ∃ es, (Script.run second (empty name)).2.extents? = some es ∧
        ∀ id shape, (Script.run second (empty name)).2.nodeShape id = .ok shape →
          ∃ e declared, entry? es id = some e ∧ shape = .fixed e ∧
            (Script.run first (empty name)).2.nodeShape id = .ok declared ∧ declared.Admits e) := by
  obtain ⟨houtcomes, hrefines⟩ := (refines_empty name).run hsteps hok
  refine ⟨?_, houtcomes, hrefines.specializes, ?_⟩
  · rw [houtcomes]
    exact hok
  · intro hfixed
    obtain ⟨es, hes⟩ := (inferred_empty name).run hfixed
    refine ⟨es, hes.extents, ?_⟩
    intro id shape hshape
    obtain ⟨declared, hdeclared, hsays⟩ := hrefines.specializes.shapes id shape hshape
    -- the second shape is one concrete shape, so to refine is to be admitted
    obtain ⟨n, hn, rfl⟩ := of_map_node hshape
    obtain ⟨e, he, heq⟩ := hes.entry? hn
    rw [heq] at hsays
    exact ⟨e, declared, he, heq, hdeclared, Shape.admits_of_fixed_refines hsays⟩

/-- A gate whose batch is open at first: the input is scaled by a row of weights, and a bias is added of
    which not even the rank was known. -/
theorem specialize_run_gate :
    ∃ second first : List Step, (∀ s ∈ second, s.IsFixed) ∧
      (∀ outcome ∈ (Script.run first (empty "gate")).1, ∃ id, outcome = .ok id) ∧
      (Script.run first (empty "gate")).1 = (Script.run second (empty "gate")).1 ∧
      (Script.run second (empty "gate")).2.Specializes (Script.run first (empty "gate")).2 ∧
      ((∀ s ∈ second, s.IsFixed) →
        ∃ es, (Script.run second (empty "gate")).2.extents? = some es ∧
          ∀ id shape, (Script.run second (empty "gate")).2.nodeShape id = .ok shape →
            ∃ e declared, entry? es id = some e ∧ shape = .fixed e ∧
              (Script.run first (empty "gate")).2.nodeShape id = .ok declared ∧ declared.Admits e) :=
  let inner : List Step := [
    .arith .multiply ⟨1⟩ ⟨2⟩ none,
    .arith .add ⟨4⟩ ⟨3⟩ none,
    .activation ⟨5⟩ (.ofKind .tanh) none]
  let second : List Step := [
    .parameter (.fixed [8, 32]) (some "x"), .parameter (.fixed [1, 32]) (some "w"),
    .parameter (.fixed [32]) (some "b")] ++ inner
  let first : List Step := [
    .parameter (.withDynamicBatch [32]) (some "x"), .parameter (.ranked [none, some 32]) (some "w"),
    .parameter .unranked (some "b")] ++ inner
  have hsteps : List.Forall₂ Step.Refines second first :=
    .cons (.parameter _ (by decide +kernel)) <| .cons (.parameter _ (by decide +kernel)) <|
      .cons (.parameter _ (Shape.refines_unranked _)) <| .cons (.same _) <| .cons (.same _) <|
      .cons (.same _) .nil
  have houtcomes : (Script.run second (empty "gate")).1 =
      [.ok ⟨1⟩, .ok ⟨2⟩, .ok ⟨3⟩, .ok ⟨4⟩, .ok ⟨5⟩, .ok ⟨6⟩] := by decide +kernel
  have hok : ∀ outcome ∈ (Script.run second (empty "gate")).1, ∃ id, outcome = .ok id := by
    rw [houtcomes]
    simp
  have hfixed : ∀ s ∈ second, s.IsFixed := by
    intro s hs shape asked heq
    subst heq
    simp only [second, inner, List.cons_append, List.nil_append, List.mem_cons, List.not_mem_nil,
      Step.parameter.injEq, reduceCtorEq, or_false] at hs
    rcases hs with ⟨hshape, -⟩ | ⟨hshape, -⟩ | ⟨hshape, -⟩ <;> exact ⟨_, hshape⟩
  ⟨second, first, hfixed, specialize_run "gate" hsteps hok⟩

end Graph

end GateGraph
