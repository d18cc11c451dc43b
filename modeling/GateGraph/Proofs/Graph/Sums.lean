import GateGraph.Proofs.Graph.Growth
import GateGraph.Proofs.Graph.Outcome

/-!
# `GateGraph.Proofs.Graph.Sums` — sums of nodes, in any order

The pre-activation of a gate is a sum of several nodes, added up two at a time. What shape it has, and whether
it can be built at all, is decided by the shapes of its terms alone: the sum fails or succeeds as the shapes
do when they are broadcast in the same groups. As long as all ranks are known the groups and the order make
no difference, so a gate may be built in whatever way is convenient.

## Contents
- `Grouping.sum`, which adds nodes up, and `runOn_sum`: it follows the shapes.
- `gives_sum_iff` and `gives_sum_iff_of_perm`: the shape of a sum.
- `Shape.broadcast_algebra`, the laws of broadcasting with what they mean for sums.
-/

namespace GateGraph

/-- Adds up nodes, two at a time. -/
def Grouping.sum : Grouping NodeId → Builder NodeId
  | one id => return id
  | both l r => do
      let a ← l.sum
      let b ← r.sum
      Cell.add a b

open Builder

namespace Graph

variable {g : Graph}

/-- Adding two nodes without a name: their shapes decide. -/
theorem runOn_cellAdd {lhs rhs : NodeId} {l r : Node} (hl : g.node? lhs = some l)
    (hr : g.node? rhs = some r) :
    (Cell.add lhs rhs).runOn g =
      match l.shape.broadcast r.shape with
      | none => (.error (.shapeMismatch .add l.shape r.shape), g)
      | some shape => (.ok g.nextId, g.grow ⟨none, .arith .add, shape, [lhs, rhs]⟩
          (numbered "add" (g.freshNumber "add"))) := by
  show (Step.arith .add lhs rhs none).action.runOn g = _
  cases hshape : l.shape.broadcast r.shape with
  | none =>
      refine runOn_action_of_error ?_
      simp only [Step.request, node_of_node? hl, node_of_node? hr, hshape]
  | some shape =>
      have hadds : (Step.arith .add lhs rhs none).Adds g _ := .arith hl hr hshape
      rw [runOn_action_of_add (Step.request_eq_add_iff.mpr hadds), nameFor_of_not_asked rfl]
      rfl

end Graph

namespace Grouping

variable {g : Graph}

/-- A sum is built from the left to the right, and its parts before the whole. -/
theorem runOn_both (l r : Grouping NodeId) (g : Graph) :
    (both l r).sum.runOn g =
      match l.sum.runOn g with
      | (.error e, g₁) => (.error e, g₁)
      | (.ok lhs, g₁) =>
          match r.sum.runOn g₁ with
          | (.error e, g₂) => (.error e, g₂)
          | (.ok rhs, g₂) => (Cell.add lhs rhs).runOn g₂ := by
  rw [sum, runOn_bind]
  rcases l.sum.runOn g with ⟨_ | lhs, g₁⟩
  · rfl
  · dsimp only
    rw [runOn_bind]
    rcases r.sum.runOn g₁ with ⟨_ | rhs, g₂⟩ <;> rfl

/-- How a sum ends, when this is what its shapes come to. Nodes that are there stay there, and ids are still
    in order, so that a part of the sum that is built first does not disturb the others. -/
structure Ends (t : Grouping NodeId) (g : Graph) (result : Option Shape) : Prop where
  built : ∀ s, result = some s → ∃ id g', t.sum.runOn g = (.ok id, g') ∧ g'.nodeShape id = .ok s ∧
    g'.lastId = g'.size ∧ ∃ added, g.IsPart g' added
  failed : result = none → ∃ a b g', t.sum.runOn g = (.error (.shapeMismatch .add a b), g')

theorem Ends.of_error {t : Grouping NodeId} {a b : Shape} {g' : Graph}
    (hrun : t.sum.runOn g = (.error (.shapeMismatch .add a b), g')) : t.Ends g none where
  built s hs := by cases hs
  failed _ := ⟨a, b, g', hrun⟩

theorem Ends.of_ok {t : Grouping NodeId} {id : NodeId} {g' : Graph} {s : Shape} {added : List Node}
    (hrun : t.sum.runOn g = (.ok id, g')) (hs : g'.nodeShape id = .ok s) (hids : g'.lastId = g'.size)
    (hpart : g.IsPart g' added) : t.Ends g (some s) where
  built w hw := by
    cases hw
    exact ⟨id, g', hrun, hs, hids, added, hpart⟩
  failed hnone := by cases hnone

/-- **A sum of nodes follows the shapes of its terms.** -/
theorem runOn_sum {shape : NodeId → Shape} {t : Grouping NodeId} (hids : g.lastId = g.size)
    (h : ∀ id ∈ t.terms, g.nodeShape id = .ok (shape id)) : t.Ends g (t.map shape).result? := by
  -- on the left part first; the right part starts from the graph that the left one leaves
  induction t generalizing g with
  | one id => exact .of_ok rfl (h id List.mem_cons_self) hids g.isPart_refl
  | both l r ihl ihr =>
      have hl := ihl hids fun id hid => h id (List.mem_append_left _ hid)
      rw [map, result?_both]
      cases hleft : (l.map shape).result? with
      | none =>
          obtain ⟨a, b, g', hrun⟩ := hl.failed hleft
          have hfails : (both l r).sum.runOn g = (.error (.shapeMismatch .add a b), g') := by
            rw [runOn_both, hrun]
          exact .of_error hfails
      | some s =>
          obtain ⟨lhs, g₁, hlrun, hls, hids₁, added, hpart⟩ := hl.built s hleft
          have hr := ihr hids₁ fun id hid => hpart.map_node (h id (List.mem_append_right _ hid))
          cases hright : (r.map shape).result? with
          | none =>
              obtain ⟨a, b, g', hrun⟩ := hr.failed hright
              have hfails : (both l r).sum.runOn g = (.error (.shapeMismatch .add a b), g') := by
                simp only [runOn_both, hlrun, hrun]
              exact .of_error hfails
          | some s' =>
              obtain ⟨rhs, g₂, hrrun, hrs, hids₂, added', hpart'⟩ := hr.built s' hright
              obtain ⟨ln, hln, rfl⟩ := Graph.of_map_node (hpart'.map_node hls)
              obtain ⟨rn, hrn, rfl⟩ := Graph.of_map_node hrs
              have hrun : (both l r).sum.runOn g = (Cell.add lhs rhs).runOn g₂ := by
                simp only [runOn_both, hlrun, hrrun]
              rw [Graph.runOn_cellAdd hln hrn] at hrun
              show (both l r).Ends g (ln.shape.broadcast rn.shape)
              cases hsum : ln.shape.broadcast rn.shape with
              | none =>
                  rw [hsum] at hrun
                  exact .of_error hrun
              | some total =>
                  rw [hsum] at hrun
                  apply Ends.of_ok hrun
                  · exact Graph.field_grow hids₂ (·.shape) _ _
                  · exact Graph.lastId_grow_eq_size hids₂ _ _
                  · exact (hpart.trans hpart').trans (g₂.isPart_grow _ _)

/-- **When a sum can be built, and the shape that it has.** -/
theorem gives_sum_iff {shape : NodeId → Shape} {t : Grouping NodeId} (hids : g.lastId = g.size)
    (h : ∀ id ∈ t.terms, g.nodeShape id = .ok (shape id)) (s : Shape) :
    t.sum.Gives g s ↔ (t.map shape).result? = some s := by
  have hends := runOn_sum hids h
  constructor
  · rintro ⟨id, g', hrun, hs⟩
    cases hresult : (t.map shape).result? with
    | none =>
        obtain ⟨a, b, g'', hfail⟩ := hends.failed hresult
        rw [hrun] at hfail
        cases hfail
    | some w =>
        obtain ⟨id', g'', hrun', hw, -⟩ := hends.built w hresult
        rw [hrun] at hrun'
        cases hrun'
        rw [hs] at hw
        rw [Except.ok.inj hw]
  · intro hresult
    obtain ⟨id, g', hrun, hs, -⟩ := hends.built s hresult
    exact ⟨id, g', hrun, hs⟩

/-- **Sums of the same nodes come to the same**, in any order and in any groups, if all ranks are known. -/
theorem gives_sum_iff_of_perm {t u : Grouping NodeId} (hids : g.lastId = g.size)
    (hperm : t.terms.Perm u.terms)
    (h : ∀ id ∈ t.terms, ∃ s : Shape, g.nodeShape id = .ok s ∧ s.isStatic) (s : Shape) :
    t.sum.Gives g s ↔ u.sum.Gives g s := by
  let shape : NodeId → Shape := fun id => (g.nodeShape id).toOption.getD .unranked
  have hshape : ∀ id ∈ t.terms, g.nodeShape id = .ok (shape id) ∧ (shape id).isStatic := by
    intro id hid
    obtain ⟨w, hw, hstatic⟩ := h id hid
    have heq : shape id = w := by
      show (g.nodeShape id).toOption.getD .unranked = w
      rw [hw]
      rfl
    rw [heq]
    exact ⟨hw, hstatic⟩
  have hterms : (t.map shape).terms.Perm (u.map shape).terms := by
    rw [terms_map, terms_map]
    exact hperm.map shape
  have hstatic : ∀ s ∈ (t.map shape).terms, s.isStatic := by
    intro s hs
    rw [terms_map] at hs
    obtain ⟨id, hid, rfl⟩ := List.mem_map.mp hs
    exact (hshape id hid).2
  rw [gives_sum_iff hids (fun id hid => (hshape id hid).1),
    gives_sum_iff hids (fun id hid => (hshape id (hperm.mem_iff.mpr hid)).1),
    result?_eq_of_perm hterms hstatic]

end Grouping

/-- **The algebra of broadcasting.** The order of two shapes makes no difference, a shape broadcasts with
    itself to itself, and the shape without dimensions is neutral. Two groupings of three shapes never give
    different shapes, and with known ranks one of them fails exactly if the other does. So all ways to put
    shapes with known ranks together, in whatever order and groups, come to what folding them from the left
    comes to. And in every graph with as many ids as nodes, as all reachable ones are, sums of nodes with such
    shapes can all be built or none of them can, with the same shape. -/
theorem Shape.broadcast_algebra :
    (∀ a b, broadcast a b = broadcast b a) ∧
    (∀ a, broadcast a a = some a) ∧
    (∀ a, broadcast (fixed []) a = some a ∧ broadcast a (fixed []) = some a) ∧
    (∀ a b c s t, (broadcast a b).bind (broadcast · c) = some s →
      (broadcast b c).bind (broadcast a) = some t → s = t) ∧
    (∀ a b c : Shape, a.isStatic → b.isStatic → c.isStatic →
      (broadcast a b).bind (broadcast · c) = (broadcast b c).bind (broadcast a)) ∧
    (∀ (t : Grouping Shape) (first : Shape) (rest : List Shape), t.terms.Perm (first :: rest) →
      (∀ s ∈ first :: rest, s.isStatic) → t.result? = rest.foldlM broadcast first) ∧
    ∀ (g : Graph) (t u : Grouping NodeId), g.lastId = g.size → t.terms.Perm u.terms →
      (∀ id ∈ t.terms, ∃ s : Shape, g.nodeShape id = .ok s ∧ s.isStatic) →
        ∀ s, t.sum.Gives g s ↔ u.sum.Gives g s := by
  refine ⟨broadcast_comm, broadcast_self, fun a => ⟨scalar_broadcast a, broadcast_scalar a⟩, ?_, ?_, ?_, ?_⟩
  · intro a b c s t hs ht
    exact broadcast_regroup hs ht
  · intro a b c ha hb hc
    exact broadcast_assoc ha hb hc
  · intro t first rest hperm hstatic
    exact Grouping.result?_eq_foldlM hperm hstatic
  · intro g t u hids hperm hstatic s
    exact Grouping.gives_sum_iff_of_perm hids hperm hstatic s

/-- An input, a weight and a bias of three different ranks: the bias last, or in between. -/
theorem Shape.broadcast_algebra_bias :
    ∃ (g : Graph) (t u : Grouping NodeId), t.terms = [⟨1⟩, ⟨2⟩, ⟨3⟩] ∧ u.terms = [⟨2⟩, ⟨3⟩, ⟨1⟩] ∧
      (∀ s, t.sum.Gives g s ↔ u.sum.Gives g s) ∧ t.sum.Gives g (.ranked [none, some 2, some 3]) := by
  let steps : List Step := [.parameter (.ranked [none, some 2, some 1]) none,
    .parameter (.fixed [1, 3]) none, .parameter (.fixed [3]) none]
  let g : Graph := (Script.run steps (Graph.empty "gate")).2
  let t : Grouping NodeId := .both (.both (.one ⟨1⟩) (.one ⟨2⟩)) (.one ⟨3⟩)
  let u : Grouping NodeId := .both (.both (.one ⟨2⟩) (.one ⟨3⟩)) (.one ⟨1⟩)
  obtain ⟨-, -, -, -, -, -, hsums⟩ := broadcast_algebra
  have hone : g.nodeShape ⟨1⟩ = .ok (.ranked [none, some 2, some 1]) := by decide +kernel
  have htwo : g.nodeShape ⟨2⟩ = .ok (.fixed [1, 3]) := by decide +kernel
  have hthree : g.nodeShape ⟨3⟩ = .ok (.fixed [3]) := by decide +kernel
  have hstatic : ∀ id ∈ t.terms, ∃ s : Shape, g.nodeShape id = .ok s ∧ s.isStatic := by
    intro id hid
    rcases List.mem_cons.mp hid with rfl | hid
    · exact ⟨_, hone, rfl⟩
    rcases List.mem_cons.mp hid with rfl | hid
    · exact ⟨_, htwo, rfl⟩
    obtain rfl := List.mem_singleton.mp hid
    exact ⟨_, hthree, rfl⟩
  have hids : g.lastId = g.size := by decide +kernel
  have hperm : t.terms.Perm u.terms := by decide
  have hid : (t.sum.runOn g).1 = .ok ⟨5⟩ := by decide +kernel
  have hshape : (t.sum.runOn g).2.nodeShape ⟨5⟩ = .ok (.ranked [none, some 2, some 3]) := by
    decide +kernel
  exact ⟨g, t, u, rfl, rfl, hsums g t u hids hperm hstatic, ⟨5⟩, (t.sum.runOn g).2, Prod.ext hid rfl, hshape⟩

end GateGraph
