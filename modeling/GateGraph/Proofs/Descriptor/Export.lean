import GateGraph.Proofs.Descriptor.Codec
import GateGraph.Proofs.Graph.Snapshot

/-!
# `GateGraph.Proofs.Descriptor.Export` — graphs that are exported and read again

The bounds of a clamp are checked when the node is made, and the parameters of an activation are not. So the
text of a graph can always be read, but an infinite parameter becomes `null` in it, and is not set afterwards.

## Contents
- `Op.params`, the parameters that are set; `Op.reread?_eq_self`: an operation is read as it is when they are
  finite.
- `Graph.WellFormed.clamp_finite` and `describe_numbered`: what holds of the nodes of a graph.
- `Graph.export_exact`: exactly the graphs whose parameters are finite come back; `export_inexact_infinity` is
  a graph that does not.
-/

namespace GateGraph

-- powers of whole numbers are the built-in ones, whatever is imported beside this module
attribute [local instance (2000)] instPowNat

/-! ## Parameters of operations -/

/-- The parameters that are set. -/
def Op.params : Op → List Binary32
  | activation f => f.alpha.toList ++ f.beta.toList
  | _ => []

/-- A parameter is read as it is exactly when it is finite or not set. -/
theorem Op.bind_rereadReal?_eq {p : Option Binary32} :
    p.bind rereadReal? = p ↔ ∀ x ∈ p.toList, x.isFinite = true := by
  cases p with
  | none => simp
  | some x =>
      cases hx : x.isFinite with
      | true => simp [rereadReal?_of_isFinite hx, hx]
      | false => simp [rereadReal?_eq_none.mpr hx, hx]

/-- An operation whose bounds are finite is read as it is exactly when its parameters are finite. -/
theorem Op.reread?_eq_self {op : Op}
    (hclamp : ∀ min max, op = clamp min max → min.isFinite = true ∧ max.isFinite = true) :
    op.reread? = some op ↔ ∀ x ∈ op.params, x.isFinite = true := by
  cases op with
  | parameter | arith => simp [reread?, params]
  | clamp min max =>
      obtain ⟨hmin, hmax⟩ := hclamp min max rfl
      simp [reread?, params, rereadReal?_of_isFinite hmin, rereadReal?_of_isFinite hmax]
  | activation f =>
      obtain ⟨kind, alpha, beta⟩ := f
      simp only [reread?, Option.some.injEq, activation.injEq, Activation.mk.injEq, true_and,
        bind_rereadReal?_eq, params, List.forall_mem_append]

theorem Node.reread?_eq_self {n : Node} : n.reread? = some n ↔ n.op.reread? = some n.op := by
  obtain ⟨id, name, op, shape, parents⟩ := n
  simp [reread?, Option.map_eq_some_iff]

namespace Graph

variable {g : Graph}

/-! ## Graphs -/

/-- The nodes of a graph have small ids and small parents. -/
theorem WellFormed.describe_numbered (h : g.WellFormed) (hsize : g.size < 2 ^ 64) : g.describe.Numbered := by
  intro n hn
  rw [h.nodes_describe] at hn
  have hn : n ∈ g.nodes := Array.mem_def.mpr hn
  have hid := h.number_le hn
  refine ⟨by omega, fun p hp => ?_⟩
  have := h.earlier n hn p hp
  omega

/-- The bounds of a clamp in a graph are finite. -/
theorem WellFormed.clamp_finite (h : g.WellFormed) {n : Node} (hn : n ∈ g.nodes) {min max : Binary32}
    (hop : n.op = .clamp min max) : min.isFinite = true ∧ max.isFinite = true := by
  obtain ⟨operands, -, hdeclares⟩ := h.declared n hn
  have hfault : clampFault? min max = none := by
    rw [hop] at hdeclares
    unfold Op.Declares at hdeclares
    split at hdeclares
    all_goals first | exact hdeclares.elim | skip
    all_goals simp_all
  unfold clampFault? at hfault
  split at hfault
  · exact absurd hfault (by simp)
  · next hfinite => simpa using hfinite

/-- **Which graphs survive their export.** The text of every graph can be read, and what is read is the graph
    exactly when every parameter that is set is finite. -/
theorem export_exact (h : g.Reachable) (hsize : g.size < 2 ^ 64) :
    ∃ d, Descriptor.ofJson? g.describe.toJson = some d ∧
      (d = g.describe ↔ ∀ n ∈ g.nodes, ∀ x ∈ n.op.params, x.isFinite = true) := by
  have hwf := h.wellFormed
  -- no node is refused, because no bound is infinite
  obtain ⟨nodes, hnodes⟩ : ∃ nodes, g.nodes.toList.mapM Node.reread? = some nodes := by
    refine Option.ne_none_iff_exists'.mp fun hnone => ?_
    obtain ⟨n, hn, hrefused⟩ := Json.mapM_eq_none.mp hnone
    obtain ⟨min, max, hop, hinfinite⟩ := Op.reread?_eq_none.mp (Option.map_eq_none_iff.mp hrefused)
    obtain ⟨hmin, hmax⟩ := hwf.clamp_finite (Array.mem_def.mpr hn) hop
    rcases hinfinite with hinfinite | hinfinite
    · exact absurd (hmin.symm.trans hinfinite) (by decide)
    · exact absurd (hmax.symm.trans hinfinite) (by decide)
  refine ⟨{ g.describe with nodes }, ?_, ?_⟩
  · rw [Descriptor.ofJson?_toJson_eq (hwf.describe_numbered hsize)]
    simp only [Descriptor.reread?, hwf.nodes_describe, hnodes, Option.map_some]
  · have hself : ∀ n ∈ g.nodes, (n.reread? = some n ↔ ∀ x ∈ n.op.params, x.isFinite = true) := fun n hn =>
      Node.reread?_eq_self.trans (Op.reread?_eq_self fun _ _ hop => hwf.clamp_finite hn hop)
    have hsame : ({ g.describe with nodes } : Descriptor) = g.describe ↔ nodes = g.nodes.toList := by
      rw [← hwf.nodes_describe]
      exact ⟨congrArg Descriptor.nodes, fun heq => heq ▸ rfl⟩
    rw [hsame]
    refine ⟨fun heq n hn => (hself n hn).mp ?_, fun hfinite => ?_⟩
    · exact List.forall₂_same.mp (heq ▸ Json.forall₂_of_mapM hnodes) n (Array.mem_def.mp hn)
    · have hall := Json.mapM_eq_some_self fun n hn =>
        (hself n (Array.mem_def.mpr hn)).mpr (hfinite n (Array.mem_def.mpr hn))
      exact Option.some.inj (hnodes.symm.trans hall)

/-- A graph that survives: a bound of minus zero, the smallest and the largest numbers. -/
theorem export_exact_clamp :
    ∃ g : Graph, g.Reachable ∧ g.size = 3 ∧ (∀ n ∈ g.nodes, ∀ x ∈ n.op.params, x.isFinite = true) ∧
      ∃ d, Descriptor.ofJson? g.describe.toJson = some d ∧
        (d = g.describe ↔ ∀ n ∈ g.nodes, ∀ x ∈ n.op.params, x.isFinite = true) :=
  let steps : List Step := [
    .parameter (.ranked [none, some 32]) (some "x"),
    .clamp ⟨1⟩ (.ofBits .single 0xff7fffff) (.ofBits .single 0x80000000) none,
    .activation ⟨2⟩ ⟨.hardSigmoid, some (.ofBits .single 1), none⟩ none]
  have hreachable : (Script.run steps (empty "gate")).2.Reachable := ⟨"gate", steps, rfl⟩
  have hsize : (Script.run steps (empty "gate")).2.size = 3 := by decide +kernel
  ⟨(Script.run steps (empty "gate")).2, hreachable, hsize, by decide +kernel,
    export_exact hreachable (by omega)⟩

/-- A graph that does not: an infinite parameter is not set afterwards. All its parameters are numbers. -/
theorem export_inexact_infinity :
    ∃ g : Graph, g.Reachable ∧ (∀ n ∈ g.nodes, ∀ x ∈ n.op.params, x.isNaN = false) ∧
      ∃ d, Descriptor.ofJson? g.describe.toJson = some d ∧ (d == g.describe) = false := by
  let steps : List Step := [
    .parameter (.fixed [2]) (some "x"),
    .activation ⟨1⟩ ⟨.relu, some (.ofBits .single 0x7f800000), none⟩ none]
  have hreachable : (Script.run steps (empty "gate")).2.Reachable := ⟨"gate", steps, rfl⟩
  have hsize : (Script.run steps (empty "gate")).2.size < 2 ^ 64 := by decide +kernel
  refine ⟨(Script.run steps (empty "gate")).2, hreachable, by decide +kernel, ?_⟩
  rw [Descriptor.ofJson?_toJson_eq (hreachable.wellFormed.describe_numbered hsize)]
  refine ⟨⟨Descriptor.currentVersion, "gate", [
    ⟨⟨1⟩, "x", .parameter, .fixed [2], []⟩, ⟨⟨2⟩, "relu_1", .activation (.ofKind .relu), .fixed [2], [⟨1⟩]⟩]⟩,
    ?_, ?_⟩
  · decide +kernel
  · decide +kernel

end Graph

end GateGraph
