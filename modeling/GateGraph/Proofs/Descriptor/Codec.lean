import GateGraph.Descriptor.Json
import GateGraph.Proofs.Json.Record

/-!
# `GateGraph.Proofs.Descriptor.Codec` — descriptors that are written and read

Any descriptor can be written, also one that no graph has. This module says what is read from its text.
Everything comes back as it was but the numbers: of a number, what its numeral reads back as, and nothing of a
number that is not finite, because it has no numeral. A parameter of an activation may be nothing, a bound of a
clamp may not.

## Contents
- `Op.reread?`, `Node.reread?` and `Descriptor.reread?`, what is to be expected.
- `Op.ofValue?_tree`, `Shape.ofTree?_tree` and `Node.ofTree?_tree`: the parts.
- `Descriptor.legible_tree` and `Descriptor.ofJson?_toJson_eq`: the whole; `Shape.ofJson?_toJson` and
  `ActivationKind.ofJson?_toJson`, for shapes and kinds on their own.
- `Descriptor.codec`, when reading fails and what it gives otherwise.
-/

namespace GateGraph

open Json (Tree Value)

-- powers of whole numbers are the built-in ones, whatever is imported beside this module
attribute [local instance (2000)] instPowNat

/-! ## What is to be expected -/

namespace Op

/-- What is read back of a number: the number that its numeral reads back as, or nothing. -/
def rereadReal? (x : Binary32) : Option Binary32 := if x.isFinite then Json.reread? x else none

/-- What is read back of an operation. -/
def reread? : Op → Option Op
  | parameter => some parameter
  | arith op => some (arith op)
  | clamp min max => do
      let min ← rereadReal? min
      let max ← rereadReal? max
      return clamp min max
  | activation f => some (activation ⟨f.kind, f.alpha.bind rereadReal?, f.beta.bind rereadReal?⟩)

end Op

/-- What is read back of a node: all of it, with what is read back of its operation. -/
def Node.reread? (n : Node) : Option Node := n.op.reread?.map fun op => { n with op }

/-- What is read back of a descriptor: all of it, with what is read back of its nodes. -/
def Descriptor.reread? (d : Descriptor) : Option Descriptor :=
  (d.nodes.mapM Node.reread?).map fun nodes => { d with nodes }

/-! ## Operations -/

namespace Json.Value

/-- The value of a record: the values of its fields, under their names. -/
theorem ofTree?_record {room : Nat} (hroom : 1 < room) {fields : List (String × Tree)}
    {contents : List (String × Value)}
    (h : List.Forall₂ (fun f c => f.1 = c.1 ∧ ofTree? (room - 1) f.2 = some c.2) fields contents) :
    ofTree? room (.record fields) = some (.object contents) := by
  simp only [Tree.record, ofTree?, if_pos hroom]
  refine Option.map_eq_some_iff.mpr ⟨contents, ?_, rfl⟩
  induction h with
  | nil => rfl
  | cons hfirst _ ih =>
      simp only [List.map_cons, ofFields?, stringOf?_map_char, hfirst.2, ih, bind, Option.bind_some]
      rw [hfirst.1]
      rfl

theorem ofTree?_text (room : Nat) (s : String) : ofTree? room (.text s) = some (.string s) := by
  simp only [Tree.text, ofTree?, stringOf?_map_char, Option.map_some]

end Json.Value

namespace Op

/-- The value of a number, and what is made of it as a bound and as a parameter. -/
theorem exists_value (room : Nat) (x : Binary32) :
    ∃ v, Value.ofTree? room (realTree x) = some v ∧ real? v = rereadReal? x ∧
      param? v = some (rereadReal? x) := by
  unfold realTree Json.Tree.real rereadReal?
  cases hx : x.isFinite with
  | false => exact ⟨.null, rfl, rfl, rfl⟩
  | true =>
      obtain ⟨n, hnumber, hsingle⟩ := Option.map_eq_some_iff.mp (Json.reread?_eq hx)
      refine ⟨.number n, ?_, ?_, ?_⟩
      · simp only [if_true, Value.ofTree?, hnumber, Option.map_some]
      · simp only [if_true, real?, Json.reread?, hnumber, Option.map_some]
      · simp only [if_true, param?, real?, Json.reread?, hnumber, Option.map_some]

/-- The value of an operation: its type, and the values of its fields. -/
theorem ofTree?_tree {room : Nat} (hroom : 1 < room) (op : Op) (contents : List (String × Value))
    (h : List.Forall₂ (fun f c => f.1 = c.1 ∧ Value.ofTree? (room - 1) f.2 = some c.2) op.fields contents) :
    Value.ofTree? room op.tree = some (.object (("type", .string op.typeName) :: contents)) :=
  Value.ofTree?_record hroom (.cons ⟨rfl, Value.ofTree?_text _ _⟩ h)

/-- The field of a parameter, and what is read from it. Other names are not in it. -/
theorem exists_paramFields (room : Nat) (name : String) (p : Option Binary32) :
    ∃ contents, List.Forall₂ (fun f c => f.1 = c.1 ∧ Value.ofTree? room f.2 = some c.2)
        (paramFields name p) contents ∧
      (∀ other, other ≠ name → contents.filter (·.1 == other) = []) ∧
      ∃ content, Json.field? name contents = some content ∧
        optionalParam? content = some (p.bind rereadReal?) := by
  cases p with
  | none => exact ⟨[], .nil, fun _ _ => rfl, none, rfl, rfl⟩
  | some x =>
      obtain ⟨v, hv, -, hparam⟩ := exists_value room x
      refine ⟨[(name, v)], .cons ⟨rfl, hv⟩ .nil, fun other hne => ?_, some v, ?_, hparam⟩
      · simp [Ne.symm hne]
      · simp [Json.field?]

/-- What is read of the text of an operation. -/
theorem ofValue?_tree {room : Nat} (hroom : 1 < room) (op : Op) :
    (Value.ofTree? room op.tree).bind ofValue? = op.reread? := by
  cases op with
  | parameter =>
      rw [ofTree?_tree hroom _ [] .nil]
      rfl
  | arith op =>
      rw [ofTree?_tree hroom _ [] .nil]
      cases op <;> rfl
  | clamp min max =>
      obtain ⟨vmin, hmin, hrealMin, -⟩ := exists_value (room - 1) min
      obtain ⟨vmax, hmax, hrealMax, -⟩ := exists_value (room - 1) max
      rw [ofTree?_tree hroom _ [("min", vmin), ("max", vmax)]
        (.cons ⟨rfl, hmin⟩ (.cons ⟨rfl, hmax⟩ .nil))]
      simp only [reread?, ← hrealMin, ← hrealMax]
      rfl
  | activation f =>
      obtain ⟨kind, alpha, beta⟩ := f
      obtain ⟨alphas, halphas, hnotAlpha, a, ha, halpha⟩ := exists_paramFields (room - 1) "alpha" alpha
      obtain ⟨betas, hbetas, hnotBeta, b, hb, hbeta⟩ := exists_paramFields (room - 1) "beta" beta
      have happend : List.Forall₂ (fun f c => f.1 = c.1 ∧ Value.ofTree? (room - 1) f.2 = some c.2)
          (paramFields "alpha" alpha ++ paramFields "beta" beta) (alphas ++ betas) :=
        List.rel_append halphas hbetas
      rw [ofTree?_tree hroom (activation ⟨kind, alpha, beta⟩) (("function", .string kind.name) :: (alphas ++ betas))
        (.cons ⟨rfl, Value.ofTree?_text (room - 1) kind.name⟩ happend)]
      -- each name is found in its own part of the object
      have htype : Json.field? "type" (("type", Value.string "Activation") :: ("function", .string kind.name) ::
          (alphas ++ betas)) = some (some (.string "Activation")) := by
        simp [Json.field?, hnotAlpha, hnotBeta]
      have hfunction : Json.field? "function" (("type", Value.string "Activation") ::
          ("function", .string kind.name) :: (alphas ++ betas)) = some (some (.string kind.name)) := by
        simp [Json.field?, hnotAlpha, hnotBeta]
      have halphas' : Json.field? "alpha" (("type", Value.string "Activation") ::
          ("function", .string kind.name) :: (alphas ++ betas)) = some a := by
        rw [← ha]
        simp [Json.field?, hnotBeta]
      have hbetas' : Json.field? "beta" (("type", Value.string "Activation") ::
          ("function", .string kind.name) :: (alphas ++ betas)) = some b := by
        rw [← hb]
        simp [Json.field?, hnotAlpha]
      have hmembers : ofMembers? "Activation" [some (.string kind.name), a, b] =
          some (activation ⟨kind, alpha.bind rereadReal?, beta.bind rereadReal?⟩) := by
        have hkind : ActivationKind.ofValue? (.string kind.name) = some kind := ActivationKind.ofName?_name kind
        simp only [ofMembers?, hkind, halpha, hbeta]
        rfl
      simp only [Option.bind_some, ofValue?, typeName, htype, bind, fieldNames?, List.mapM_cons, hfunction,
        halphas', hbetas', List.mapM_nil, pure, hmembers, reread?]

end Op

/-! ## Shapes and ids -/

theorem Dim.ofTree?_tree (d : Dim) : Dim.ofTree? d.tree = some d := by
  cases d with
  | none => rfl
  | some n =>
      have hread : (Tree.natural n.toNat).natural? = some n := by
        rw [Tree.natural?_natural n.toNat_lt, UInt64.ofNat_toNat]
      simp only [Dim.tree, Dim.ofTree?, Tree.natural] at hread ⊢
      rw [hread, Option.map_some]

theorem Shape.ofTree?_tree (s : Shape) : Shape.ofTree? s.tree = some s := by
  cases s with
  | unranked => rfl
  | ranked dims =>
      have hdims : (Tree.array (dims.map Dim.tree)).list? Dim.ofTree? = some dims := by
        rw [Tree.list?_array, Json.mapM_eq_some_self fun d _ => Dim.ofTree?_tree d]
      have hmembers := Tree.members?_record [("dims", Tree.array (dims.map Dim.tree))] (by simp)
      simp only [List.map_cons, List.map_nil] at hmembers
      simp only [Shape.tree, Shape.ofTree?, hmembers, bind, Option.bind_some, Shape.ofDims?, hdims,
        Option.map_some]

/-- Ids are numbers of 64 bits in a text. -/
def Node.Numbered (n : Node) : Prop := n.id.number < 2 ^ 64 ∧ ∀ p ∈ n.parents, p.number < 2 ^ 64

def Descriptor.Numbered (d : Descriptor) : Prop := ∀ n ∈ d.nodes, n.Numbered

instance (n : Node) : Decidable n.Numbered := inferInstanceAs (Decidable (_ ∧ _))

instance (d : Descriptor) : Decidable d.Numbered := inferInstanceAs (Decidable (∀ n ∈ d.nodes, n.Numbered))

theorem NodeId.ofTree?_tree {id : NodeId} (h : id.number < 2 ^ 64) : NodeId.ofTree? id.tree = some id := by
  simp only [NodeId.ofTree?, NodeId.tree, Tree.natural?_natural h, Option.map_some,
    UInt64.toNat_ofNat_of_lt' h]

/-! ## Nodes and descriptors -/

/-- What is read of the text of a node. -/
theorem Node.ofTree?_tree {room : Nat} (hroom : 2 < room) {n : Node} (h : n.Numbered) :
    Node.ofTree? room n.tree = n.reread? := by
  have hmembers := Tree.members?_record [
    ("id", n.id.tree), ("name", .text n.name), ("node_type", n.op.tree), ("output_shape", n.shape.tree),
    ("parents", .array (n.parents.map NodeId.tree))] (by simp)
  simp only [List.map_cons, List.map_nil] at hmembers
  have hparents : (Tree.array (n.parents.map NodeId.tree)).list? NodeId.ofTree? = some n.parents := by
    rw [Tree.list?_array, Json.mapM_eq_some_self fun p hp => NodeId.ofTree?_tree (h.2 p hp)]
  have hop : (Value.ofTree? (room - 1) n.op.tree).bind Op.ofValue? = n.op.reread? :=
    Op.ofValue?_tree (by omega) n.op
  simp only [Node.tree, Node.ofTree?, hmembers, bind, Option.bind_some, NodeId.ofTree?_tree h.1,
    Tree.string?_text, hop, Shape.ofTree?_tree, hparents, pure, Node.reread?]
  cases n.op.reread? <;> rfl

/-- What is read of a descriptor. -/
theorem Descriptor.ofTree?_tree {d : Descriptor} (h : d.Numbered) : Descriptor.ofTree? d.tree = d.reread? := by
  have hmembers := Tree.members?_record [
    ("version", .text d.version), ("name", .text d.name), ("nodes", .array (d.nodes.map Node.tree))] (by simp)
  simp only [List.map_cons, List.map_nil] at hmembers
  have hnodes : (Tree.array (d.nodes.map Node.tree)).list? (Node.ofTree? (Json.nestingLimit - 2)) =
      d.nodes.mapM Node.reread? := by
    rw [Tree.list?_array]
    exact Json.mapM_congr fun n hn => Node.ofTree?_tree (by decide) (h n hn)
  simp only [Descriptor.tree, Descriptor.ofTree?, hmembers, bind, Option.bind_some, Tree.string?_text,
    hnodes, pure, Descriptor.reread?]
  cases d.nodes.mapM Node.reread? <;> rfl

/-! ## Texts -/

theorem Op.legible_realTree (x : Binary32) : (Op.realTree x).Legible := Tree.legible_real x

theorem Op.legible_tree (op : Op) : op.tree.Legible := by
  have hparam : ∀ name p, ∀ f ∈ paramFields name p, f.2.Legible := by
    intro name p f hf
    cases p with
    | none => exact absurd hf List.not_mem_nil
    | some x => exact List.mem_singleton.mp hf ▸ legible_realTree x
  refine Tree.legible_record (List.forall_mem_cons.mpr ⟨Tree.legible_text _, ?_⟩)
  cases op with
  | parameter | arith => exact fun _ hf => absurd hf List.not_mem_nil
  | clamp min max =>
      exact List.forall_mem_cons.mpr ⟨legible_realTree min,
        List.forall_mem_cons.mpr ⟨legible_realTree max, fun _ hf => absurd hf List.not_mem_nil⟩⟩
  | activation f =>
      refine List.forall_mem_cons.mpr ⟨Tree.legible_text _, fun g hg => ?_⟩
      rcases List.mem_append.mp hg with hg | hg
      · exact hparam _ _ g hg
      · exact hparam _ _ g hg

theorem Shape.legible_tree (s : Shape) : s.tree.Legible := by
  refine Tree.legible_record fun f hf => ?_
  rw [List.mem_singleton.mp hf]
  cases s with
  | unranked => exact Tree.legible_null
  | ranked dims =>
      refine Tree.legible_array fun t ht => ?_
      obtain ⟨d, -, rfl⟩ := List.mem_map.mp ht
      cases d with
      | none => exact Tree.legible_null
      | some n => exact Tree.legible_natural n.toNat

theorem Node.legible_tree (n : Node) : n.tree.Legible := by
  have hparents : (Tree.array (n.parents.map NodeId.tree)).Legible := by
    refine Tree.legible_array fun t ht => ?_
    obtain ⟨p, -, rfl⟩ := List.mem_map.mp ht
    exact Tree.legible_natural p.number
  refine Tree.legible_record ?_
  simp only [List.forall_mem_cons]
  exact ⟨Tree.legible_natural _, Tree.legible_text _, n.op.legible_tree, n.shape.legible_tree, hparents,
    fun _ hf => absurd hf List.not_mem_nil⟩

theorem Descriptor.legible_tree (d : Descriptor) : d.tree.Legible := by
  have hnodes : (Tree.array (d.nodes.map Node.tree)).Legible := by
    refine Tree.legible_array fun t ht => ?_
    obtain ⟨n, -, rfl⟩ := List.mem_map.mp ht
    exact n.legible_tree
  refine Tree.legible_record ?_
  simp only [List.forall_mem_cons]
  exact ⟨Tree.legible_text _, Tree.legible_text _, hnodes, fun _ hf => absurd hf List.not_mem_nil⟩

/-- A shape of its own is read back from its text. -/
theorem Shape.ofJson?_toJson (s : Shape) : Shape.ofJson? s.toJson = some s := by
  unfold ofJson? toJson
  rw [Tree.ofString?_render Json.Layout.blank_compact s.legible_tree, Option.bind_some, ofTree?_tree]

/-- So is the kind of an activation. -/
theorem ActivationKind.ofJson?_toJson (k : ActivationKind) : ActivationKind.ofJson? k.toJson = some k := by
  unfold ofJson? toJson
  rw [Tree.ofString?_render Json.Layout.blank_compact (Tree.legible_text k.name), Option.bind_some, Tree.text]
  simp only [ofTree?, Json.stringOf?_map_char, Option.bind_some, ofName?_name]

/-- **What is read of the text of a descriptor.** -/
theorem Descriptor.ofJson?_toJson_eq {d : Descriptor} (h : d.Numbered) : ofJson? d.toJson = d.reread? := by
  unfold ofJson? toJson
  rw [Tree.ofString?_render Json.Layout.blank_pretty d.legible_tree, Option.bind_some, ofTree?_tree h]

/-! ## When reading fails, and what it gives otherwise -/

/-- An operation that is read of the text of another one: the same type and the same function. The numbers are
    those that the numerals read back as, and a parameter without a numeral is not set. -/
def Op.RereadAs : Op → Op → Prop
  | parameter, op' => op' = parameter
  | arith op, op' => op' = arith op
  | clamp min max, op' => ∃ min' max', Json.reread? min = some min' ∧ Json.reread? max = some max' ∧
      op' = clamp min' max'
  | activation f, op' => op' = activation ⟨f.kind, f.alpha.bind rereadReal?, f.beta.bind rereadReal?⟩

/-- A node that is read of the text of another one: the same in all but the numbers of its operation. -/
structure Node.RereadAs (n n' : Node) : Prop where
  id : n'.id = n.id
  name : n'.name = n.name
  op : n.op.RereadAs n'.op
  shape : n'.shape = n.shape
  parents : n'.parents = n.parents

theorem Op.rereadReal?_of_isFinite {x : Binary32} (h : x.isFinite = true) : rereadReal? x = some x := by
  unfold rereadReal?
  rw [if_pos h, Json.reread?_eq h]

theorem Op.rereadReal?_eq_none {x : Binary32} : rereadReal? x = none ↔ x.isFinite = false := by
  cases hx : x.isFinite with
  | true => simp [rereadReal?_of_isFinite hx]
  | false => simp [rereadReal?, hx]

theorem Op.rereadAs_of_reread? {op op' : Op} (h : op.reread? = some op') : op.RereadAs op' := by
  cases op with
  | parameter | arith | activation => exact (Option.some.inj h).symm
  | clamp min max =>
      simp only [reread?, bind, Option.bind_eq_some_iff, pure, Option.some.injEq] at h
      obtain ⟨min', hmin, max', hmax, rfl⟩ := h
      have hread : ∀ {x y : Binary32}, rereadReal? x = some y → Json.reread? x = some y := by
        intro x y hxy
        unfold rereadReal? at hxy
        split at hxy
        · exact hxy
        · exact absurd hxy (by simp)
      exact ⟨min', max', hread hmin, hread hmax, rfl⟩

theorem Op.reread?_eq_none {op : Op} : op.reread? = none ↔
    ∃ min max, op = clamp min max ∧ (min.isFinite = false ∨ max.isFinite = false) := by
  cases op with
  | parameter | arith | activation => simp [reread?]
  | clamp min max =>
      have hnone : (clamp min max).reread? = none ↔ rereadReal? min = none ∨ rereadReal? max = none := by
        cases hmin : rereadReal? min <;> cases hmax : rereadReal? max <;> simp [reread?, hmin, hmax]
      rw [hnone, rereadReal?_eq_none, rereadReal?_eq_none]
      simp

theorem Node.rereadAs_of_reread? {n n' : Node} (h : n.reread? = some n') : n.RereadAs n' := by
  obtain ⟨op, hop, rfl⟩ := Option.map_eq_some_iff.mp h
  exact ⟨rfl, rfl, Op.rereadAs_of_reread? hop, rfl, rfl⟩

/-- **Descriptors that are written and read.** Reading the text of a descriptor fails exactly when a bound is
    not finite. Otherwise the descriptor comes back node by node, with the numbers that the numerals read back
    as; for a finite number that is the number itself. -/
theorem Descriptor.codec {d : Descriptor} (h : d.Numbered) :
    (ofJson? d.toJson = none ↔ ∃ n ∈ d.nodes, ∃ min max, n.op = .clamp min max ∧
        (min.isFinite = false ∨ max.isFinite = false)) ∧
      (∀ d', ofJson? d.toJson = some d' →
        d'.version = d.version ∧ d'.name = d.name ∧ List.Forall₂ Node.RereadAs d.nodes d'.nodes) ∧
      ∀ x : Binary32, x.isFinite = true → Json.reread? x = some x := by
  rw [ofJson?_toJson_eq h]
  refine ⟨?_, fun d' hd' => ?_, fun _ => Json.reread?_eq⟩
  · simp only [reread?, Option.map_eq_none_iff, Json.mapM_eq_none, Node.reread?, Op.reread?_eq_none]
  · obtain ⟨nodes, hnodes, rfl⟩ := Option.map_eq_some_iff.mp hd'
    exact ⟨rfl, rfl, (Json.forall₂_of_mapM hnodes).imp fun _ _ => Node.rereadAs_of_reread?⟩

/-- A descriptor of no graph for which this says something: characters that are escaped, the largest id, a
    node that is its own parent, and a parameter that is infinite. -/
theorem Descriptor.codec_escaped :
    ∃ d : Descriptor, d.Numbered ∧ d.nodes.length = 2 ∧
      (ofJson? d.toJson = none ↔ ∃ n ∈ d.nodes, ∃ min max, n.op = .clamp min max ∧
          (min.isFinite = false ∨ max.isFinite = false)) ∧
        (∀ d', ofJson? d.toJson = some d' →
          d'.version = d.version ∧ d'.name = d.name ∧ List.Forall₂ Node.RereadAs d.nodes d'.nodes) ∧
        ∀ x : Binary32, x.isFinite = true → Json.reread? x = some x :=
  let d : Descriptor := ⟨"0.1", "\"节点\"\n\u0007", [
    ⟨⟨2 ^ 64 - 1⟩, "", .clamp (.ofBits .single 0xc0000000) (.ofBits .single 0x3dcccccd), .unranked,
      [⟨2 ^ 64 - 1⟩, ⟨0⟩]⟩,
    ⟨⟨0⟩, "\\", .activation ⟨.hardSigmoid, some (.ofBits .single 0x7f800000), some (.ofBits .single 1)⟩,
      .ranked [none, some 0], []⟩]⟩
  have h : d.Numbered := by decide
  ⟨d, h, rfl, codec h⟩

end GateGraph
