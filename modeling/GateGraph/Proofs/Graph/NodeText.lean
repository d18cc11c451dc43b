import GateGraph.Proofs.Graph.Coherence
import GateGraph.Proofs.Shape.Text

/-!
# `GateGraph.Proofs.Graph.NodeText` — a node is known by its text

A node is shown as `节点[id=1, name=x, type=add]`. Names stand there as they are, and a name may hold whatever
stands around it: `x, type=add], name=y` is a name like any other. The text falls into its parts in one way
only all the same. The number in front ends at the first comma, because it has digits only; the label at the
end begins behind the last equals sign, because no label has one; and what is in between is the name.

An error about the inputs of a cell begins with the text of a node. The words that follow begin with a
character that none of the causes has, so the text can be told from the message too, although it may hold
these very words.

## Contents
- `Op.equals_notMem_label` and `Node.toList_text`; `Node.text_inj`.
- `InputFault.mark_notMem_message` and `Error.nodeValidation_message_inj`.
- `Graph.WellFormed.nodeText_injective` and `Graph.Reachable.nodeText_run_iff`.
- `Graph.nodeText_identifies`.
-/

namespace GateGraph

/-! ## The text of a node -/

/-- No label has an equals sign. -/
theorem Op.equals_notMem_label (op : Op) : '=' ∉ op.label.toList := by
  have harith (op : Arith) : '=' ∉ op.label.toList := by cases op <;> decide
  have hkind (kind : ActivationKind) : '=' ∉ kind.name.toList := by cases kind <;> decide
  cases op with
  | parameter => decide
  | arith op => exact harith op
  | clamp _ _ => exact show '=' ∉ "clamp".toList by decide
  | activation f => exact hkind f.kind

namespace Node

/-- The text of a node, character by character: the comma behind the number and the equals sign in front of
    the label are the places where it is split. -/
theorem toList_text (n : Node) :
    n.text.toList = "节点[id=".toList ++ (Decimal.digits n.id.number ++ ',' :: (" name=".toList ++
      (n.name.toList ++ ", type".toList ++ '=' :: (n.op.label.toList ++ [']'])))) := by
  have hname : ", name=".toList = ',' :: " name=".toList := rfl
  have htype : ", type=".toList = ", type".toList ++ ['='] := rfl
  have hend : "]".toList = [']'] := rfl
  simp only [text, NodeId.text, Decimal.text, String.toList_append, String.toList_ofList, hname, htype, hend,
    List.append_assoc, List.cons_append, List.nil_append]

/-- **A node's text says its id, its name and its label**, whatever the name is. -/
theorem text_inj {n m : Node} (h : n.text = m.text) :
    n.id = m.id ∧ n.name = m.name ∧ n.op.label = m.op.label := by
  have hchars := congrArg String.toList h
  rw [toList_text, toList_text, List.append_cancel_left_eq] at hchars
  have hcomma : ¬ (','.isDigit = true) := by decide
  obtain ⟨hdigits, -, hrest⟩ :=
    Text.split_first (fun _ => Decimal.isDigit_of_mem_digits) (fun _ => Decimal.isDigit_of_mem_digits) hcomma
      hcomma hchars
  rw [List.append_cancel_left_eq] at hrest
  -- the bracket at the end is no equals sign either
  have htail (op : Op) : '=' ∉ op.label.toList ++ [']'] := by
    intro hmem
    rcases List.mem_append.mp hmem with hlabel | hend
    · exact op.equals_notMem_label hlabel
    · exact absurd hend (by decide)
  obtain ⟨hname, hlabel⟩ := Text.split_last_of_notMem (htail n.op) (htail m.op) hrest
  have hid : n.id.number = m.id.number := Decimal.digits_injective hdigits
  exact ⟨congrArg NodeId.mk hid, String.toList_inj.mp (List.append_cancel_right hname),
    String.toList_inj.mp (List.append_cancel_right hlabel)⟩

end Node

/-! ## Errors that speak of a node -/

/-- The causes of refused inputs are told without the character that the words in front of them begin with. -/
theorem InputFault.mark_notMem_message (fault : InputFault) : '校' ∉ fault.message.toList := by
  have hnumber (k : Nat) : '校' ∉ (Decimal.text k).toList := by
    intro hmem
    rw [Decimal.text, String.toList_ofList] at hmem
    exact absurd (Decimal.isDigit_of_mem_digits hmem) (by decide)
  have hshape (s : Shape) : '校' ∉ s.text.toList := by
    intro hmem
    rw [Shape.text, String.toList_ofList] at hmem
    exact absurd (Shape.isAscii_of_mem_chars hmem) (by decide)
  -- what is left of each cause are its words
  cases fault <;> unfold message <;>
    simp only [String.toList_append, List.mem_append, hnumber, hshape, or_false, not_or] <;> decide

/-- **The message of refused inputs says whose inputs they are**, even to someone who is given any text for a
    node. -/
theorem Error.nodeValidation_message_inj {node node' : String} {fault fault' : InputFault}
    (h : (nodeValidation node fault).message = (nodeValidation node' fault').message) : node = node' := by
  have hsplit (node : String) (fault : InputFault) : (nodeValidation node fault).message.toList =
      node.toList ++ '校' :: ("验失败：".toList ++ fault.message.toList) := by
    have hwords : "校验失败：" = String.singleton '校' ++ "验失败：" := rfl
    show (node ++ "校验失败：" ++ fault.message).toList = _
    rw [hwords]
    simp only [String.toList_append, String.toList_singleton, List.append_assoc, List.cons_append,
      List.nil_append]
  have htail (fault : InputFault) : '校' ∉ "验失败：".toList ++ fault.message.toList := by
    intro hmem
    rcases List.mem_append.mp hmem with hwords | hmessage
    · exact absurd hwords (by decide)
    · exact fault.mark_notMem_message hmessage
  have hchars := congrArg String.toList h
  rw [hsplit, hsplit] at hchars
  have hnode := (Text.split_last_of_notMem (htail fault) (htail fault') hchars).1
  exact String.toList_inj.mp hnode

/-- Inputs are refused on behalf of the node whose text is given. -/
theorem Cell.exists_fault_of_checkInputs {node : String} {inputs : List Shape} {e : Error}
    (h : checkInputs node inputs = .error e) : ∃ fault, e = .nodeValidation node fault := by
  obtain ⟨fault, -, rfl⟩ := (checkInputs_eq_error_iff e).mp h
  exact ⟨fault, rfl⟩

/-! ## The nodes of graphs -/

namespace Graph

variable {g g' : Graph} {id id' : NodeId} {text : String}

/-- Nodes that are shown alike, in one graph or in two. -/
theorem WellFormed.eq_of_nodeText (h : g.WellFormed) (h' : g'.WellFormed) (htext : g.nodeText id = .ok text)
    (htext' : g'.nodeText id' = .ok text) :
    id = id' ∧ g.nodeName id = g'.nodeName id' ∧
      (g.nodeOp id).map Op.label = (g'.nodeOp id').map Op.label := by
  obtain ⟨n, hn, rfl⟩ := of_map_node htext
  obtain ⟨m, hm, hsame⟩ := of_map_node htext'
  obtain ⟨hid, hname, hlabel⟩ := Node.text_inj hsame.symm
  refine ⟨?_, ?_, ?_⟩
  · rw [← h.id_of_node? hn, ← h'.id_of_node? hm, hid]
  · unfold nodeName
    rw [field_of_node? _ hn, field_of_node? _ hm, hname]
  · unfold nodeOp
    rw [field_of_node? _ hn, field_of_node? _ hm]
    exact congrArg Except.ok hlabel

/-- Two ids are never answered alike: nodes are not shown alike, and what is said of a missing node has its
    id. -/
theorem WellFormed.nodeText_injective (h : g.WellFormed) : Function.Injective g.nodeText := by
  have hanswers : g.Answers g.nodeText := answers_map _
  intro id id' heq
  by_cases hin : g.InRange id
  · obtain ⟨text, htext⟩ := (hanswers id).1 hin
    exact (h.eq_of_nodeText h htext (heq.symm.trans htext)).1
  · have hmissing := (hanswers id).2 hin
    by_cases hin' : g.InRange id'
    · obtain ⟨text, htext⟩ := (hanswers id').1 hin'
      rw [hmissing, htext] at heq
      cases heq
    · rw [hmissing, (hanswers id').2 hin'] at heq
      exact Error.nodeNotFound.inj (Except.error.inj heq)

/-- A text that belongs to a node belongs to no other one, then and ever after. -/
theorem Reachable.nodeText_run_iff (h : g.Reachable) (htext : g.nodeText id = .ok text) (steps : List Step)
    (id' : NodeId) : (Script.run steps g).2.nodeText id' = .ok text ↔ id' = id := by
  obtain ⟨n, hn, rfl⟩ := of_map_node htext
  have hlater : (Script.run steps g).2.nodeText id = .ok n.text := field_of_node? _ (node?_run steps hn)
  constructor
  · intro htext'
    exact (h.run steps).wellFormed.nodeText_injective (htext'.trans hlater.symm)
  · rintro rfl
    exact hlater

/-- **A node is known by its text**, whatever its name is. Nodes that are shown alike, in one graph or in two,
    have the same id, the same name and the same label; in one graph they are the same node. So an error about
    inputs that is given the text of a node is about that node and no other one, also when the graph has grown;
    and the text can be told from the message. -/
theorem nodeText_identifies :
    (∀ (g g' : Graph) (id id' : NodeId) (text : String), g.Reachable → g'.Reachable →
      g.nodeText id = .ok text → g'.nodeText id' = .ok text →
        id = id' ∧ g.nodeName id = g'.nodeName id' ∧
          (g.nodeOp id).map Op.label = (g'.nodeOp id').map Op.label) ∧
    (∀ g : Graph, g.Reachable → Function.Injective g.nodeText) ∧
    (∀ (g : Graph) (id : NodeId) (text : String) (inputs : List Shape) (e : Error), g.Reachable →
      g.nodeText id = .ok text → Cell.checkInputs text inputs = .error e →
        (∃ fault, e = .nodeValidation text fault) ∧
          ∀ steps id', (Script.run steps g).2.nodeText id' = .ok text ↔ id' = id) ∧
    (∀ (text text' : String) (inputs inputs' : List Shape) (e e' : Error),
      Cell.checkInputs text inputs = .error e → Cell.checkInputs text' inputs' = .error e' →
        e.message = e'.message → text = text') := by
  refine ⟨?_, fun g hg => hg.wellFormed.nodeText_injective, ?_, ?_⟩
  · intro g g' id id' text hg hg' htext htext'
    exact hg.wellFormed.eq_of_nodeText hg'.wellFormed htext htext'
  · intro g id text inputs e hg htext hcheck
    exact ⟨Cell.exists_fault_of_checkInputs hcheck, hg.nodeText_run_iff htext⟩
  · intro text text' inputs inputs' e e' hcheck hcheck' hmessage
    obtain ⟨fault, rfl⟩ := Cell.exists_fault_of_checkInputs hcheck
    obtain ⟨fault', rfl⟩ := Cell.exists_fault_of_checkInputs hcheck'
    exact Error.nodeValidation_message_inj hmessage

/-- A parameter whose text begins as that of a sum called `x` would, beside a sum whose name ends as texts do.
    The same parameter in another graph is shown alike, although its shape is not the same. -/
theorem nodeText_identifies_lookalike :
    ∃ (g g' : Graph) (text text' : String) (e e' : Error), g.Reachable ∧ g'.Reachable ∧
      g.nodeText ⟨1⟩ = .ok text ∧ g'.nodeText ⟨1⟩ = .ok text ∧ g.nodeText ⟨2⟩ = .ok text' ∧
      g.nodeName ⟨1⟩ = g'.nodeName ⟨1⟩ ∧ g.nodeShape ⟨1⟩ ≠ g'.nodeShape ⟨1⟩ ∧ text ≠ text' ∧
      Cell.checkInputs text [.unranked] = .error e ∧ Cell.checkInputs text' [.unranked] = .error e' ∧
      e.message ≠ e'.message ∧
      ∀ steps id, (Script.run steps g).2.nodeText id = .ok text ↔ id = ⟨1⟩ := by
  let steps : List Step := [
    .parameter (.fixed [2]) (some "x, type=add], name=y"),
    .arith .add ⟨1⟩ ⟨1⟩ (some "x, type=add]")]
  let g : Graph := (Script.run steps (empty "gate")).2
  let g' : Graph := (Script.run [.parameter .unranked (some "x, type=add], name=y")] (empty "other")).2
  let text := "节点[id=1, name=x, type=add], name=y, type=parameter]"
  let text' := "节点[id=2, name=x, type=add], type=add]"
  let e : Error := .nodeValidation text (.dynamicRank 0)
  let e' : Error := .nodeValidation text' (.dynamicRank 0)
  have hg : g.Reachable := ⟨"gate", steps, rfl⟩
  have hg' : g'.Reachable := ⟨"other", _, rfl⟩
  have htext : g.nodeText ⟨1⟩ = .ok text := by decide +kernel
  have htext' : g'.nodeText ⟨1⟩ = .ok text := by decide +kernel
  have hsum : g.nodeText ⟨2⟩ = .ok text' := by decide +kernel
  have hshape : g.nodeShape ⟨1⟩ ≠ g'.nodeShape ⟨1⟩ := by decide +kernel
  have hcheck : Cell.checkInputs text [.unranked] = .error e := rfl
  have hcheck' : Cell.checkInputs text' [.unranked] = .error e' := rfl
  obtain ⟨halike, hinjective, hnode, hmessages⟩ := nodeText_identifies
  have hne : text ≠ text' := fun hsame =>
    absurd (hinjective g hg (htext.trans (hsame ▸ hsum.symm))) (by decide)
  refine ⟨g, g', text, text', e, e', hg, hg', htext, htext', hsum,
    (halike g g' ⟨1⟩ ⟨1⟩ text hg hg' htext htext').2.1, hshape, hne, hcheck, hcheck', ?_,
    (hnode g ⟨1⟩ text _ e hg htext hcheck).2⟩
  exact fun hsame => hne (hmessages text text' _ _ e e' hcheck hcheck' hsame)

end Graph

end GateGraph
