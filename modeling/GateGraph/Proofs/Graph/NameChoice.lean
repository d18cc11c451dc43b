import GateGraph.Proofs.Graph.Coherence
import GateGraph.Proofs.Graph.Naming

/-!
# `GateGraph.Proofs.Graph.NameChoice` — which name a new node gets

`Graph.Named` says how names are kept. This module says what follows for whoever adds a node, after any
script:

- without a name, or with the empty one, a step never fails because of names, and its node is called by its
  label and the first number that is free. The search that starts behind the last number of the label comes
  to the same number as one that starts at one, and that is never more than one above the number of nodes;
- a name that is asked for is taken as it is when it is free, and refused otherwise. It is the last thing
  that is looked at: a step that fails without a name fails with the same error with one.

## Contents
- `Seeks`, the search for a free number with no bound on its steps; `IsFirstFree.seeks`: it ends.
- `Step.renamed`, a step with another name for its node, and what it asks for: `request_renamed`.
- `Step.Naming` and `naming_run`.
-/

namespace GateGraph

/-! ## The search, without a bound -/

/-- Going up from `k` as long as the label with the number is taken, one stops at `m`. -/
inductive Seeks (taken : String → Prop) (label : String) : Nat → Nat → Prop
  | stop {k : Nat} : ¬ taken (numbered label k) → Seeks taken label k k
  | next {k m : Nat} : taken (numbered label k) → Seeks taken label (k + 1) m → Seeks taken label k m

/-- A search ends at the first number that is free, however far it has to go. -/
theorem Seeks.of_taken {taken : String → Prop} {label : String} {k m : Nat} (hkm : k ≤ m)
    (hfree : ¬ taken (numbered label m)) (htaken : ∀ j, k ≤ j → j < m → taken (numbered label j)) :
    Seeks taken label k m := by
  obtain ⟨distance, rfl⟩ := Nat.exists_eq_add_of_le hkm
  induction distance generalizing k with
  | zero => exact .stop hfree
  | succ distance ih =>
      have hsum : k + (distance + 1) = k + 1 + distance := by omega
      rw [hsum] at hfree htaken ⊢
      refine .next (htaken k (Nat.le_refl k) (by omega)) (ih (Nat.le_add_right _ _) hfree ?_)
      intro j hj hlt
      exact htaken j (Nat.le_of_succ_le hj) hlt

namespace Graph

variable {g : Graph}

/-- A node has the name. -/
def NameTaken (g : Graph) (s : String) : Prop := ∃ n ∈ g.nodes, n.name = s

theorem IsFirstFree.not_nameTaken {label : String} {m : Nat} (h : g.IsFirstFree label m) :
    ¬ g.NameTaken (numbered label m) := by
  rintro ⟨n, hn, hname⟩
  exact h.free n hn hname

/-- From wherever a search starts, it does not miss the first free number. -/
theorem IsFirstFree.seeks {label : String} {k m : Nat} (h : g.IsFirstFree label m) (hpos : 1 ≤ k)
    (hkm : k ≤ m) : Seeks g.NameTaken label k m :=
  .of_taken hkm h.not_nameTaken fun j hkj hjm => h.least j (Nat.le_trans hpos hkj) hjm

/-- The index of names answers for the nodes. -/
theorem Named.contains_iff (h : g.Named) (s : String) : g.names.contains s = true ↔ g.NameTaken s :=
  h.taken s

/-- There are no more names than nodes. -/
theorem Named.size_names_le (h : g.Named) : g.names.size ≤ g.size := by
  have hsub : g.names.toList ⊆ g.nodes.toList.map (·.name) := by
    intro s hs
    obtain ⟨n, hn, rfl⟩ := (h.contains_iff s).mp (Std.TreeSet.mem_toList.mp hs)
    exact List.mem_map.mpr ⟨n, Array.mem_toList_iff.mpr hn, rfl⟩
  have hnodup : g.names.toList.Nodup :=
    Std.TreeSet.distinct_toList.imp fun {a b} hne heq => hne (Std.compare_eq_iff_eq.mpr heq)
  have hle := hnodup.length_le_of_subset hsub
  rw [Std.TreeSet.length_toList, List.length_map] at hle
  exact hle

/-- The first free number is at most one above the number of nodes. -/
theorem Named.le_of_isFirstFree (h : g.Named) {label : String} {m : Nat} (hm : g.IsFirstFree label m) :
    m ≤ g.size + 1 := by
  have htaken : ∀ j, 1 ≤ j → j < 1 + (m - 1) → g.names.contains (numbered label j) = true := by
    intro j hpos hlt
    exact (h.contains_iff _).mpr (hm.least j hpos (by omega))
  have hcount := Nat.le_trans (length_le_size_of_taken htaken) h.size_names_le
  have hpos := hm.pos
  omega

/-- **The search that goes on from the counter** ends, with the first free number. -/
theorem Named.seeks_freshNumber (h : g.Named) (label : String) :
    Seeks (fun s => g.names.contains s = true) label (g.counters.getD label 0 + 1)
      (g.freshNumber label) := by
  have hfirst := h.isFirstFree_freshNumber label
  have htaken : (fun s => g.names.contains s = true) = g.NameTaken :=
    funext fun s => propext (h.contains_iff s)
  rw [htaken]
  exact hfirst.seeks (Nat.le_add_left 1 _) (le_firstFree _ _ _ _)

end Graph

/-! ## Steps with another name -/

/-- The step with another name for its node. A clip takes none. -/
def Step.renamed (name : Option String) : Step → Step
  | .parameter shape _ => .parameter shape name
  | .arith op lhs rhs _ => .arith op lhs rhs name
  | .clamp input min max _ => .clamp input min max name
  | .activation input function _ => .activation input function name
  | .clip input bound => .clip input bound

/-- The step can be given a name for its node. -/
def Step.TakesName : Step → Prop
  | .clip _ _ => False
  | _ => True

/-- The request with another name for the node. -/
def Request.renamed (name : Option String) : Request → Request
  | .existing id => .existing id
  | .add d => .add { d with asked := name }

theorem clampRequest_renamed (g : Graph) (input : NodeId) (min max : Binary32) (name other : Option String) :
    clampRequest g input min max name = (clampRequest g input min max other).map (·.renamed name) := by
  unfold clampRequest
  cases g.node input with
  | error e => rfl
  | ok n =>
      simp only
      cases clampFault? min max <;> rfl

/-- A name changes nothing in a request but the name. -/
theorem Step.request_renamed {s : Step} (h : s.TakesName) (g : Graph) (name : Option String) :
    (s.renamed name).request g = (s.request g).map (·.renamed name) := by
  cases s with
  | parameter shape _ => rfl
  | arith op lhs rhs _ =>
      simp only [renamed, request]
      cases g.node lhs with
      | error e => rfl
      | ok l =>
          cases g.node rhs with
          | error e => rfl
          | ok r =>
              simp only
              cases l.shape.broadcast r.shape <;> rfl
  | clamp input min max _ => exact clampRequest_renamed g input min max name _
  | activation input function _ =>
      simp only [renamed, request]
      cases g.node input <;> rfl
  | clip input bound => exact h.elim

/-- Without a name, a step asks for none. -/
theorem Step.asked_of_renamed_none {s : Step} {g : Graph} {d : Draft} (h : (s.renamed none).Adds g d) :
    d.asked = none := by
  cases s <;> cases h <;> rfl

theorem Step.op_renamed (s : Step) (name : Option String) : (s.renamed name).op = s.op := by
  cases s <;> rfl

theorem Step.isIdle_renamed (s : Step) (name : Option String) : (s.renamed name).IsIdle ↔ s.IsIdle := by
  cases s <;> rfl

/-- A request for an existing node is made by idle steps only. -/
theorem Step.isIdle_of_existing {s : Step} {g : Graph} {id : NodeId}
    (h : s.request g = .ok (.existing id)) : s.IsIdle := by
  obtain ⟨bound, n, rfl, hzero, -⟩ := request_eq_existing_iff.mp h
  exact hzero

namespace Graph

variable {g : Graph}

/-- What carrying out a request for a node comes to. -/
theorem runOn_action_of_add {s : Step} {d : Draft} (h : s.request g = .ok (.add d)) :
    s.action.runOn g =
      match g.nameFor d with
      | .error e => (.error e, g)
      | .ok name => (.ok g.nextId, g.grow d name) := by
  rw [runOn_action, h]
  exact runOn_register_draft g d

theorem runOn_action_of_error {s : Step} {e : Error} (h : s.request g = .error e) :
    s.action.runOn g = (.error e, g) := by
  rw [runOn_action, h]

theorem runOn_action_of_existing {s : Step} {id : NodeId} (h : s.request g = .ok (.existing id)) :
    s.action.runOn g = (.ok id, g) := by
  rw [runOn_action, h]

/-- A draft without a name gets the first free number behind its label. -/
theorem nameFor_of_not_asked {d : Draft} (h : d.asked.getD "" = "") :
    g.nameFor d = .ok (numbered d.op.label (g.freshNumber d.op.label)) := by
  unfold nameFor
  exact if_pos h

/-- The new node's name, and how it is shown. -/
theorem nodeName_grow (h : g.lastId = g.size) (d : Draft) (name : String) :
    (g.grow d name).nodeName g.nextId = .ok name :=
  field_grow h (·.name) d name

theorem nodeText_grow (h : g.lastId = g.size) (d : Draft) (name : String) :
    (g.grow d name).nodeText g.nextId =
      .ok ("节点[id=" ++ g.nextId.text ++ ", name=" ++ name ++ ", type=" ++ d.op.label ++ "]") := by
  unfold nodeText
  rw [field_grow h (·.text)]
  simp only [Node.text, drafted]

end Graph

/-! ## The rule for names -/

/-- How a step comes by the name of its node. -/
structure Step.Naming (s : Step) (g : Graph) : Prop where
  /-- The empty name is none. -/
  blank : (s.renamed (some "")).action.runOn g = (s.renamed none).action.runOn g
  /-- Without a name, a step does not fail because of names. -/
  accepted : ∀ name graph, ((s.renamed none).action.runOn g).1 ≠ .error (.duplicateNodeName name graph)
  /-- Without a name, a node is called by its label and the first free number. Searching for it from one
      on gives the same as going on from the counter. -/
  automatic : ∀ id g', ¬ s.IsIdle → (s.renamed none).action.runOn g = (.ok id, g') →
    ∃ m, g.IsFirstFree s.op.label m ∧ m ≤ g.size + 1 ∧
      Seeks g.NameTaken s.op.label 1 m ∧
      Seeks (fun name => g.names.contains name = true) s.op.label
        (g.counters.getD s.op.label 0 + 1) m ∧
      g'.nodeName id = .ok (numbered s.op.label m) ∧
      g'.nodeText id = .ok ("节点[id=" ++ id.text ++ ", name=" ++ numbered s.op.label m ++ ", type="
        ++ s.op.label ++ "]")
  /-- What is wrong apart from the name is reported whatever the name is. -/
  earlier : s.TakesName → ∀ name e, ((s.renamed none).action.runOn g).1 = .error e →
    (s.renamed (some name)).action.runOn g = (.error e, g)
  /-- A name that is taken is refused. -/
  refused : s.TakesName → ∀ name id, name ≠ "" → ((s.renamed none).action.runOn g).1 = .ok id →
    g.NameTaken name → (s.renamed (some name)).action.runOn g = (.error (.duplicateNodeName name g.name), g)
  /-- A name that is free is given as it is. -/
  verbatim : s.TakesName → ∀ name id, name ≠ "" → ((s.renamed none).action.runOn g).1 = .ok id →
    ¬ g.NameTaken name →
      ∃ g', (s.renamed (some name)).action.runOn g = (.ok id, g') ∧ g'.nodeName id = .ok name

/-- A step without a name for its node either fails before a name is looked for, or adds the node under an
    automatic name, unless there is nothing to add. -/
theorem Step.runOn_renamed_none (s : Step) (g : Graph) :
    (∃ e, (s.renamed none).request g = .error e ∧ (s.renamed none).action.runOn g = (.error e, g)) ∨
    (∃ id, s.IsIdle ∧ (s.renamed none).action.runOn g = (.ok id, g)) ∨
    ∃ d, (s.renamed none).Adds g d ∧ (s.renamed none).action.runOn g =
      (.ok g.nextId, g.grow d (numbered d.op.label (g.freshNumber d.op.label))) := by
  cases hrequest : (s.renamed none).request g with
  | error e => exact .inl ⟨e, rfl, Graph.runOn_action_of_error hrequest⟩
  | ok r =>
      cases r with
      | existing id =>
          have hidle := (s.isIdle_renamed none).mp (isIdle_of_existing hrequest)
          exact .inr (.inl ⟨id, hidle, Graph.runOn_action_of_existing hrequest⟩)
      | add d =>
          have hadds := request_eq_add_iff.mp hrequest
          have hasked : d.asked.getD "" = "" := by rw [asked_of_renamed_none hadds]; rfl
          refine .inr (.inr ⟨d, hadds, ?_⟩)
          rw [Graph.runOn_action_of_add hrequest, Graph.nameFor_of_not_asked hasked]

theorem Graph.node_ne_duplicateNodeName (g : Graph) (id : NodeId) (name graph : String) :
    g.node id ≠ .error (.duplicateNodeName name graph) := by
  unfold Graph.node
  split <;> simp

theorem clampRequest_ne_duplicateNodeName (g : Graph) (input : NodeId) (min max : Binary32)
    (asked : Option String) (name graph : String) :
    clampRequest g input min max asked ≠ .error (.duplicateNodeName name graph) := by
  intro h
  unfold clampRequest at h
  split at h
  · next e he =>
      cases h
      exact g.node_ne_duplicateNodeName input name graph he
  · split at h <;> cases h

/-- Requests have nothing to do with names. -/
theorem Step.request_ne_duplicateNodeName (s : Step) (g : Graph) (name graph : String) :
    s.request g ≠ .error (.duplicateNodeName name graph) := by
  intro h
  cases s with
  | parameter shape asked => cases h
  | arith op lhs rhs asked =>
      simp only [request] at h
      split at h
      · next e he =>
          cases h
          exact g.node_ne_duplicateNodeName lhs name graph he
      · next e _ he =>
          cases h
          exact g.node_ne_duplicateNodeName rhs name graph he
      · split at h <;> cases h
  | clamp input min max asked => exact clampRequest_ne_duplicateNodeName g input min max asked name graph h
  | activation input function asked =>
      simp only [request] at h
      split at h
      · next e he =>
          cases h
          exact g.node_ne_duplicateNodeName input name graph he
      · cases h
  | clip input bound =>
      simp only [request] at h
      split at h
      · split at h
        · next e he =>
            cases h
            exact g.node_ne_duplicateNodeName input name graph he
        · cases h
      · exact clampRequest_ne_duplicateNodeName g input _ _ none name graph h

theorem Step.accepted_renamed_none (s : Step) (g : Graph) (name graph : String) :
    ((s.renamed none).action.runOn g).1 ≠ .error (.duplicateNodeName name graph) := by
  rcases s.runOn_renamed_none g with ⟨e, hrequest, hrun⟩ | ⟨id, -, hrun⟩ | ⟨d, -, hrun⟩
  · rw [hrun]
    intro h
    cases h
    exact (s.renamed none).request_ne_duplicateNodeName g name graph hrequest
  · rw [hrun]
    exact nofun
  · rw [hrun]
    exact nofun

/-- A step that can be given a name asks for the same node with it as without. -/
theorem Step.request_some_of_none {s : Step} (h : s.TakesName) (g : Graph) (name : String) :
    (s.renamed (some name)).request g = ((s.renamed none).request g).map (·.renamed (some name)) := by
  rw [request_renamed h, request_renamed h]
  cases s.request g with
  | error e => rfl
  | ok r => cases r <;> rfl

/-- A step that succeeds without a name adds a node, or a name makes no difference to it. -/
theorem Step.exists_draft {s : Step} (h : s.TakesName) {g : Graph} {id : NodeId}
    (hok : ((s.renamed none).action.runOn g).1 = .ok id) :
    id = g.nextId ∧ ∃ d, (s.renamed none).request g = .ok (.add d) := by
  rcases s.runOn_renamed_none g with ⟨e, -, hrun⟩ | ⟨id, hidle, -⟩ | ⟨d, hadds, hrun⟩
  · rw [hrun] at hok
    cases hok
  -- clips are the only idle steps, and they take no name
  · cases s with
    | clip input bound => exact h.elim
    | parameter _ _ => exact hidle.elim
    | arith _ _ _ _ => exact hidle.elim
    | clamp _ _ _ _ => exact hidle.elim
    | activation _ _ _ => exact hidle.elim
  · rw [hrun] at hok
    exact ⟨(Except.ok.inj hok).symm, d, request_eq_add_iff.mpr hadds⟩

/-- What a step does with a name, given that it succeeds without. -/
theorem Step.runOn_renamed_some {s : Step} (h : s.TakesName) {g : Graph} {id : NodeId} {name : String}
    (hne : name ≠ "") (hok : ((s.renamed none).action.runOn g).1 = .ok id) :
    ∃ d : Draft, (s.renamed (some name)).action.runOn g =
      if g.names.contains name then (.error (.duplicateNodeName name g.name), g)
      else (.ok id, g.grow d name) := by
  obtain ⟨rfl, d, hd⟩ := exists_draft h hok
  have hrequest : (s.renamed (some name)).request g = .ok (.add { d with asked := some name }) := by
    rw [request_some_of_none h, hd]
    rfl
  refine ⟨{ d with asked := some name }, ?_⟩
  rw [Graph.runOn_action_of_add hrequest, Graph.nameFor_of_asked _ _ rfl hne]
  by_cases htaken : g.names.contains name = true
  · rw [if_pos htaken, if_pos htaken]
  · rw [if_neg htaken, if_neg htaken]

namespace Graph

variable {g : Graph}

/-- Where names and ids are in order, every step follows the rule. -/
theorem Named.naming (h : g.Named) (hids : g.lastId = g.size) (s : Step) : s.Naming g where
  blank := by
    by_cases hs : s.TakesName
    · rw [runOn_action, runOn_action, Step.request_some_of_none hs]
      cases hrequest : (s.renamed none).request g with
      | error e => rfl
      | ok r =>
          cases r with
          | existing id => rfl
          | add d =>
              -- a draft that asks for the empty name is served like one that asks for none
              have hasked := Step.asked_of_renamed_none (Step.request_eq_add_iff.mp hrequest)
              simp only [Except.map, Request.renamed, hasked]
              rfl
    · cases s with
      | clip input bound => rfl
      | parameter _ _ => exact absurd trivial hs
      | arith _ _ _ _ => exact absurd trivial hs
      | clamp _ _ _ _ => exact absurd trivial hs
      | activation _ _ _ => exact absurd trivial hs
  accepted := s.accepted_renamed_none g
  automatic := by
    intro id g' hbusy hrun
    rcases s.runOn_renamed_none g with ⟨e, -, hrun'⟩ | ⟨_, hidle, -⟩ | ⟨d, hadds, hrun'⟩
    · rw [hrun'] at hrun
      cases hrun
    · exact absurd hidle hbusy
    · rw [hrun'] at hrun
      cases hrun
      have hop : d.op = s.op := by rw [hadds.draft_eq.1, s.op_renamed]
      have hfirst := h.isFirstFree_freshNumber s.op.label
      rw [hop]
      exact ⟨g.freshNumber s.op.label, hfirst, h.le_of_isFirstFree hfirst,
        hfirst.seeks (Nat.le_refl 1) hfirst.pos, h.seeks_freshNumber _, nodeName_grow hids d _,
        hop ▸ nodeText_grow hids d _⟩
  earlier := by
    intro hs name e he
    rcases s.runOn_renamed_none g with ⟨e', hrequest, hrun⟩ | ⟨_, -, hrun⟩ | ⟨d, -, hrun⟩
    · rw [hrun] at he
      cases he
      refine runOn_action_of_error ?_
      rw [Step.request_some_of_none hs, hrequest]
      rfl
    · rw [hrun] at he
      cases he
    · rw [hrun] at he
      cases he
  refused := by
    intro hs name id hne hok htaken
    obtain ⟨d, hrun⟩ := Step.runOn_renamed_some hs hne hok
    rw [hrun, if_pos ((h.contains_iff name).mpr htaken)]
  verbatim := by
    intro hs name id hne hok hfree
    obtain ⟨d, hrun⟩ := Step.runOn_renamed_some hs hne hok
    refine ⟨g.grow d name, ?_, ?_⟩
    · rw [hrun, if_neg (fun htaken => hfree ((h.contains_iff name).mp htaken))]
    · rw [(Step.exists_draft hs hok).1]
      exact nodeName_grow hids d name

/-- **Names, over whole runs.** After any script, failing steps included, all nodes have names, no two the
    same, the index of names holds these and no others, and whatever is added next is named by the rule. -/
theorem naming_run (name : String) (steps : List Step) (s : Step) :
    (Script.run steps (empty name)).2.Named ∧ s.Naming (Script.run steps (empty name)).2 := by
  have hreachable : (Script.run steps (empty name)).2.Reachable := ⟨name, steps, rfl⟩
  exact ⟨hreachable.named, hreachable.named.naming hreachable.wellFormed.counted s⟩

/-- An automatic name goes round the names that were asked for. -/
example : (Script.run [.parameter .unranked (some "parameter_2"), .parameter .unranked none,
    .parameter .unranked none] (empty "gate")).2.nodes.map (·.name) =
      #["parameter_2", "parameter_1", "parameter_3"] := by
  decide +kernel

end Graph

end GateGraph
