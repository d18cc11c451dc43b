import GateGraph.Proofs.Cell.Inputs
import GateGraph.Proofs.Decimal.Numeral
import GateGraph.Proofs.Graph.Outcome
import GateGraph.Proofs.Text.Splitting

/-!
# `GateGraph.Proofs.Shape.Text` — a shape is known by its text

Shapes are shown to people, and errors quote them in the middle of sentences. Nothing is escaped there and
nothing has to be. A dimension is shown by digits or by a question mark, so it ends where a comma or a bracket
stands, and no dimension begins with a point as the text of an open rank does. The words in front of a quoted
shape end with a character beyond ASCII, which no shape has. So the sentence falls into its parts in one way
only, even where it begins with the text of a node, which may be anything.

## Contents
- `Shape.charsAfter`, the text of a shape from the end of a dimension on; `Shape.text_injective`.
- `Shape.isAscii_of_mem_chars` and `Shape.quoted_inj`: shapes at the end of a sentence.
- `Error.Quotes`, the errors that quote two shapes, and `Error.message_inj`.
- `Shape.text_identifies`.
-/

namespace GateGraph

/-! ## Dimensions -/

/-- The characters of dimensions. -/
def Dim.IsChar (c : Char) : Prop := c.isDigit = true ∨ c = '?'

theorem Dim.isChar_of_mem_chars {d : Dim} {c : Char} (h : c ∈ d.chars) : IsChar c := by
  cases d with
  | none => exact .inr (List.mem_singleton.mp h)
  | some n => exact .inl (Decimal.isDigit_of_mem_digits h)

theorem Dim.IsChar.isAscii {c : Char} (h : IsChar c) : c.toNat < 128 := by
  rcases h with hdigit | rfl
  · simp only [Char.isDigit, Bool.and_eq_true, decide_eq_true_eq] at hdigit
    have hmost : c.toNat ≤ '9'.toNat := hdigit.2
    exact Nat.lt_of_le_of_lt hmost (by decide)
  · decide

theorem Dim.chars_ne_nil (d : Dim) : d.chars ≠ [] := by
  cases d with
  | none => exact List.cons_ne_nil _ _
  | some n => exact Decimal.digits_ne_nil n.toNat

theorem Dim.chars_injective {d e : Dim} (h : d.chars = e.chars) : d = e := by
  have hmark (n : UInt64) : Dim.chars none ≠ Dim.chars (some n) := by
    intro heq
    have hdigits : Decimal.digits n.toNat = ['?'] := heq.symm
    have hmem : '?' ∈ Decimal.digits n.toNat := by
      rw [hdigits]
      exact List.mem_singleton_self '?'
    exact absurd (Decimal.isDigit_of_mem_digits hmem) (by decide)
  cases d with
  | none =>
      cases e with
      | none => rfl
      | some n => exact absurd h (hmark n)
  | some m =>
      cases e with
      | none => exact absurd h.symm (hmark m)
      | some n => exact congrArg some (UInt64.toNat_inj.mp (Decimal.digits_injective h))

/-! ## Shapes -/

namespace Shape

/-- What is shown of a shape behind one of its dimensions: the dimensions that follow, and the bracket. -/
def charsAfter : List Dim → List Char
  | [] => [']']
  | d :: ds => ',' :: ' ' :: (d.chars ++ charsAfter ds)

theorem chars_ranked_cons (d : Dim) (ds : List Dim) :
    (ranked (d :: ds)).chars = '[' :: (d.chars ++ charsAfter ds) := by
  have hjoin : List.intercalate ", ".toList ((d :: ds).map Dim.chars) ++ [']'] = d.chars ++ charsAfter ds := by
    induction ds generalizing d with
    | nil => rw [List.map_singleton, List.intercalate_singleton, charsAfter]
    | cons e ds ih =>
        rw [List.map_cons, List.map_cons, List.intercalate_cons_cons, ← List.map_cons, List.append_assoc, ih e,
          List.append_assoc]
        rfl
  exact congrArg ('[' :: ·) hjoin

/-- A dimension has come to its end where the others follow. -/
theorem exists_charsAfter_eq_cons (ds : List Dim) :
    ∃ mark after, charsAfter ds = mark :: after ∧ ¬ Dim.IsChar mark := by
  have hends : ¬ Dim.IsChar ',' ∧ ¬ Dim.IsChar ']' := by
    unfold Dim.IsChar
    decide
  cases ds with
  | nil => exact ⟨']', [], rfl, hends.2⟩
  | cons d ds => exact ⟨',', _, rfl, hends.1⟩

/-- The dimensions of a shape can be told from the text, one by one. -/
theorem append_charsAfter_inj {d e : Dim} {ds es : List Dim}
    (h : d.chars ++ charsAfter ds = e.chars ++ charsAfter es) : d = e ∧ charsAfter ds = charsAfter es := by
  obtain ⟨mark, after, hds, hmark⟩ := exists_charsAfter_eq_cons ds
  obtain ⟨mark', after', hes, hmark'⟩ := exists_charsAfter_eq_cons es
  rw [hds, hes] at h
  obtain ⟨hchars, rfl, rfl⟩ :=
    Text.split_first (fun _ => Dim.isChar_of_mem_chars) (fun _ => Dim.isChar_of_mem_chars) hmark hmark' h
  exact ⟨Dim.chars_injective hchars, hds.trans hes.symm⟩

theorem charsAfter_injective {ds es : List Dim} (h : charsAfter ds = charsAfter es) : ds = es := by
  induction ds generalizing es with
  | nil =>
      cases es with
      | nil => rfl
      | cons e es => exact absurd (List.cons.inj h).1 (by decide)
  | cons d ds ih =>
      cases es with
      | nil => exact absurd (List.cons.inj h).1 (by decide)
      | cons e es =>
          -- the comma and the blank are the same
          obtain ⟨rfl, hrest⟩ := append_charsAfter_inj (List.cons.inj (List.cons.inj h).2).2
          rw [ih hrest]

/-- A text that goes on with a mark behind the bracket is that of no shape with dimensions. -/
theorem cons_mark_ne_chars {mark : Char} (after : List Char) (hmark : ¬ Dim.IsChar mark) (d : Dim)
    (ds : List Dim) : '[' :: mark :: after ≠ (ranked (d :: ds)).chars := by
  intro h
  rw [chars_ranked_cons] at h
  obtain ⟨mark', after', hds, hmark'⟩ := exists_charsAfter_eq_cons ds
  rw [hds] at h
  have hnothing : ∀ c ∈ ([] : List Char), Dim.IsChar c := List.forall_mem_nil _
  have hsplit : [] ++ mark :: after = d.chars ++ mark' :: after' := (List.cons.inj h).2
  have hd := Text.split_first hnothing (fun _ => Dim.isChar_of_mem_chars) hmark hmark' hsplit
  exact d.chars_ne_nil hd.1.symm

theorem chars_injective {a b : Shape} (h : a.chars = b.chars) : a = b := by
  have hpoint : ¬ Dim.IsChar '.' := by
    unfold Dim.IsChar
    decide
  have hbracket : ¬ Dim.IsChar ']' := by
    unfold Dim.IsChar
    decide
  have hempty : unranked.chars ≠ (ranked []).chars := by decide
  match a, b with
  | unranked, unranked => rfl
  | unranked, ranked [] => exact absurd h hempty
  | unranked, ranked (d :: ds) => exact absurd h (cons_mark_ne_chars _ hpoint d ds)
  | ranked [], unranked => exact absurd h.symm hempty
  | ranked [], ranked [] => rfl
  | ranked [], ranked (d :: ds) => exact absurd h (cons_mark_ne_chars _ hbracket d ds)
  | ranked (d :: ds), unranked => exact absurd h.symm (cons_mark_ne_chars _ hpoint d ds)
  | ranked (d :: ds), ranked [] => exact absurd h.symm (cons_mark_ne_chars _ hbracket d ds)
  | ranked (d :: ds), ranked (e :: es) =>
      rw [chars_ranked_cons, chars_ranked_cons] at h
      obtain ⟨rfl, hrest⟩ := append_charsAfter_inj (List.cons.inj h).2
      rw [charsAfter_injective hrest]

/-- **No two shapes are shown alike.** -/
theorem text_injective {a b : Shape} (h : a.text = b.text) : a = b :=
  chars_injective (String.ofList_inj.mp h)

/-! ## Quoted shapes -/

theorem isAscii_of_mem_charsAfter {ds : List Dim} {c : Char} (h : c ∈ charsAfter ds) : c.toNat < 128 := by
  induction ds with
  | nil =>
      obtain rfl := List.mem_singleton.mp h
      decide
  | cons d ds ih =>
      simp only [charsAfter, List.mem_cons, List.mem_append] at h
      rcases h with rfl | rfl | hhead | htail
      · decide
      · decide
      · exact (Dim.isChar_of_mem_chars hhead).isAscii
      · exact ih htail

/-- The text of a shape is ASCII. -/
theorem isAscii_of_mem_chars {s : Shape} {c : Char} (h : c ∈ s.chars) : c.toNat < 128 := by
  have hshort : ∀ s ∈ [unranked, ranked []], s.chars.all (·.toNat < 128) = true := by decide
  match s with
  | unranked => exact of_decide_eq_true (List.all_eq_true.mp (hshort unranked (by decide)) c h)
  | ranked [] => exact of_decide_eq_true (List.all_eq_true.mp (hshort (ranked []) (by decide)) c h)
  | ranked (d :: ds) =>
      rw [chars_ranked_cons, List.mem_cons, List.mem_append] at h
      rcases h with rfl | hhead | htail
      · decide
      · exact (Dim.isChar_of_mem_chars hhead).isAscii
      · exact isAscii_of_mem_charsAfter htail

/-- **A shape at the end of a sentence**, behind a character that is not ASCII. -/
theorem quoted_inj {before before' : List Char} {mark mark' : Char} {s s' : Shape} (hmark : 128 ≤ mark.toNat)
    (hmark' : 128 ≤ mark'.toNat) (h : before ++ mark :: s.chars = before' ++ mark' :: s'.chars) :
    before = before' ∧ mark = mark' ∧ s = s' := by
  obtain ⟨hbefore, hsame, hchars⟩ :=
    Text.split_last (fun _ => isAscii_of_mem_chars) (fun _ => isAscii_of_mem_chars)
      (Nat.not_lt_of_le hmark) (Nat.not_lt_of_le hmark') h
  exact ⟨hbefore, hsame, chars_injective hchars⟩

end Shape

/-! ## Errors -/

theorem Arith.title_injective {a b : Arith} (h : a.title = b.title) : a = b := by
  cases a <;> cases b <;> first | rfl | exact absurd h (by decide)

namespace Error

/-- The errors that quote two shapes: those of the operands of an elementwise operation, and those of the
    inputs `X` and `W` of a cell. -/
inductive Quotes : Error → Shape → Shape → Prop
  | shapeMismatch (op : Arith) (expected got : Shape) :
      Quotes (.shapeMismatch op expected got) expected got
  | inputSizeMismatch (node : String) (x w : Shape) :
      Quotes (.nodeValidation node (.inputSizeMismatch x w)) x w

/-- A sentence that quotes two shapes, each behind the same character. -/
def quoting (before between : String) (mark : Char) (s t : Shape) : String :=
  before ++ String.singleton mark ++ s.text ++ between ++ String.singleton mark ++ t.text

theorem toList_quoting (before between : String) (mark : Char) (s t : Shape) :
    (quoting before between mark s t).toList =
      (before.toList ++ mark :: s.chars ++ between.toList) ++ mark :: t.chars := by
  simp only [quoting, Shape.text, String.toList_append, String.toList_singleton, String.toList_ofList,
    List.append_assoc, List.cons_append, List.nil_append]

/-- The last of the two shapes, and the character in front of it. -/
theorem quoting_eq_quoting {before before' between between' : String} {mark mark' : Char} {s t s' t' : Shape}
    (hmark : 128 ≤ mark.toNat) (hmark' : 128 ≤ mark'.toNat)
    (h : quoting before between mark s t = quoting before' between' mark' s' t') :
    before.toList ++ mark :: s.chars ++ between.toList =
        before'.toList ++ mark' :: s'.chars ++ between'.toList ∧
      mark = mark' ∧ t = t' := by
  have hchars := congrArg String.toList h
  rw [toList_quoting, toList_quoting] at hchars
  exact Shape.quoted_inj hmark hmark' hchars

theorem quoting_inj {before before' between : String} {mark : Char} {s t s' t' : Shape}
    (hmark : 128 ≤ mark.toNat) (h : quoting before between mark s t = quoting before' between mark s' t') :
    before = before' ∧ s = s' ∧ t = t' := by
  obtain ⟨hfirst, -, ht⟩ := quoting_eq_quoting hmark hmark h
  obtain ⟨hbefore, -, hs⟩ := Shape.quoted_inj hmark hmark (List.append_cancel_right hfirst)
  exact ⟨String.toList_inj.mp hbefore, hs, ht⟩

theorem message_shapeMismatch (op : Arith) (expected got : Shape) :
    (Error.shapeMismatch op expected got).message =
      quoting (op.title ++ " 节点的父节点形状无法广播：期望形") "，实际形" '状' expected got := by
  have hlead : " 节点的父节点形状无法广播：期望形状" = " 节点的父节点形状无法广播：期望形" ++ String.singleton '状' :=
    rfl
  have hbetween : "，实际形状" = "，实际形" ++ String.singleton '状' := rfl
  unfold message quoting
  rw [hlead, hbetween]
  simp only [String.append_assoc]

theorem message_inputSizeMismatch (node : String) (x w : Shape) :
    (Error.nodeValidation node (.inputSizeMismatch x w)).message =
      quoting (node ++ ("校验失败：" ++ "RNNCellBase mismatched input_size dimension：X")) "，W" '为' x w := by
  have hlead : "RNNCellBase mismatched input_size dimension：X为" =
      "RNNCellBase mismatched input_size dimension：X" ++ String.singleton '为' := rfl
  have hbetween : "，W为" = "，W" ++ String.singleton '为' := rfl
  show node ++ "校验失败：" ++ (InputFault.inputSizeMismatch x w).message = _
  unfold InputFault.message quoting
  rw [hlead, hbetween]
  simp only [String.append_assoc]

/-- A shape mismatch and a mismatch of input sizes are never told in the same words. -/
theorem message_shapeMismatch_ne (op : Arith) (expected got : Shape) (node : String) (x w : Shape) :
    (Error.shapeMismatch op expected got).message ≠
      (Error.nodeValidation node (.inputSizeMismatch x w)).message := by
  intro h
  rw [message_shapeMismatch, message_inputSizeMismatch] at h
  obtain ⟨-, hmark, -⟩ := quoting_eq_quoting (by decide) (by decide) h
  exact absurd hmark (by decide)

/-- **The message of an error that quotes two shapes says which error it is.** -/
theorem message_inj {e e' : Error} {s t s' t' : Shape} (hs : e.Quotes s t) (hs' : e'.Quotes s' t')
    (h : e.message = e'.message) : e = e' := by
  cases hs with
  | shapeMismatch op =>
      cases hs' with
      | shapeMismatch op' =>
          rw [message_shapeMismatch, message_shapeMismatch] at h
          obtain ⟨hlead, rfl, rfl⟩ := quoting_inj (by decide) h
          rw [Arith.title_injective ((String.append_left_inj _).mp hlead)]
      | inputSizeMismatch node' => exact absurd h (message_shapeMismatch_ne op s t node' s' t')
  | inputSizeMismatch node =>
      cases hs' with
      | shapeMismatch op' => exact absurd h.symm (message_shapeMismatch_ne op' s' t' node s t)
      | inputSizeMismatch node' =>
          rw [message_inputSizeMismatch, message_inputSizeMismatch] at h
          obtain ⟨hlead, rfl, rfl⟩ := quoting_inj (by decide) h
          rw [(String.append_left_inj _).mp hlead]

end Error

/-- The shapes that a refused elementwise operation quotes are those of its operands. -/
theorem Graph.Named.nodeShape_of_quotes {g : Graph} (h : g.Named) {op : Arith} {lhs rhs : NodeId}
    {name : Option String} {e : Error} {s t : Shape} (hrun : ((addArith op lhs rhs name).runOn g).1 = .error e)
    (hquotes : e.Quotes s t) : g.nodeShape lhs = .ok s ∧ g.nodeShape rhs = .ok t := by
  have haction : ((Step.arith op lhs rhs name).action.runOn g).1 = .error e := hrun
  obtain ⟨before, hurdle, after, heq, -, he⟩ := (h.error_iff_stop _ e).mp haction
  have hmem : hurdle ∈ (Step.arith op lhs rhs name).hurdles g := heq ▸ List.mem_append_cons_self
  simp only [Step.hurdles, Step.checks, List.cons_append, List.nil_append, List.mem_cons, List.not_mem_nil,
    or_false] at hmem
  rcases hmem with rfl | rfl | rfl | rfl
  · obtain ⟨-, rfl⟩ := he
    cases hquotes
  · obtain ⟨-, rfl⟩ := he
    cases hquotes
  · obtain ⟨a, b, ha, hb, -, rfl⟩ := he
    cases hquotes
    exact ⟨ha, hb⟩
  · obtain ⟨_, -, -, -, rfl⟩ := he
    cases hquotes

/-- The shapes that are quoted of refused inputs are those of `X` and `W`. -/
theorem Cell.getElem?_of_quotes {node : String} {inputs : List Shape} {e : Error} {s t : Shape}
    (h : checkInputs node inputs = .error e) (hquotes : e.Quotes s t) :
    inputs[0]? = some s ∧ inputs[2]? = some t := by
  obtain ⟨before, hurdle, after, heq, -, he⟩ := (stop_inputHurdles_iff e).mpr h
  have hmem : hurdle ∈ inputHurdles node inputs := heq ▸ List.mem_append_cons_self
  simp only [inputHurdles, List.mem_cons, List.not_mem_nil, or_false] at hmem
  rcases hmem with rfl | rfl | rfl | rfl
  · obtain ⟨_, _, -, rfl⟩ := he
    cases hquotes
  · obtain ⟨position, _, _, -, -, rfl⟩ := he
    unfold rankFault at hquotes
    split at hquotes <;> cases hquotes
  · obtain ⟨-, rfl⟩ := he
    cases hquotes
  · obtain ⟨_, _, _, _, hx, hw, -, -, -, rfl⟩ := he
    cases hquotes
    exact ⟨hx, hw⟩

/-! ## Texts and messages -/

/-- **A shape is known by its text**, whatever its rank and its dimensions are. So is an error that quotes two
    shapes by its message, even where the message begins with the text of a node, which may be anything. The
    shapes are those of the operands, for an elementwise operation that is refused, and those of `X` and `W`
    for inputs that are refused. -/
theorem Shape.text_identifies :
    (∀ a b : Shape, a.text = b.text ↔ a = b) ∧
    (∀ (e e' : Error) (s t s' t' : Shape), e.Quotes s t → e'.Quotes s' t' →
      (e.message = e'.message ↔ e = e') ∧ (e.message = e'.message → s = s' ∧ t = t')) ∧
    (∀ (g : Graph) (op : Arith) (lhs rhs : NodeId) (name : Option String) (e : Error) (s t : Shape),
      g.Reachable → ((addArith op lhs rhs name).runOn g).1 = .error e → e.Quotes s t →
        g.nodeShape lhs = .ok s ∧ g.nodeShape rhs = .ok t) ∧
    (∀ (node : String) (inputs : List Shape) (e : Error) (s t : Shape),
      Cell.checkInputs node inputs = .error e → e.Quotes s t →
        inputs[0]? = some s ∧ inputs[2]? = some t) := by
  refine ⟨fun a b => ⟨text_injective, congrArg text⟩, ?_, ?_, ?_⟩
  · intro e e' s t s' t' hs hs'
    refine ⟨⟨Error.message_inj hs hs', congrArg Error.message⟩, fun h => ?_⟩
    obtain rfl := Error.message_inj hs hs' h
    cases hs <;> cases hs' <;> exact ⟨rfl, rfl⟩
  · intro g op lhs rhs name e s t hg hrun hquotes
    exact hg.named.nodeShape_of_quotes hrun hquotes
  · intro node inputs e s t hcheck hquotes
    exact Cell.getElem?_of_quotes hcheck hquotes

/-- Shapes that differ in a comma only, `[12]` and `[1, 2]`: the message says which of them is on the left. A
    node whose text is that very message is not mistaken for it. -/
theorem Shape.text_identifies_comma :
    ∃ (g : Graph) (e e' : Error) (inputs : List Shape), g.Reachable ∧
      ((addArith .add ⟨1⟩ ⟨2⟩ none).runOn g).1 = .error e ∧ e.Quotes (.fixed [12]) (.fixed [1, 2]) ∧
      g.nodeShape ⟨1⟩ = .ok (.fixed [12]) ∧ g.nodeShape ⟨2⟩ = .ok (.fixed [1, 2]) ∧
      Cell.checkInputs e.message inputs = .error e' ∧ e'.Quotes (.fixed [12, 1]) (.fixed [1, 2]) ∧
      inputs[0]? = some (.fixed [12, 1]) ∧ inputs[2]? = some (.fixed [1, 2]) ∧
      e.message ≠ e'.message ∧
      e.message ≠ (Error.shapeMismatch .add (.fixed [1, 2]) (.fixed [12])).message := by
  let steps : List Step := [.parameter (.fixed [12]) none, .parameter (.fixed [1, 2]) none]
  let g : Graph := (Script.run steps (Graph.empty "gate")).2
  let e : Error := .shapeMismatch .add (.fixed [12]) (.fixed [1, 2])
  let inputs : List Shape := [.fixed [12, 1], .fixed [12, 4], .fixed [1, 2]]
  let e' : Error := .nodeValidation e.message (.inputSizeMismatch (.fixed [12, 1]) (.fixed [1, 2]))
  have hg : g.Reachable := ⟨"gate", steps, rfl⟩
  have hrun : ((addArith .add ⟨1⟩ ⟨2⟩ none).runOn g).1 = .error e := by decide +kernel
  have hcheck : Cell.checkInputs e.message inputs = .error e' := rfl
  have hquotes : e.Quotes (.fixed [12]) (.fixed [1, 2]) := .shapeMismatch _ _ _
  have hquotes' : e'.Quotes (.fixed [12, 1]) (.fixed [1, 2]) := .inputSizeMismatch _ _ _
  obtain ⟨-, hmessages, hoperands, hinputs⟩ := text_identifies
  obtain ⟨hlhs, hrhs⟩ := hoperands g .add ⟨1⟩ ⟨2⟩ none e _ _ hg hrun hquotes
  obtain ⟨hx, hw⟩ := hinputs e.message inputs e' _ _ hcheck hquotes'
  refine ⟨g, e, e', inputs, hg, hrun, hquotes, hlhs, hrhs, hcheck, hquotes', hx, hw, fun hsame => ?_,
    fun hsame => ?_⟩
  · exact Error.noConfusion ((hmessages e e' _ _ _ _ hquotes hquotes').1.mp hsame)
  · have heq := ((hmessages e _ _ _ _ _ hquotes (.shapeMismatch _ _ _)).2 hsame).1
    exact absurd heq (by decide)

end GateGraph
