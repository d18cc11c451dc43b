import GateGraph.Json.Tree
import GateGraph.Proofs.Decimal.Numeral

/-!
# `GateGraph.Proofs.Json.Tree` — a written tree is read back

Writing goes from a tree to tokens to characters, with blanks between some of the tokens; reading goes the same
way back. The text is read back whatever the layout, provided that numerals and strings are such as the
writer makes them: numerals of the grammar, and strings without lone halves of surrogate pairs.

## Contents
- `Token.Legible` and `Token.scan?_chars`: one token at the front of a text.
- `Token.Spells`, which characters are which tokens; `Tree.Legible` and `Tree.spells_chars`: a text falls into
  the tokens of its tree.
- `Tree.scan?_tokens_all`: the tokens of a tree give the tree, with two steps for each token.
- `Tree.ofString?_render`: both together.
-/

namespace GateGraph.Json

open Numeral (Ends)

/-! ## Tokens -/

namespace Token

/-- A token that is read back from its spelling. -/
def Legible : Token → Prop
  | number n => n.WellFormed
  | string ps => ∃ cs : List Char, ps = cs.map .char
  | _ => True

/-- What may follow a token: behind a numeral, nothing that prolongs it. -/
def Stops : Token → List Char → Prop
  | number _, rest => Ends rest
  | _, _ => True

/-- What begins like a numeral is nothing else. -/
theorem scan?_of_numeral {c : Char} (cs : List Char) (h : c = '-' ∨ c.isDigit = true) :
    scan? (c :: cs) = (Numeral.scan? (c :: cs)).map fun (n, rest) => (number n, rest) := by
  have hne : c ≠ '[' ∧ c ≠ ']' ∧ c ≠ '{' ∧ c ≠ '}' ∧ c ≠ ',' ∧ c ≠ ':' ∧ c ≠ 'n' ∧ c ≠ 't' ∧ c ≠ 'f' ∧
      c ≠ '"' := by
    refine ⟨?_, ?_, ?_, ?_, ?_, ?_, ?_, ?_, ?_, ?_⟩ <;> rintro rfl <;> revert h <;> decide
  unfold scan?
  split <;> simp_all

/-- **A token is read back**, whatever follows that is no part of it. -/
theorem scan?_chars {t : Token} {rest : List Char} (ht : t.Legible) (hrest : t.Stops rest) :
    scan? (t.chars ++ rest) = some (t, rest) := by
  cases t with
  | number n =>
      obtain ⟨c, cs, hchars, hfirst⟩ := Numeral.WellFormed.chars_eq_cons ht
      have hscan := Numeral.scan?_chars ht hrest
      simp only [chars]
      rw [hchars, List.cons_append] at hscan ⊢
      rw [scan?_of_numeral _ hfirst, hscan]
      rfl
  | string ps =>
      obtain ⟨cs, rfl⟩ := ht
      simp [chars, scan?, Quoted.scan?_encode]
  | bool b => cases b <;> simp [chars, scan?]
  | openArray | closeArray | openObject | closeObject | comma | colon | null => simp [chars, scan?]

/-- No token begins with a blank. -/
theorem exists_chars_eq_cons {t : Token} (ht : t.Legible) :
    ∃ c cs, t.chars = c :: cs ∧ isBlank c = false := by
  cases t with
  | number n =>
      obtain ⟨c, cs, hchars, hfirst⟩ := Numeral.WellFormed.chars_eq_cons ht
      refine ⟨c, cs, hchars, Bool.eq_false_iff.mpr fun hblank => ?_⟩
      simp only [isBlank, Bool.or_eq_true, beq_iff_eq] at hblank
      rcases hblank with ((rfl | rfl) | rfl) | rfl <;> revert hfirst <;> decide
  | bool b => cases b <;> exact ⟨_, _, rfl, rfl⟩
  | openArray | closeArray | openObject | closeObject | comma | colon | null | string =>
      exact ⟨_, _, rfl, rfl⟩

/-- The tokens of a text, one token after another. -/
theorem ofChars?_eq (cs : List Char) :
    ofChars? cs = if cs.dropWhile isBlank = [] then some []
      else (scan? (cs.dropWhile isBlank)).bind fun (t, rest) => (ofChars? rest).map (t :: ·) := by
  rw [ofChars?]
  simp only
  split
  · rfl
  · split
    · next hnone => rw [hnone, Option.bind_none]
    · next hsome => rw [hsome, Option.bind_some]

/-- These characters are these tokens, in front of this text. -/
def Spells (cs : List Char) (ts : List Token) (rest : List Char) : Prop :=
  ofChars? (cs ++ rest) = (ofChars? rest).map (ts ++ ·)

theorem Spells.append {cs cs' rest : List Char} {ts ts' : List Token} (h : Spells cs ts (cs' ++ rest))
    (h' : Spells cs' ts' rest) : Spells (cs ++ cs') (ts ++ ts') rest := by
  unfold Spells at *
  rw [List.append_assoc, h, h']
  simp [Function.comp_def]

theorem spells_chars {t : Token} {rest : List Char} (ht : t.Legible) (hrest : t.Stops rest) :
    Spells t.chars [t] rest := by
  obtain ⟨c, cs, hchars, hblank⟩ := exists_chars_eq_cons ht
  have htext : (t.chars ++ rest).dropWhile isBlank = t.chars ++ rest := by
    rw [hchars, List.cons_append, List.dropWhile_cons_of_neg (by simp [hblank])]
  have hne : t.chars ++ rest ≠ [] := by
    rw [hchars]
    exact List.cons_ne_nil _ _
  unfold Spells
  rw [ofChars?_eq, htext, if_neg hne, scan?_chars ht hrest, Option.bind_some]
  rfl

/-- Blanks are no tokens. -/
theorem spells_blanks {bs : List Char} (hbs : ∀ c ∈ bs, isBlank c = true) (rest : List Char) :
    Spells bs [] rest := by
  have hskip : ofChars? (bs ++ rest) = ofChars? rest := by
    rw [ofChars?_eq, List.dropWhile_append_of_pos hbs, ← ofChars?_eq]
  unfold Spells
  simp only [hskip, List.nil_append, Option.map_id']

end Token

/-! ## Blanks between tokens -/

/-- A layout that puts nothing but blanks between tokens. -/
structure Layout.Blank (l : Layout) : Prop where
  newline : ∀ depth, ∀ c ∈ l.newline depth, isBlank c = true
  beforeValue : ∀ c ∈ l.beforeValue, isBlank c = true

theorem Layout.blank_pretty : Layout.pretty.Blank where
  newline _ c hc := by
    rcases List.mem_cons.mp hc with rfl | hspace
    · rfl
    · rw [List.eq_of_mem_replicate hspace]
      rfl
  beforeValue c hc := by
    rw [List.mem_singleton.mp hc]
    rfl

theorem Layout.blank_compact : Layout.compact.Blank where
  newline _ _ hc := absurd hc List.not_mem_nil
  beforeValue _ hc := absurd hc List.not_mem_nil

/-- A numeral ends before a character that is no part of it. -/
theorem ends_cons {c : Char} {cs : List Char} (h : c.isDigit = false ∧ c ≠ '.' ∧ c ≠ 'e' ∧ c ≠ 'E') :
    Ends (c :: cs) := by
  intro d hd
  obtain rfl : c = d := by simpa using hd
  exact h

/-- Blanks do not prolong a numeral. -/
theorem ends_blanks {bs rest : List Char} (hbs : ∀ c ∈ bs, isBlank c = true) (hrest : Ends rest) :
    Ends (bs ++ rest) := by
  cases bs with
  | nil => exact hrest
  | cons b bs =>
      have hb := hbs b List.mem_cons_self
      simp only [isBlank, Bool.or_eq_true, beq_iff_eq] at hb
      refine ends_cons ?_
      rcases hb with ((rfl | rfl) | rfl) | rfl <;> decide

namespace Tree

/-! ## From characters to tokens -/

/-- A tree whose tokens are all read back. -/
def Legible (t : Tree) : Prop := ∀ token ∈ t.tokens, token.Legible

variable {l : Layout}

/-- What stands behind an item. -/
theorem ends_itemChars (hl : l.Blank) (depth : Nat) (ts : List Tree) (rest : List Char) :
    Ends (itemChars l depth ts ++ rest) := by
  cases ts with
  | nil =>
      simp only [itemChars, List.append_assoc, List.singleton_append]
      exact ends_blanks (hl.newline depth) (ends_cons (by decide))
  | cons t ts => exact ends_cons (by decide)

/-- What stands behind a field. -/
theorem ends_fieldChars (hl : l.Blank) (depth : Nat) (fs : List (List Quoted.Piece × Tree))
    (rest : List Char) : Ends (fieldChars l depth fs ++ rest) := by
  cases fs with
  | nil =>
      simp only [fieldChars, List.append_assoc, List.singleton_append]
      exact ends_blanks (hl.newline depth) (ends_cons (by decide))
  | cons f fs => exact ends_cons (by decide)

/-- The key of a field, up to its value. -/
theorem spells_key (hl : l.Blank) {k : List Quoted.Piece} (hk : (Token.string k).Legible) (rest : List Char) :
    Token.Spells ((Token.string k).chars ++ ':' :: l.beforeValue) [.string k, .colon] rest :=
  (Token.spells_chars hk trivial).append
    ((Token.spells_chars (t := .colon) trivial trivial).append (Token.spells_blanks hl.beforeValue rest))

/-- A closing bracket or brace on a line of its own. -/
theorem spells_close (hl : l.Blank) (depth : Nat) {t : Token} (ht : t.Legible) {rest : List Char}
    (hrest : t.Stops rest) : Token.Spells (l.newline depth ++ t.chars) [t] rest :=
  (Token.spells_blanks (hl.newline depth) _).append (Token.spells_chars ht hrest)

mutual

/-- **The text of a tree falls into the tokens of the tree.** -/
theorem spells_chars (hl : l.Blank) : ∀ (t : Tree) (depth : Nat) (rest : List Char), t.Legible → Ends rest →
    Token.Spells (t.chars l depth) t.tokens rest
  | .null, _, _, _, _ => Token.spells_chars (t := .null) trivial trivial
  | .bool b, _, _, _, _ => Token.spells_chars (t := .bool b) trivial trivial
  | .number n, _, _, ht, hrest => Token.spells_chars (t := .number n) (ht _ List.mem_cons_self) hrest
  | .string ps, _, _, ht, _ => Token.spells_chars (t := .string ps) (ht _ List.mem_cons_self) trivial
  | .array [], _, _, _, _ =>
      (Token.spells_chars (t := .openArray) trivial trivial).append
        (Token.spells_chars (t := .closeArray) trivial trivial)
  | .array (t :: ts), depth, rest, hts, _ => by
      have ht := spells_chars hl t (depth + 1) (itemChars l depth ts ++ rest)
        (fun token h => hts token (by simp [tokens, h])) (ends_itemChars hl depth ts rest)
      have hrec := spells_itemChars hl ts depth rest (fun token h => hts token (by simp [tokens, h]))
      simpa [chars, tokens, Token.chars] using (Token.spells_chars (t := .openArray) trivial trivial).append
        ((Token.spells_blanks (hl.newline (depth + 1)) _).append (ht.append hrec))
  | .object [], _, _, _, _ =>
      (Token.spells_chars (t := .openObject) trivial trivial).append
        (Token.spells_chars (t := .closeObject) trivial trivial)
  | .object ((k, t) :: fs), depth, rest, hfs, _ => by
      have hkey := spells_key hl (k := k) (hfs _ (by simp [tokens]))
      have ht := spells_chars hl t (depth + 1) (fieldChars l depth fs ++ rest)
        (fun token h => hfs token (by simp [tokens, h])) (ends_fieldChars hl depth fs rest)
      have hrec := spells_fieldChars hl fs depth rest (fun token h => hfs token (by simp [tokens, h]))
      simpa [chars, tokens, Token.chars] using (Token.spells_chars (t := .openObject) trivial trivial).append
        ((Token.spells_blanks (hl.newline (depth + 1)) _).append ((hkey _).append (ht.append hrec)))

/-- The items after the first one. -/
theorem spells_itemChars (hl : l.Blank) : ∀ (ts : List Tree) (depth : Nat) (rest : List Char),
    (∀ token ∈ itemTokens ts, token.Legible) → Token.Spells (itemChars l depth ts) (itemTokens ts) rest
  | [], depth, rest, _ => spells_close hl depth (t := .closeArray) trivial trivial
  | t :: ts, depth, rest, hts => by
      have ht := spells_chars hl t (depth + 1) (itemChars l depth ts ++ rest)
        (fun token h => hts token (by simp [itemTokens, h])) (ends_itemChars hl depth ts rest)
      have hrec := spells_itemChars hl ts depth rest (fun token h => hts token (by simp [itemTokens, h]))
      simpa [itemChars, itemTokens, Token.chars] using (Token.spells_chars (t := .comma) trivial trivial).append
        ((Token.spells_blanks (hl.newline (depth + 1)) _).append (ht.append hrec))

/-- The fields after the first one. -/
theorem spells_fieldChars (hl : l.Blank) : ∀ (fs : List (List Quoted.Piece × Tree)) (depth : Nat)
    (rest : List Char), (∀ token ∈ fieldTokens fs, token.Legible) →
      Token.Spells (fieldChars l depth fs) (fieldTokens fs) rest
  | [], depth, rest, _ => spells_close hl depth (t := .closeObject) trivial trivial
  | (k, t) :: fs, depth, rest, hfs => by
      have hkey := spells_key hl (k := k) (hfs _ (by simp [fieldTokens]))
      have ht := spells_chars hl t (depth + 1) (fieldChars l depth fs ++ rest)
        (fun token h => hfs token (by simp [fieldTokens, h])) (ends_fieldChars hl depth fs rest)
      have hrec := spells_fieldChars hl fs depth rest (fun token h => hfs token (by simp [fieldTokens, h]))
      simpa [fieldChars, fieldTokens, Token.chars] using (Token.spells_chars (t := .comma) trivial trivial).append
        ((Token.spells_blanks (hl.newline (depth + 1)) _).append ((hkey _).append (ht.append hrec)))

end

/-! ## From tokens to trees -/

/-- A tree does not begin with a bracket that closes something. -/
theorem exists_tokens_eq_cons (t : Tree) : ∃ token ts, t.tokens = token :: ts ∧ token ≠ .closeArray := by
  cases t with
  | array ts => cases ts <;> exact ⟨_, _, rfl, by simp⟩
  | object fs => cases fs <;> exact ⟨_, _, rfl, by simp⟩
  | null | bool | number | string => exact ⟨_, _, rfl, by simp⟩

/-- Two steps for each token are enough, and one more for a list of items or fields. -/
theorem scan?_tokens_all (fuel : Nat) :
    (∀ (t : Tree) rest, 2 * t.tokens.length ≤ fuel → scan? fuel (t.tokens ++ rest) = some (t, rest)) ∧
    (∀ (t : Tree) ts rest, 2 * (t.tokens ++ itemTokens ts).length < fuel →
      scanItems? fuel (t.tokens ++ (itemTokens ts ++ rest)) = some (t :: ts, rest)) ∧
    (∀ k (t : Tree) fs rest, 2 * (t.tokens ++ fieldTokens fs).length < fuel →
      scanFields? fuel (.string k :: .colon :: (t.tokens ++ (fieldTokens fs ++ rest))) =
        some ((k, t) :: fs, rest)) := by
  induction fuel with
  | zero =>
      refine ⟨fun t rest h => ?_, fun t ts rest h => absurd h (Nat.not_lt_zero _),
        fun k t fs rest h => absurd h (Nat.not_lt_zero _)⟩
      obtain ⟨token, ts, htokens, -⟩ := exists_tokens_eq_cons t
      rw [htokens, List.length_cons] at h
      omega
  | succ fuel ih =>
      obtain ⟨htree, hitems, hfields⟩ := ih
      refine ⟨fun t rest h => ?_, fun t ts rest h => ?_, fun k t fs rest h => ?_⟩
      · cases t with
        | null | bool | number | string => simp [tokens, scan?]
        | array ts =>
            cases ts with
            | nil => simp [tokens, scan?]
            | cons t ts =>
                obtain ⟨token, tail, htokens, hne⟩ := exists_tokens_eq_cons t
                simp only [tokens, List.length_cons] at h
                have hrec := hitems t ts rest (by omega)
                simp only [tokens, List.cons_append, List.append_assoc]
                rw [htokens, List.cons_append] at hrec ⊢
                have hnot : ∀ more, token :: (tail ++ (itemTokens ts ++ rest)) ≠ .closeArray :: more :=
                  fun more heq => hne (List.cons.inj heq).1
                rw [scan?, hrec, Option.map_some]
                exact hnot
        | object fs =>
            cases fs with
            | nil => simp [tokens, scan?]
            | cons f fs =>
                obtain ⟨k, t⟩ := f
                simp only [tokens, List.length_cons] at h
                have hrec := hfields k t fs rest (by omega)
                simp only [tokens, List.cons_append, List.append_assoc, scan?, hrec, Option.map_some]
      · have hfirst := htree t (itemTokens ts ++ rest) (by rw [List.length_append] at h; omega)
        unfold scanItems?
        rw [hfirst]
        cases ts with
        | nil => simp [itemTokens]
        | cons t' ts =>
            simp only [itemTokens, List.length_append, List.length_cons] at h
            have hrec := hitems t' ts rest (by rw [List.length_append]; omega)
            simp only [itemTokens, List.cons_append, List.append_assoc, hrec, Option.map_some]
      · have hfirst := htree t (fieldTokens fs ++ rest) (by rw [List.length_append] at h; omega)
        unfold scanFields?
        rw [hfirst]
        cases fs with
        | nil => simp [fieldTokens]
        | cons f fs =>
            obtain ⟨k', t'⟩ := f
            simp only [fieldTokens, List.length_append, List.length_cons] at h
            have hrec := hfields k' t' fs rest (by rw [List.length_append]; omega)
            simp only [fieldTokens, List.cons_append, List.append_assoc, hrec, Option.map_some]

theorem ofTokens?_tokens (t : Tree) : ofTokens? t.tokens = some t := by
  have hscan := (scan?_tokens_all (2 * t.tokens.length + 1)).1 t [] (by omega)
  rw [List.append_nil] at hscan
  unfold ofTokens?
  rw [hscan]

/-- **A written tree is read back.** -/
theorem ofString?_render (hl : l.Blank) {t : Tree} (ht : t.Legible) : ofString? (t.render l) = some t := by
  have hchars := spells_chars hl t 0 [] ht (fun c hc => by simp at hc)
  have hnil : Token.ofChars? [] = some [] := by rw [Token.ofChars?_eq]; rfl
  unfold Token.Spells at hchars
  rw [List.append_nil, hnil, Option.map_some, List.append_nil] at hchars
  unfold ofString? render
  rw [String.toList_ofList, hchars, Option.bind_some, ofTokens?_tokens]

end Tree

end GateGraph.Json
