import GateGraph.Json.Token

/-!
# `GateGraph.Json.Tree` — JSON texts as they are written

A tree keeps what a text says before anything is made of it: numerals with all their digits, strings with
halves of surrogate pairs, objects as lists of fields in which a key may be repeated.

## Contents
- `Tree`, and `Tree.tokens`, the tokens of a tree in order.
- `Tree.ofTokens?` and `Tree.ofString?` read a text that holds one tree and nothing else.
- `Layout`, how tokens are set apart, with `Layout.compact` and `Layout.pretty`; `Tree.render`.
-/

namespace GateGraph.Json

/-- A JSON text as it is written. -/
inductive Tree
  | null
  | bool (b : Bool)
  | number (n : Numeral)
  | string (pieces : List Quoted.Piece)
  | array (items : List Tree)
  | object (fields : List (List Quoted.Piece × Tree))
  deriving Repr

namespace Tree

/-- The string of these characters. -/
def text (s : String) : Tree := string (s.toList.map .char)

/-- The object with these fields. -/
def record (fields : List (String × Tree)) : Tree :=
  object (fields.map fun (k, t) => (k.toList.map .char, t))

/-! ## Tokens -/

mutual

/-- The tokens of a tree. -/
def tokens : Tree → List Token
  | null => [.null]
  | bool b => [.bool b]
  | number n => [.number n]
  | string ps => [.string ps]
  | array [] => [.openArray, .closeArray]
  | array (t :: ts) => .openArray :: (tokens t ++ itemTokens ts)
  | object [] => [.openObject, .closeObject]
  | object ((k, t) :: fs) => .openObject :: .string k :: .colon :: (tokens t ++ fieldTokens fs)

/-- The tokens of the items after the first one, up to the closing bracket. -/
def itemTokens : List Tree → List Token
  | [] => [.closeArray]
  | t :: ts => .comma :: (tokens t ++ itemTokens ts)

/-- The tokens of the fields after the first one, up to the closing brace. -/
def fieldTokens : List (List Quoted.Piece × Tree) → List Token
  | [] => [.closeObject]
  | (k, t) :: fs => .comma :: .string k :: .colon :: (tokens t ++ fieldTokens fs)

end

/-! ## Reading -/

mutual

/-- The tree at the front of a list of tokens, and what follows it. The first argument bounds the steps. -/
def scan? : Nat → List Token → Option (Tree × List Token)
  | 0, _ => none
  | fuel + 1, ts =>
      match ts with
      | .null :: rest => some (null, rest)
      | .bool b :: rest => some (bool b, rest)
      | .number n :: rest => some (number n, rest)
      | .string ps :: rest => some (string ps, rest)
      | .openArray :: .closeArray :: rest => some (array [], rest)
      | .openArray :: rest => (scanItems? fuel rest).map fun (items, rest) => (array items, rest)
      | .openObject :: .closeObject :: rest => some (object [], rest)
      | .openObject :: rest => (scanFields? fuel rest).map fun (fields, rest) => (object fields, rest)
      | _ => none

/-- One item or more, separated by commas, up to the closing bracket. -/
def scanItems? : Nat → List Token → Option (List Tree × List Token)
  | 0, _ => none
  | fuel + 1, ts =>
      match scan? fuel ts with
      | some (t, .closeArray :: rest) => some ([t], rest)
      | some (t, .comma :: rest) => (scanItems? fuel rest).map fun (items, rest) => (t :: items, rest)
      | _ => none

/-- One field or more, separated by commas, up to the closing brace. -/
def scanFields? : Nat → List Token → Option (List (List Quoted.Piece × Tree) × List Token)
  | 0, _ => none
  | fuel + 1, .string k :: .colon :: ts =>
      match scan? fuel ts with
      | some (t, .closeObject :: rest) => some ([(k, t)], rest)
      | some (t, .comma :: rest) =>
          (scanFields? fuel rest).map fun (fields, rest) => ((k, t) :: fields, rest)
      | _ => none
  | _, _ => none

end

/-- The tree that a list of tokens spells, with nothing behind it. Each token takes part in at most two
    steps. -/
def ofTokens? (ts : List Token) : Option Tree :=
  match scan? (2 * ts.length + 1) ts with
  | some (t, []) => some t
  | _ => none

/-- The tree that a text spells, with nothing but blanks around it. -/
def ofString? (s : String) : Option Tree := (Token.ofChars? s.toList).bind ofTokens?

end Tree

/-! ## Writing -/

/-- How a tree is set: what precedes an item at a given depth, and what precedes the value of a field. -/
structure Layout where
  newline : Nat → List Char
  beforeValue : List Char

namespace Layout

/-- Nothing between tokens. -/
def compact : Layout := ⟨fun _ => [], []⟩

/-- Each item and each field on a line of its own, two blanks deeper than what holds it. -/
def pretty : Layout := ⟨fun depth => '\n' :: List.replicate (2 * depth) ' ', [' ']⟩

end Layout

namespace Tree

mutual

/-- A tree as it is written at a given depth. -/
def chars (l : Layout) (depth : Nat) : Tree → List Char
  | null => Token.null.chars
  | bool b => (Token.bool b).chars
  | number n => n.chars
  | string ps => (Token.string ps).chars
  | array [] => ['[', ']']
  | array (t :: ts) =>
      '[' :: l.newline (depth + 1) ++ chars l (depth + 1) t ++ itemChars l depth ts
  | object [] => ['{', '}']
  | object ((k, t) :: fs) =>
      '{' :: l.newline (depth + 1) ++ (Token.string k).chars ++ ':' :: l.beforeValue
        ++ chars l (depth + 1) t ++ fieldChars l depth fs

/-- The items after the first one, and the closing bracket. -/
def itemChars (l : Layout) (depth : Nat) : List Tree → List Char
  | [] => l.newline depth ++ [']']
  | t :: ts => ',' :: l.newline (depth + 1) ++ chars l (depth + 1) t ++ itemChars l depth ts

/-- The fields after the first one, and the closing brace. -/
def fieldChars (l : Layout) (depth : Nat) : List (List Quoted.Piece × Tree) → List Char
  | [] => l.newline depth ++ ['}']
  | (k, t) :: fs =>
      ',' :: l.newline (depth + 1) ++ (Token.string k).chars ++ ':' :: l.beforeValue
        ++ chars l (depth + 1) t ++ fieldChars l depth fs

end

/-- A tree as a text. -/
def render (l : Layout) (t : Tree) : String := String.ofList (t.chars l 0)

end Tree

end GateGraph.Json
