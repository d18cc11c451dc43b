import GateGraph.Decimal.Numeral
import GateGraph.Text.Quoted

/-!
# `GateGraph.Json.Token` — the words of a JSON text

## Contents
- `Token`, its spelling `Token.chars`, and `Token.scan?`, which reads one at the front of a text.
- `Token.ofChars?` splits a whole text into tokens; blanks, tabs and line ends between them are skipped.
-/

namespace GateGraph.Json

/-- A word of a JSON text. -/
inductive Token
  | openArray
  | closeArray
  | openObject
  | closeObject
  | comma
  | colon
  | null
  | bool (b : Bool)
  | number (n : Numeral)
  | string (pieces : List Quoted.Piece)
  deriving DecidableEq, Repr

/-- What may stand between two tokens. -/
def isBlank (c : Char) : Bool := c == ' ' || c == '\n' || c == '\t' || c == '\r'

namespace Token

/-- The spelling of a token. -/
def chars : Token → List Char
  | openArray => ['[']
  | closeArray => [']']
  | openObject => ['{']
  | closeObject => ['}']
  | comma => [',']
  | colon => [':']
  | null => ['n', 'u', 'l', 'l']
  | bool true => ['t', 'r', 'u', 'e']
  | bool false => ['f', 'a', 'l', 's', 'e']
  | number n => n.chars
  | string ps => '"' :: Quoted.encode ps ++ ['"']

/-- The token at the front of a text, and what follows it. -/
def scan? : List Char → Option (Token × List Char)
  | '[' :: cs => some (openArray, cs)
  | ']' :: cs => some (closeArray, cs)
  | '{' :: cs => some (openObject, cs)
  | '}' :: cs => some (closeObject, cs)
  | ',' :: cs => some (comma, cs)
  | ':' :: cs => some (colon, cs)
  | 'n' :: 'u' :: 'l' :: 'l' :: cs => some (null, cs)
  | 't' :: 'r' :: 'u' :: 'e' :: cs => some (bool true, cs)
  | 'f' :: 'a' :: 'l' :: 's' :: 'e' :: cs => some (bool false, cs)
  | '"' :: cs => (Quoted.scan? cs).map fun (ps, rest) => (string ps, rest)
  | cs => (Numeral.scan? cs).map fun (n, rest) => (number n, rest)

/-- A token has at least one character. -/
theorem scan?_length {cs rest : List Char} {t : Token} (h : scan? cs = some (t, rest)) :
    rest.length < cs.length := by
  unfold scan? at h
  split at h
  case h_10 =>
    obtain ⟨⟨ps, r⟩, hr, heq⟩ := Option.map_eq_some_iff.mp h
    obtain ⟨-, rfl⟩ := Prod.mk.inj heq
    have := Quoted.scan?_length hr
    simp only [List.length_cons]
    omega
  case h_11 =>
    obtain ⟨⟨n, r⟩, hr, heq⟩ := Option.map_eq_some_iff.mp h
    obtain ⟨-, rfl⟩ := Prod.mk.inj heq
    exact Numeral.scan?_length hr
  all_goals
    obtain ⟨-, rfl⟩ := Prod.mk.inj (Option.some.inj h)
    simp only [List.length_cons]
    omega

/-- The tokens of a text; `none` when something in it is no token. -/
def ofChars? (cs : List Char) : Option (List Token) :=
  let text := cs.dropWhile isBlank
  if text = [] then some []
  else
    match h : scan? text with
    | none => none
    | some (t, rest) =>
        have : rest.length < cs.length :=
          Nat.lt_of_lt_of_le (scan?_length h) (List.dropWhile_suffix _).length_le
        (ofChars? rest).map (t :: ·)
termination_by cs.length

end Token

end GateGraph.Json
