import GateGraph.Text.CaseTable

/-!
# `GateGraph.Text.Lowercase` — lowercase forms of Unicode text

Each character has its lowercase form, mostly one character. Only the Greek capital sigma looks at its
surroundings: at the end of a word it becomes `ς`, elsewhere `σ`.

## Contents
- `lowerChar`, the form of a character by itself; `endsWord`, the surroundings of a final sigma.
- `lowercase`, the form of a text.
-/

namespace GateGraph.Text

/-- Some range of the list holds the character. -/
def inRanges (ranges : List (Nat × Nat)) (c : Char) : Bool :=
  ranges.any fun (first, last) => first ≤ c.toNat && c.toNat ≤ last

/-- A letter with a case. -/
def isCased (c : Char) : Bool := inRanges casedRanges c

/-- A character that does not interrupt a word. -/
def isCaseIgnorable (c : Char) : Bool := inRanges caseIgnorableRanges c

/-- The lowercase form of a character by itself. -/
def lowerChar (c : Char) : List Char :=
  if c = 'İ' then ['i', '\u0307']
  else [((lowercaseRanges.findSome? (·.lower? c.toNat)).map Char.ofNat).getD c]

/-- The first character that is not ignorable has a case. -/
def startsCased (cs : List Char) : Bool :=
  match cs.dropWhile isCaseIgnorable with
  | c :: _ => isCased c
  | [] => false

/-- A word ends here: a cased letter stands before, none behind. The characters before are listed from the
    last to the first. -/
def endsWord (before after : List Char) : Bool := startsCased before && !startsCased after

/-- The lowercase form of a character between others. -/
def lowerBetween (before : List Char) (c : Char) (after : List Char) : List Char :=
  if c = 'Σ' then [if endsWord before after then 'ς' else 'σ'] else lowerChar c

/-- The lowercase form of a text behind the characters `before`, which are listed from the last to the
    first. -/
def lowercaseAfter (before : List Char) : List Char → List Char
  | [] => []
  | c :: cs => lowerBetween before c cs ++ lowercaseAfter (c :: before) cs

/-- The lowercase form of a text. -/
def lowercase (s : String) : String := String.ofList (lowercaseAfter [] s.toList)

end GateGraph.Text
