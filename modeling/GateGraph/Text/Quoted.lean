/-!
# `GateGraph.Text.Quoted` — text between double quotes

Inside quotes a backslash starts an escape: one letter for common characters, or `u` and four hexadecimal
digits for a code unit of sixteen bits. A code unit may be half of a surrogate pair. The pair stands for
one character; a half that is alone stands for nothing, but such a text is still well formed, and that is
why reading it gives `Piece`s first.

## Contents
- `Piece`, `scan?` (up to the closing quote) and `join?` (pairs into characters).
- `encode`, which escapes what has to be escaped; `scan?_encode` and `join?_map_char`: what is written reads
  back.
-/

namespace GateGraph.Quoted

/-- A character of a quoted text, or half of a surrogate pair: the code unit `0xD800 + offset`. -/
inductive Piece
  | char (c : Char)
  | half (offset : Fin 2048)
  deriving DecidableEq, Repr

/-! ## Hexadecimal digits -/

/-- The value of a hexadecimal digit, in either case. -/
def hexValue? (c : Char) : Option Nat :=
  if '0' ≤ c ∧ c ≤ '9' then some (c.toNat - '0'.toNat)
  else if 'a' ≤ c ∧ c ≤ 'f' then some (c.toNat - 'a'.toNat + 10)
  else if 'A' ≤ c ∧ c ≤ 'F' then some (c.toNat - 'A'.toNat + 10)
  else none

/-- The code unit of four hexadecimal digits. -/
def codeUnit? (a b c d : Char) : Option Nat := do
  let a ← hexValue? a
  let b ← hexValue? b
  let c ← hexValue? c
  let d ← hexValue? d
  return ((a * 16 + b) * 16 + c) * 16 + d

/-- What a code unit stands for by itself. -/
def Piece.ofCodeUnit (n : Nat) : Piece :=
  if 0xD800 ≤ n ∧ n < 0xE000 then .half (Fin.ofNat _ (n - 0xD800)) else .char (Char.ofNat n)

/-! ## Reading -/

/-- The character that a backslash and a letter stand for. -/
def escaped? : Char → Option Char
  | '"' => some '"'
  | '\\' => some '\\'
  | '/' => some '/'
  | 'b' => some '\x08'
  | 'f' => some '\x0c'
  | 'n' => some '\n'
  | 'r' => some '\r'
  | 't' => some '\t'
  | _ => none

/-- A character that may stand unescaped between quotes. -/
def isPlain (c : Char) : Bool := 0x20 ≤ c.toNat && c != '"' && c != '\\'

/-- Puts a piece in front of what has been read. -/
def push (p : Piece) : List Piece × List Char → List Piece × List Char
  | (ps, rest) => (p :: ps, rest)

/-- Reads up to the closing quote; gives the pieces and the text behind the quote. -/
def scan? : List Char → Option (List Piece × List Char)
  | [] => none
  | '"' :: rest => some ([], rest)
  | '\\' :: 'u' :: a :: b :: c :: d :: rest => do
      let n ← codeUnit? a b c d
      (scan? rest).map (push (.ofCodeUnit n))
  | '\\' :: e :: rest => do
      let c ← escaped? e
      (scan? rest).map (push (.char c))
  | c :: rest => if isPlain c then (scan? rest).map (push (.char c)) else none

/-- The character of a surrogate pair. -/
def pairChar (high low : Fin 2048) : Char := Char.ofNat (0x10000 + high * 1024 + (low - 1024 : Nat))

/-- The characters that pieces stand for, if every half is in a pair, the smaller half first. -/
def join? : List Piece → Option (List Char)
  | [] => some []
  | .char c :: ps => (join? ps).map (c :: ·)
  | .half high :: .half low :: ps =>
      if high < 1024 ∧ 1024 ≤ low then (join? ps).map (pairChar high low :: ·) else none
  | .half _ :: _ => none

/-! ## Writing -/

/-- A hexadecimal digit, in lower case. -/
def hexDigit (n : Nat) : Char := Nat.digitChar (n % 16)

/-- A code unit as four hexadecimal digits behind `\u`. -/
def encodeCodeUnit (n : Nat) : List Char :=
  ['\\', 'u', hexDigit (n / 4096), hexDigit (n / 256), hexDigit (n / 16), hexDigit n]

/-- A character between quotes. Quote, backslash and control characters are escaped, nothing else. -/
def encodeChar (c : Char) : List Char :=
  if isPlain c then [c]
  else match c with
    | '"' => ['\\', '"']
    | '\\' => ['\\', '\\']
    | '\x08' => ['\\', 'b']
    | '\x0c' => ['\\', 'f']
    | '\n' => ['\\', 'n']
    | '\r' => ['\\', 'r']
    | '\t' => ['\\', 't']
    | c => encodeCodeUnit c.toNat

/-- A piece between quotes. -/
def encodePiece : Piece → List Char
  | .char c => encodeChar c
  | .half offset => encodeCodeUnit (0xD800 + offset)

/-- Pieces between quotes; the quotes themselves are not included. -/
def encode (ps : List Piece) : List Char := ps.flatMap encodePiece

/-! ## What is written reads back -/

/-- The control characters are the 32 code points below the blank. -/
theorem scan?_encodeCodeUnit_control (n : Fin 32) (rest : List Char) :
    scan? (encodeCodeUnit n ++ rest) = (scan? rest).map (push (.char (Char.ofNat n))) := by
  have h : ∀ n : Fin 32, codeUnit? (hexDigit (n / 4096)) (hexDigit (n / 256)) (hexDigit (n / 16))
      (hexDigit n) = some (n : Nat) := by decide
  have hp : ∀ n : Fin 32, Piece.ofCodeUnit n = .char (Char.ofNat n) := by decide
  simp only [encodeCodeUnit, List.cons_append, List.nil_append, scan?, h n]
  rw [← hp n]
  rfl

theorem scan?_encodeChar (c : Char) (rest : List Char) :
    scan? (encodeChar c ++ rest) = (scan? rest).map (push (.char c)) := by
  unfold encodeChar
  split
  · next h =>
      have h' := h
      simp only [isPlain, Bool.and_eq_true, bne_iff_ne, ne_eq] at h'
      simp only [List.cons_append, List.nil_append]
      rw [scan?.eq_def]
      split <;> simp_all
  · next h =>
      split
      case h_8 h1 h2 h3 h4 h5 h6 h7 =>
        have hlt : c.toNat < 32 := by
          simp only [isPlain, Bool.and_eq_true, bne_iff_ne, ne_eq, decide_eq_true_eq] at h
          have : c ≠ '"' := fun h => h1 h
          have : c ≠ '\\' := fun h => h2 h
          grind
        have := scan?_encodeCodeUnit_control ⟨c.toNat, hlt⟩ rest
        simpa using this
      all_goals simp [scan?, escaped?]

/-- Written characters, up to the closing quote, read back. -/
theorem scan?_encode (cs rest : List Char) :
    scan? (encode (cs.map .char) ++ '"' :: rest) = some (cs.map .char, rest) := by
  induction cs with
  | nil => simp [encode, scan?]
  | cons c cs ih =>
      simp only [encode, List.map_cons, List.flatMap_cons, encodePiece, List.append_assoc] at ih ⊢
      rw [scan?_encodeChar, ih]
      rfl

@[simp] theorem join?_map_char (cs : List Char) : join? (cs.map .char) = some cs := by
  induction cs with
  | nil => rfl
  | cons c cs ih => simp [join?, ih]

/-! ## Reading takes characters -/

theorem scan?_length {cs rest : List Char} {ps : List Piece} (h : scan? cs = some (ps, rest)) :
    rest.length < cs.length := by
  fun_induction scan? cs generalizing ps rest with
  | case1 => simp at h
  | case2 => simp_all
  | case3 a b c d r ih =>
      simp only [bind, Option.bind_eq_some_iff, Option.map_eq_some_iff] at h
      obtain ⟨n, -, ⟨ps', r'⟩, hr, heq⟩ := h
      have := ih hr
      simp only [push, Prod.mk.injEq] at heq
      obtain ⟨-, rfl⟩ := heq
      simp only [List.length_cons]
      omega
  | case4 e r _ ih =>
      simp only [bind, Option.bind_eq_some_iff, Option.map_eq_some_iff] at h
      obtain ⟨n, -, ⟨ps', r'⟩, hr, heq⟩ := h
      have := ih hr
      simp only [push, Prod.mk.injEq] at heq
      obtain ⟨-, rfl⟩ := heq
      simp only [List.length_cons]
      omega
  | case5 c r _ _ _ _ ih =>
      simp only [Option.map_eq_some_iff] at h
      obtain ⟨⟨ps', r'⟩, hr, heq⟩ := h
      have := ih hr
      simp only [push, Prod.mk.injEq] at heq
      obtain ⟨-, rfl⟩ := heq
      simp only [List.length_cons]
      omega
  | case6 => simp at h

end GateGraph.Quoted
