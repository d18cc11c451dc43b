import GateGraph.Decimal.Natural

/-!
# `GateGraph.Decimal.Numeral` — decimal numerals as they are written

A numeral is a sign, a whole part, perhaps a fraction after a point and perhaps an exponent after an `e`.
The type keeps the digits as they stand, so that writing a numeral and reading it lose nothing; what number
it stands for is decided by those who read numbers.

## Contents
- `Numeral`, `Numeral.chars` (how it is written) and `Numeral.isWhole`.
- `Numeral.scan?` reads the longest numeral at the front of a text; `scan?_length` says that it takes at
  least one character.
-/

namespace GateGraph

/-- The power of ten behind a numeral's `e`. -/
structure Numeral.Exponent where
  negative : Bool
  digits : List Char
  deriving DecidableEq, Repr

/-- A decimal numeral. Without fraction digits it is written without a point. -/
structure Numeral where
  negative : Bool
  whole : List Char
  fraction : List Char
  exponent : Option Numeral.Exponent
  deriving DecidableEq, Repr

namespace Numeral

/-- The numeral of a natural number. -/
def ofNat (n : Nat) : Numeral := ⟨false, Decimal.digits n, [], none⟩

/-- A numeral without point and without exponent. -/
def isWhole (n : Numeral) : Bool := n.fraction.isEmpty && n.exponent.isNone

/-! ## Writing -/

def signChars (negative : Bool) : List Char := if negative then ['-'] else []

def fractionChars : List Char → List Char
  | [] => []
  | ds => '.' :: ds

/-- An exponent is written with its sign, also when it is positive. -/
def exponentChars : Option Exponent → List Char
  | none => []
  | some e => 'e' :: (if e.negative then '-' else '+') :: e.digits

/-- A numeral as it is written. -/
def chars (n : Numeral) : List Char :=
  signChars n.negative ++ n.whole ++ fractionChars n.fraction ++ exponentChars n.exponent

/-! ## Reading -/

/-- The digits at the front of a text, and what follows them. -/
def spanDigits (cs : List Char) : List Char × List Char :=
  (cs.takeWhile Char.isDigit, cs.dropWhile Char.isDigit)

/-- At least one digit. -/
def scanDigits? (cs : List Char) : Option (List Char × List Char) :=
  if (spanDigits cs).1 = [] then none else some (spanDigits cs)

/-- A whole part: digits of which the first is zero only when it stands alone. -/
def scanWhole? (cs : List Char) : Option (List Char × List Char) :=
  match scanDigits? cs with
  | some ('0' :: _ :: _, _) => none
  | found => found

/-- A fraction: nothing, or a point and at least one digit. -/
def scanFraction? : List Char → Option (List Char × List Char)
  | '.' :: cs => scanDigits? cs
  | cs => some ([], cs)

/-- The sign of an exponent, which may be left out. -/
def scanExponentSign : List Char → Bool × List Char
  | '-' :: cs => (true, cs)
  | '+' :: cs => (false, cs)
  | cs => (false, cs)

/-- The sign and digits of an exponent. -/
def scanExponentBody? (cs : List Char) : Option (Option Exponent × List Char) :=
  (scanDigits? (scanExponentSign cs).2).map fun (ds, rest) =>
    (some ⟨(scanExponentSign cs).1, ds⟩, rest)

/-- An exponent: nothing, or `e` or `E`, a sign that may be left out, and at least one digit. -/
def scanExponent? : List Char → Option (Option Exponent × List Char)
  | 'e' :: cs => scanExponentBody? cs
  | 'E' :: cs => scanExponentBody? cs
  | cs => some (none, cs)

/-- A numeral behind its sign. -/
def scanUnsigned? (negative : Bool) (cs : List Char) : Option (Numeral × List Char) := do
  let (whole, cs) ← scanWhole? cs
  let (fraction, cs) ← scanFraction? cs
  let (exponent, cs) ← scanExponent? cs
  return (⟨negative, whole, fraction, exponent⟩, cs)

/-- The numeral at the front of a text, and what follows it. -/
def scan? : List Char → Option (Numeral × List Char)
  | '-' :: cs => scanUnsigned? true cs
  | cs => scanUnsigned? false cs

/-! ## Reading takes characters -/

theorem scanDigits?_length {cs ds rest : List Char} (h : scanDigits? cs = some (ds, rest)) :
    rest.length < cs.length := by
  have hsplit : (spanDigits cs).1 ++ (spanDigits cs).2 = cs := List.takeWhile_append_dropWhile
  have hlen := congrArg List.length hsplit
  unfold scanDigits? at h
  split at h
  · simp at h
  · next hne =>
      have hpos := List.length_pos_iff.mpr hne
      rw [Option.some.inj h, List.length_append] at hlen
      rw [Option.some.inj h] at hpos
      exact hlen ▸ Nat.lt_add_of_pos_left hpos

theorem scanWhole?_length {cs ds rest : List Char} (h : scanWhole? cs = some (ds, rest)) :
    rest.length < cs.length := by
  unfold scanWhole? at h
  split at h
  · simp at h
  · exact scanDigits?_length h

theorem scanFraction?_length {cs ds rest : List Char} (h : scanFraction? cs = some (ds, rest)) :
    rest.length ≤ cs.length := by
  unfold scanFraction? at h
  split at h
  · have := scanDigits?_length h
    simp only [List.length_cons]
    omega
  · simp_all

theorem scanExponentSign_length (cs : List Char) : (scanExponentSign cs).2.length ≤ cs.length := by
  unfold scanExponentSign
  split <;> simp

theorem scanExponentBody?_length {cs rest : List Char} {e : Option Exponent}
    (h : scanExponentBody? cs = some (e, rest)) : rest.length < cs.length := by
  unfold scanExponentBody? at h
  obtain ⟨⟨ds, r⟩, hd, heq⟩ := Option.map_eq_some_iff.mp h
  obtain ⟨-, rfl⟩ := Prod.mk.inj heq
  have := scanDigits?_length hd
  have := scanExponentSign_length cs
  omega

theorem scanExponent?_length {cs rest : List Char} {e : Option Exponent}
    (h : scanExponent? cs = some (e, rest)) : rest.length ≤ cs.length := by
  unfold scanExponent? at h
  split at h
  · have := scanExponentBody?_length h
    simp only [List.length_cons]
    omega
  · have := scanExponentBody?_length h
    simp only [List.length_cons]
    omega
  · simp_all

theorem scanUnsigned?_length {neg : Bool} {cs rest : List Char} {n : Numeral}
    (h : scanUnsigned? neg cs = some (n, rest)) : rest.length < cs.length := by
  unfold scanUnsigned? at h
  simp only [bind, Option.bind_eq_some_iff, pure, Option.some.injEq, Prod.mk.injEq] at h
  obtain ⟨⟨w, r1⟩, h1, ⟨f, r2⟩, h2, ⟨e, r3⟩, h3, -, rfl⟩ := h
  exact Nat.lt_of_le_of_lt (scanExponent?_length h3)
    (Nat.lt_of_le_of_lt (scanFraction?_length h2) (scanWhole?_length h1))

/-- A numeral has at least one character. -/
theorem scan?_length {cs rest : List Char} {n : Numeral} (h : scan? cs = some (n, rest)) :
    rest.length < cs.length := by
  unfold scan? at h
  split at h
  · have := scanUnsigned?_length h
    simp only [List.length_cons]
    omega
  · exact scanUnsigned?_length h

end Numeral

end GateGraph
