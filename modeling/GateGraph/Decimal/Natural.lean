/-!
# `GateGraph.Decimal.Natural` — natural numbers written in decimal

## Contents
- `Decimal.digits` writes a natural number, `Decimal.value` reads a run of digits.
- `value_digits`: what is written reads back; hence `digits_injective`, two numbers never share a
  written form.
-/

namespace GateGraph.Decimal

/-- The decimal digits of `n`, most significant first; no leading zero, and zero is the digit `0`. -/
def digits (n : Nat) : List Char := Nat.toDigits 10 n

/-- The number that a run of decimal digits stands for. -/
def value (ds : List Char) : Nat := Nat.ofDigitChars 10 ds 0

/-- The decimal digits of `n`, as a string. -/
def text (n : Nat) : String := String.ofList (digits n)

@[simp] theorem value_digits (n : Nat) : value (digits n) = n :=
  Nat.ofDigitChars_toDigits (by decide) (by decide)

theorem digits_injective {m n : Nat} (h : digits m = digits n) : m = n := by
  rw [← value_digits m, h, value_digits]

theorem text_injective {m n : Nat} (h : text m = text n) : m = n :=
  digits_injective (String.ofList_inj.mp h)

end GateGraph.Decimal
