/-!
# Decimal numerals

Reading and writing natural numbers in base ten. Written numerals are canonical; read ones may
carry leading zeros, and where a signed form is customary a leading plus.
-/

namespace VpnTunnel.Text

/-- The canonical numeral of `n`. -/
def digits (n : Nat) : List Char := Nat.toDigits 10 n

/-- One or more ASCII digits, leading zeros allowed. -/
def readDigits? (s : List Char) : Option Nat :=
  if s ≠ [] ∧ s.all Char.isDigit then some (Nat.ofDigitChars 10 s 0) else none

/-- Digits whose value is below `bound`. -/
def readBelow? (bound : Nat) (s : List Char) : Option Nat :=
  (readDigits? s).filter (· < bound)

/-- Digits whose value is below `bound`, after an optional plus sign. -/
def readUnsigned? (bound : Nat) : List Char → Option Nat
  | '+' :: s => readBelow? bound s
  | s => readBelow? bound s

theorem readDigits?_digits (n : Nat) : readDigits? (digits n) = some n := by
  have hall : (Nat.toDigits 10 n).all Char.isDigit = true := by
    rw [List.all_eq_true]
    exact fun c hc => Nat.isDigit_of_mem_toDigits (by decide) (by decide) hc
  simp [readDigits?, digits, hall, Nat.ofDigitChars_toDigits]

end VpnTunnel.Text
