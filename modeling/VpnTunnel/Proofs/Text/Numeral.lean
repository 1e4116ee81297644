import VpnTunnel.Number.Power
import VpnTunnel.Proofs.Text.Trimming
import VpnTunnel.Text.Decimal

/-!
# Written numerals

A written numeral is plain text, has no leading zero, and is read back as the number it was written
from.
-/

namespace VpnTunnel.Text

/-- Every visible ASCII character but the comma and the number sign is plain. -/
theorem isPlain_of_visible {c : Char} (hlow : 0x21 ≤ c.toNat) (hhigh : c.toNat ≤ 0x7e)
    (hcomma : c ≠ ',') (hhash : c ≠ '#') : isPlain c = true := by
  refine isPlain_iff.mpr ⟨?_, hcomma, hhash⟩
  simp only [isBlank, Bool.or_eq_false_iff, Bool.and_eq_false_iff, decide_eq_false_iff_not,
    beq_eq_false_iff_ne]
  omega

theorem toNat_of_isDigit {c : Char} (h : c.isDigit = true) : 48 ≤ c.toNat ∧ c.toNat ≤ 57 :=
  Char.isDigit_iff_toNat.mp h

theorem isPlain_of_isDigit {c : Char} (h : c.isDigit = true) : isPlain c = true := by
  have hrange := toNat_of_isDigit h
  apply isPlain_of_visible (by omega) (by omega)
  · rintro rfl
    exact absurd h (by decide)
  · rintro rfl
    exact absurd h (by decide)

/-- Induction over a numeral: one digit, or a numeral with one more digit behind it. -/
theorem toDigits_induction {base : Nat} (hbase : 1 < base) {P : Nat → List Char → Prop}
    (hdigit : ∀ n < base, P n [Nat.digitChar n])
    (hmore : ∀ n, base ≤ n → P (n / base) (Nat.toDigits base (n / base)) →
      P n (Nat.toDigits base (n / base) ++ [Nat.digitChar (n % base)]))
    (n : Nat) : P n (Nat.toDigits base n) := by
  induction n using Nat.strongRecOn with
  | ind n ih =>
    rw [Nat.toDigits_eq_if hbase]
    split
    · rename_i hlt
      exact hdigit n hlt
    · rename_i hge
      exact hmore n (by omega) (ih (n / base) (Nat.div_lt_self (by omega) hbase))

theorem isDigit_of_mem_digits {c : Char} {n : Nat} (h : c ∈ digits n) : c.isDigit = true :=
  Nat.isDigit_of_mem_toDigits (by decide) (by decide) h

theorem digits_ne_nil (n : Nat) : digits n ≠ [] := Nat.toDigits_ne_nil

theorem plain_digits (n : Nat) : Plain (digits n) := fun _ hc =>
  isPlain_of_isDigit (isDigit_of_mem_digits hc)

theorem not_mem_digits {c : Char} (n : Nat) (h : c.isDigit = false) : c ∉ digits n := by
  intro hc
  rw [isDigit_of_mem_digits hc] at h
  cases h

theorem length_digits_le {n k : Nat} (hk : 0 < k) (h : n < 10 ^ k) : (digits n).length ≤ k :=
  (Nat.length_toDigits_le_iff (by decide) hk).mpr h

/-- Only the numeral of zero begins with a zero. -/
theorem eq_zero_of_head_digits {n : Nat} (h : (digits n).head? = some '0') : n = 0 := by
  refine toDigits_induction (by decide) (P := fun n s => s.head? = some '0' → n = 0) ?_ ?_ n h
  · intro n hn h
    have hchar : Nat.digitChar n = '0' := by simpa using h
    have hvalue := Nat.toNat_digitChar_sub_48_of_lt_ten hn
    rw [hchar] at hvalue
    exact hvalue.symm
  · intro n hn ih h
    rw [List.head?_append, Option.or_of_isSome (List.isSome_head?.mpr Nat.toDigits_ne_nil)] at h
    have hzero := ih h
    omega

/-- A numeral of two digits or more has no leading zero. -/
theorem length_digits_or_head (n : Nat) :
    (digits n).length = 1 ∨ (digits n).head? ≠ some '0' := by
  by_cases h : (digits n).head? = some '0'
  · left
    rw [eq_zero_of_head_digits h]
    rfl
  · exact .inr h

theorem readBelow?_digits {n bound : Nat} (h : n < bound) :
    readBelow? bound (digits n) = some n := by
  simp [readBelow?, readDigits?_digits, h]

/-- A number below the bound is read back from its digits. -/
theorem readUnsigned?_digits {n bound : Nat} (h : n < bound) :
    readUnsigned? bound (digits n) = some n := by
  have hplus := not_mem_digits n (show '+'.isDigit = false by decide)
  rw [← readBelow?_digits h]
  rw [readUnsigned?.eq_2]
  intro s hs
  rw [hs] at hplus
  exact hplus List.mem_cons_self

end VpnTunnel.Text
