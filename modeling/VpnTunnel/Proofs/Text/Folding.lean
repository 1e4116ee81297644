import VpnTunnel.Proofs.Text.Trimming
import VpnTunnel.Text.Letter

/-!
# Folding

Folding the capitals of a text changes letters alone. So it leaves the signs of a text where they
are, and trimming leaves the same of a text and of its folding.
-/

namespace VpnTunnel.Text

variable {s t : List Char} {c sign : Char}

theorem sameWord_iff : sameWord s t = true ↔ foldAscii s = foldAscii t := beq_iff_eq

theorem sameWord_congr (h : sameWord s t = true) (w : List Char) : sameWord s w = sameWord t w := by
  rw [sameWord, sameWord, sameWord_iff.mp h]

/-- Folding moves the capitals by 32 and nothing else. -/
theorem toNat_toLower (c : Char) :
    c.toLower.toNat = if 65 ≤ c.toNat ∧ c.toNat ≤ 90 then c.toNat + 32 else c.toNat := by
  have hcapital : (c.val ≥ 'A'.val ∧ c.val ≤ 'Z'.val) ↔ 65 ≤ c.toNat ∧ c.toNat ≤ 90 := Iff.rfl
  delta Char.toLower
  split
  · rename_i h
    have hrange := hcapital.mp h
    rw [if_pos hrange]
    change (c.val + 32).toNat = c.val.toNat + 32
    rw [UInt32.toNat_add, Nat.mod_eq_of_lt]
    · rfl
    · change c.toNat + 32 < 2 ^ 32
      omega
  · rename_i h
    rw [if_neg (mt hcapital.mpr h)]

theorem toLower_toLower (c : Char) : c.toLower.toLower = c.toLower := by
  rw [← Char.toNat_inj, toNat_toLower, if_neg]
  rw [toNat_toLower]
  split <;> omega

theorem sameWord_foldAscii (s w : List Char) : sameWord (foldAscii s) w = sameWord s w := by
  simp only [sameWord, foldAscii, List.map_map, Function.comp_def, toLower_toLower]

theorem isBlank_toLower (c : Char) : isBlank c.toLower = isBlank c := by
  have hnat := toNat_toLower c
  split at hnat
  · have hletter {d : Char} (h : 65 ≤ d.toNat ∧ d.toNat ≤ 122) : isBlank d = false := by
      simp only [isBlank, Bool.or_eq_false_iff, Bool.and_eq_false_iff, beq_eq_false_iff_ne,
        decide_eq_false_iff_not]
      omega
    rw [hletter (by omega), hletter (by omega)]
  · rw [Char.toNat_inj.mp hnat]

/-- The character stands below the capitals or between them and the small letters. -/
def IsSign (c : Char) : Prop := c.toNat < 65 ∨ 90 < c.toNat ∧ c.toNat < 97

instance (c : Char) : Decidable (IsSign c) :=
  inferInstanceAs (Decidable (c.toNat < 65 ∨ 90 < c.toNat ∧ c.toNat < 97))

/-- A sign is folded to itself, and nothing else is folded to it. -/
theorem toLower_eq_iff (hsign : IsSign sign) : c.toLower = sign ↔ c = sign := by
  rw [IsSign] at hsign
  rw [← Char.toNat_inj, ← Char.toNat_inj, toNat_toLower]
  split <;> omega

theorem mem_foldAscii_iff (hsign : IsSign sign) : sign ∈ foldAscii s ↔ sign ∈ s := by
  simp only [foldAscii, List.mem_map, toLower_eq_iff hsign, exists_eq_right]

theorem mem_iff_of_sameWord (h : sameWord s t = true) (hsign : IsSign sign) :
    sign ∈ s ↔ sign ∈ t := by
  rw [← mem_foldAscii_iff hsign, sameWord_iff.mp h, mem_foldAscii_iff hsign]

theorem head?_foldAscii_eq_iff (hsign : IsSign sign) :
    (foldAscii s).head? = some sign ↔ s.head? = some sign := by
  simp only [foldAscii, List.head?_map, Option.map_eq_some_iff, toLower_eq_iff hsign,
    exists_eq_right]

/-- Trimming and folding go together in either order. -/
theorem foldAscii_trim (s : List Char) : foldAscii (trim s) = trim (foldAscii s) := by
  have hblank : isBlank ∘ Char.toLower = isBlank := funext isBlank_toLower
  have hdrop (s : List Char) :
      foldAscii (s.dropWhile isBlank) = (foldAscii s).dropWhile isBlank := by
    rw [foldAscii, foldAscii, List.dropWhile_map, hblank]
  have hreverse (s : List Char) : foldAscii s.reverse = (foldAscii s).reverse := List.map_reverse
  simp only [trim, trimEnd, trimStart, hreverse, hdrop]

end VpnTunnel.Text
