import VpnTunnel.Address.Ipv4
import VpnTunnel.Proofs.Text.Numeral
import VpnTunnel.Proofs.Text.Pieces

/-!
# Written IPv4 addresses

A written address is read back in either form, and nothing but digits and dots reads as one.
-/

namespace VpnTunnel.Ipv4

theorem octets_lt {a : Ipv4} : ∀ n ∈ a.octets, n < 256 := by
  have hlt := a.isLt
  simp only [octets, List.mem_cons, List.not_mem_nil, or_false]
  omega

/-- The octets put together are the address again. -/
theorem ofOctets_octets (a : Ipv4) (hp : a.toNat / 2 ^ 24 < 256)
    (hq : a.toNat / 2 ^ 16 % 256 < 256) (hr : a.toNat / 2 ^ 8 % 256 < 256)
    (hs : a.toNat % 256 < 256) :
    ofOctets ⟨_, hp⟩ ⟨_, hq⟩ ⟨_, hr⟩ ⟨_, hs⟩ = a := by
  obtain ⟨n, hn⟩ := a
  simp only [ofOctets, mk.injEq]
  omega

theorem octet?_digits (f : AddressForm) {n : Nat} (h : n < 256) :
    octet? f (Text.digits n) = some ⟨n, h⟩ := by
  have hlength : (Text.digits n).length ≤ 3 := Text.length_digits_le (by decide) (by omega)
  have hform : (Text.digits n).length ≤ 3 ∧ (f.paddedOctets ∨ (Text.digits n).length = 1 ∨
      (Text.digits n).head? ≠ some '0') := ⟨hlength, .inr (Text.length_digits_or_head n)⟩
  rw [octet?, if_pos hform, Text.readDigits?_digits]
  exact dif_pos h

theorem splitOn_toChars (a : Ipv4) : a.toChars.splitOn '.' = a.octets.map Text.digits := by
  rw [toChars]
  apply List.splitOn_intercalate
  · intro s hs
    obtain ⟨n, _, rfl⟩ := List.mem_map.mp hs
    exact Text.not_mem_digits n (by decide)
  · simp [octets]

/-- A written address is read back, in the form of a bare address and in front of a slash. -/
theorem ofChars?_toChars (f : AddressForm) (a : Ipv4) : ofChars? f a.toChars = some a := by
  have h := octets_lt (a := a)
  simp only [octets, List.forall_mem_cons] at h
  obtain ⟨hp, hq, hr, hs, _⟩ := h
  simp only [ofChars?, splitOn_toChars, octets, List.map_cons, List.map_nil, octet?_digits f hp,
    octet?_digits f hq, octet?_digits f hr, octet?_digits f hs, ofOctets_octets]

theorem mem_toChars {c : Char} {a : Ipv4} (h : c ∈ a.toChars) : c.isDigit = true ∨ c = '.' := by
  rcases Text.mem_of_mem_intercalate h with h | ⟨s, hs, hc⟩
  · exact .inr (List.mem_singleton.mp h)
  · obtain ⟨n, _, rfl⟩ := List.mem_map.mp hs
    exact .inl (Text.isDigit_of_mem_digits hc)

theorem isDigit_of_octet? {f : AddressForm} {s : List Char} {n : Fin 256}
    (h : octet? f s = some n) : ∀ c ∈ s, c.isDigit = true := by
  have hread : (Text.readDigits? s).isSome := by
    cases hs : Text.readDigits? s with
    | none => simp [octet?, hs] at h
    | some m => rfl
  rw [Text.readDigits?] at hread
  split at hread
  · rename_i hdigits
    exact List.all_eq_true.mp hdigits.2
  · simp at hread

theorem isSome_octet?_of_ofChars? {f : AddressForm} {s : List Char} {a : Ipv4}
    (h : ofChars? f s = some a) : ∀ w ∈ s.splitOn '.', (octet? f w).isSome := by
  intro w hw
  have hall : ∀ o ∈ (s.splitOn '.').map (octet? f), o.isSome := by
    rw [ofChars?] at h
    split at h
    · rename_i hsplit
      simp [hsplit]
    · cases h
  exact hall _ (List.mem_map_of_mem hw)

/-- Nothing but digits and dots reads as an address. -/
theorem mem_of_ofChars? {f : AddressForm} {s : List Char} {a : Ipv4} (h : ofChars? f s = some a) :
    ∀ c ∈ s, c.isDigit = true ∨ c = '.' := by
  intro c hc
  rcases Text.mem_splitOn_of_mem '.' hc with hc | ⟨w, hw, hc⟩
  · exact .inr hc
  · obtain ⟨n, hn⟩ := Option.isSome_iff_exists.mp (isSome_octet?_of_ofChars? h w hw)
    exact .inl (isDigit_of_octet? hn c hc)

theorem octet?_block_of_host {s : List Char} {n : Fin 256} (h : octet? .host s = some n) :
    octet? .block s = some n := by
  rw [octet?] at h ⊢
  split at h
  · rename_i hform
    rw [if_pos ⟨hform.1, .inl rfl⟩]
    exact h
  · cases h

/-- What reads as a bare address reads as the same address in front of a slash. -/
theorem ofChars?_block_of_host {s : List Char} {a : Ipv4} (h : ofChars? .host s = some a) :
    ofChars? .block s = some a := by
  have hsame : (s.splitOn '.').map (octet? .block) = (s.splitOn '.').map (octet? .host) := by
    apply List.map_congr_left
    intro w hw
    obtain ⟨n, hn⟩ := Option.isSome_iff_exists.mp (isSome_octet?_of_ofChars? h w hw)
    rw [octet?_block_of_host hn, hn]
  rw [ofChars?] at h ⊢
  rwa [hsame]

theorem ofChars?_eq_none {f : AddressForm} {s : List Char} {c : Char} (hc : c ∈ s)
    (hdigit : c.isDigit = false) (hdot : c ≠ '.') : ofChars? f s = none := by
  cases h : ofChars? f s with
  | none => rfl
  | some a =>
    rcases mem_of_ofChars? h c hc with h | h
    · rw [h] at hdigit
      cases hdigit
    · exact absurd h hdot

/-- A text without a dot is no address. -/
theorem ofChars?_of_no_dot {f : AddressForm} {s : List Char} (h : '.' ∉ s) :
    ofChars? f s = none := by
  rw [ofChars?, List.splitOn_eq_singleton h, List.map_singleton]
  cases octet? f s <;> rfl

theorem toChars_ne_nil (a : Ipv4) : a.toChars ≠ [] := by
  intro h
  have hread := ofChars?_toChars .host a
  rw [h, ofChars?_of_no_dot List.not_mem_nil] at hread
  cases hread

end VpnTunnel.Ipv4
