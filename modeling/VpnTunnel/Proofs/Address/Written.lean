import VpnTunnel.Address.Endpoint
import VpnTunnel.Proofs.Address.WrittenIpv6

/-!
# Written addresses, blocks and endpoints

Each of them is plain text that is read back as it was written.
-/

namespace VpnTunnel

open Text (Plain isPlain)

theorem isPlain_of_isAddressChar {c : Char} (h : Ipv6.isAddressChar c = true) :
    isPlain c = true := by
  simp only [Ipv6.isAddressChar, Ipv6.isHexChar, Bool.or_eq_true, Bool.and_eq_true,
    decide_eq_true_eq, beq_iff_eq] at h
  rcases h with ((h | ⟨hlow, hhigh⟩) | rfl) | rfl
  · exact Text.isPlain_of_isDigit h
  · have hlow' : 0x61 ≤ c.toNat := hlow
    have hhigh' : c.toNat ≤ 0x66 := hhigh
    apply Text.isPlain_of_visible (by omega) (by omega)
    · rintro rfl
      exact absurd hlow' (by decide)
    · rintro rfl
      exact absurd hlow' (by decide)
  · decide
  · decide

/-! Addresses -/

theorem Ipv4.plain_toChars (a : Ipv4) : Plain a.toChars := fun _ hc =>
  isPlain_of_isAddressChar (Ipv6.isAddressChar_of_mem_v4 hc)

theorem Ipv6.plain_toChars (a : Ipv6) : Plain a.toChars := fun _ hc =>
  isPlain_of_isAddressChar (isAddressChar_of_mem hc)

theorem Ipv4.not_mem_toChars {c : Char} (a : Ipv4) (h : Ipv6.isAddressChar c = false) :
    c ∉ a.toChars := by
  intro hc
  rw [Ipv6.isAddressChar_of_mem_v4 hc] at h
  cases h

theorem Ipv6.not_mem_toChars {c : Char} (a : Ipv6) (h : isAddressChar c = false) :
    c ∉ a.toChars := by
  intro hc
  rw [isAddressChar_of_mem hc] at h
  cases h

/-- A colon tells the text of an IPv6 address from that of an IPv4 address. -/
theorem Ipv6.colon_mem_toChars (a : Ipv6) : ':' ∈ a.toChars := by
  rw [toChars]
  cases a.embedded? with
  | some v4 => simp
  | none =>
    simp only
    split
    · simp
    · rw [groups, joinGroups_cons_cons]
      simp

/-- What is written for an IPv6 address is no IPv4 address. -/
theorem Ipv4.ofChars?_of_v6 (f : AddressForm) (a : Ipv6) : Ipv4.ofChars? f a.toChars = none :=
  ofChars?_eq_none a.colon_mem_toChars (by decide) (by decide)

namespace Address

/-- An address is read back from its text. -/
theorem ofChars?_toChars (a : Address) : ofChars? a.toChars = some a := by
  cases a with
  | v4 a => simp [ofChars?, toChars, Ipv4.ofChars?_toChars]
  | v6 a => simp [ofChars?, toChars, Ipv4.ofChars?_of_v6, Ipv6.ofChars?_toChars]

theorem plain_toChars (a : Address) : Plain a.toChars := by
  cases a with
  | v4 a => exact a.plain_toChars
  | v6 a => exact a.plain_toChars

theorem toChars_ne_nil (a : Address) : a.toChars ≠ [] := by
  cases a with
  | v4 a => exact a.toChars_ne_nil
  | v6 a => exact List.ne_nil_of_mem a.colon_mem_toChars

end Address

/-! Blocks -/

theorem splitSlash?_append {s t : List Char} (hs : '/' ∉ s) (ht : '/' ∉ t) :
    splitSlash? (s ++ '/' :: t) = some (s, t) := by
  rw [splitSlash?, List.splitOn_append_cons_self_of_not_mem hs, List.splitOn_eq_singleton ht]

theorem readBits?_digits (width : Nat) {most n : Nat} (hwidth : 0 < width)
    (hmost : most < 10 ^ width) (h : n ≤ most) :
    readBits? width most (Text.digits n) = some ⟨n, h⟩ := by
  have hlength : (Text.digits n).length ≤ width := Text.length_digits_le hwidth (by omega)
  rw [readBits?, if_pos hlength, Text.readDigits?_digits]
  exact dif_pos h

theorem slash_not_mem_digits (n : Nat) : '/' ∉ Text.digits n := Text.not_mem_digits n (by decide)

theorem Ipv4Block.ofChars?_toChars (b : Ipv4Block) : ofChars? b.toChars = some b := by
  have hsplit := splitSlash?_append (b.addr.not_mem_toChars (by decide))
    (slash_not_mem_digits b.bits)
  simp [ofChars?, toChars, hsplit, Ipv4.ofChars?_toChars,
    readBits?_digits 2 (by decide) (by decide) b.bits_le]

theorem Ipv6Block.ofChars?_toChars (b : Ipv6Block) : ofChars? b.toChars = some b := by
  have hsplit := splitSlash?_append (b.addr.not_mem_toChars (by decide))
    (slash_not_mem_digits b.bits)
  simp [ofChars?, toChars, hsplit, Ipv6.ofChars?_toChars,
    readBits?_digits 3 (by decide) (by decide) b.bits_le]

theorem Ipv4Block.ofChars?_of_v6 (b : Ipv6Block) : Ipv4Block.ofChars? b.toChars = none := by
  have hsplit := splitSlash?_append (b.addr.not_mem_toChars (by decide))
    (slash_not_mem_digits b.bits)
  simp [ofChars?, Ipv6Block.toChars, hsplit, Ipv4.ofChars?_of_v6]

namespace Block

/-- A block of either family is read back from its text. -/
theorem ofChars?_toChars (b : Block) : ofChars? b.toChars = some b := by
  cases b with
  | v4 b => simp [ofChars?, toChars, Ipv4Block.ofChars?_toChars]
  | v6 b => simp [ofChars?, toChars, Ipv4Block.ofChars?_of_v6, Ipv6Block.ofChars?_toChars]

theorem plain_toChars (b : Block) : Plain b.toChars := by
  have hbits (n : Nat) : Plain ('/' :: Text.digits n) := (Text.plain_digits n).cons (by decide)
  cases b with
  | v4 b => exact b.addr.plain_toChars.append (hbits b.bits)
  | v6 b => exact b.addr.plain_toChars.append (hbits b.bits)

theorem toChars_ne_nil (b : Block) : b.toChars ≠ [] := by
  cases b with
  | v4 b => simp [toChars, Ipv4Block.toChars]
  | v6 b => simp [toChars, Ipv6Block.toChars]

end Block

/-! Endpoints -/

namespace Endpoint

theorem readPort?_digits (n : UInt16) : readPort? (Text.digits n.toNat) = some n := by
  simp [readPort?, Text.readBelow?_digits n.toNat_lt]

theorem scoped?_toChars (a : Ipv6) : scoped? a.toChars = some a := by
  rw [scoped?, Text.cut?_eq_none (a.not_mem_toChars (by decide))]
  exact Ipv6.ofChars?_toChars .host a

theorem ofCharsV4?_v4 (a : Ipv4) (port : UInt16) :
    ofCharsV4? (a.toChars ++ ':' :: Text.digits port.toNat) = some ⟨.v4 a, port⟩ := by
  have hcolon : ':' ∉ a.toChars := by
    intro hc
    rcases Ipv4.mem_toChars hc with h | h
    · exact absurd h (by decide)
    · exact absurd h (by decide)
  simp [ofCharsV4?, Text.cut?_append hcolon, Ipv4.ofChars?_toChars, readPort?_digits]

/-- An opening bracket begins no IPv4 address. -/
theorem ofCharsV4?_bracket (s : List Char) : ofCharsV4? ('[' :: s) = none := by
  rw [ofCharsV4?]
  cases h : Text.cut? ':' ('[' :: s) with
  | none => rfl
  | some p =>
    obtain ⟨addr, port⟩ := p
    have heq := Text.eq_append_of_cut? h
    have hbracket : '[' ∈ addr := by
      cases addr with
      | nil => cases heq
      | cons c r => exact (List.cons.inj heq).1 ▸ List.mem_cons_self
    simp [Ipv4.ofChars?_eq_none (f := .host) hbracket (by decide) (by decide)]

theorem ofCharsV6?_v6 (a : Ipv6) (port : UInt16) :
    ofCharsV6? ('[' :: a.toChars ++ ']' :: ':' :: Text.digits port.toNat) =
      some ⟨.v6 a, port⟩ := by
  have hbracket : ']' ∉ a.toChars := a.not_mem_toChars (by decide)
  simp [ofCharsV6?, Text.cut?_append hbracket, scoped?_toChars, readPort?_digits]

theorem plain_toChars (e : Endpoint) : Plain e.toChars := by
  have hport : Plain (':' :: Text.digits e.port.toNat) :=
    (Text.plain_digits _).cons (by decide)
  rw [toChars]
  split
  · rename_i a _
    exact a.plain_toChars.append hport
  · rename_i a _
    exact (a.plain_toChars.cons (by decide)).append (hport.cons (by decide))

theorem toChars_ne_nil (e : Endpoint) : e.toChars ≠ [] := by
  rw [toChars]
  split <;> simp

/-- An endpoint is read back from its text. -/
theorem ofChars?_toChars (e : Endpoint) : ofChars? e.toChars = some e := by
  rw [ofChars?, e.plain_toChars.trim_eq, ofExactChars?]
  obtain ⟨address, port⟩ := e
  cases address with
  | v4 a => simp [toChars, ofCharsV4?_v4]
  | v6 a =>
    have hv4 := ofCharsV4?_bracket (a.toChars ++ ']' :: ':' :: Text.digits port.toNat)
    have hv6 := ofCharsV6?_v6 a port
    simp only [toChars, List.cons_append] at hv6 ⊢
    simp [hv4, hv6]

end Endpoint

end VpnTunnel
