import VpnTunnel.Key.Basic
import VpnTunnel.Proofs.Text.Numeral

/-!
# Written keys

A byte string is read back from its base64 text, and so is a key.
-/

namespace VpnTunnel

namespace Base64

theorem sextet?_sextetChar {n : Nat} (h : n < 64) : sextet? (sextetChar n) = some n :=
  (by decide : ∀ n : Fin 64, sextet? (sextetChar n) = some n.val) ⟨n, h⟩

theorem sextetChar_ne_pad {n : Nat} (h : n < 64) : sextetChar n ≠ '=' :=
  (by decide : ∀ n : Fin 64, sextetChar n ≠ '=') ⟨n, h⟩

theorem isPlain_sextetChar (n : Nat) : Text.isPlain (sextetChar n) = true := by
  by_cases h : n < 63
  · exact (by decide : ∀ n : Fin 63, Text.isPlain (sextetChar n) = true) ⟨n, h⟩
  · have hslash : sextetChar n = '/' := by
      simp only [sextetChar]
      rw [if_neg (by omega), if_neg (by omega), if_neg (by omega), if_neg (by omega)]
    rw [hslash]
    rfl

/-- The byte of a number that is the value of one. -/
theorem ofNat_eq_of_eq_toNat {n : Nat} {a : UInt8} (h : n = a.toNat) : UInt8.ofNat n = a := by
  rw [h, UInt8.ofNat_toNat]

theorem decodeThree_sextets (a b c : UInt8) {n : Nat}
    (hn : n = a.toNat * 2 ^ 16 + b.toNat * 2 ^ 8 + c.toNat) :
    decodeThree (n / 2 ^ 18) (n / 2 ^ 12 % 64) (n / 2 ^ 6 % 64) (n % 64) = [a, b, c] := by
  have ha := a.toNat_lt
  have hb := b.toNat_lt
  have hc := c.toNat_lt
  have hjoin : ((n / 2 ^ 18 * 64 + n / 2 ^ 12 % 64) * 64 + n / 2 ^ 6 % 64) * 64 + n % 64 = n := by
    omega
  simp only [decodeThree, hjoin]
  rw [ofNat_eq_of_eq_toNat (a := a) (by omega), ofNat_eq_of_eq_toNat (a := b) (by omega),
    ofNat_eq_of_eq_toNat (a := c) (by omega)]

theorem decodeTwo?_sextets (a b : UInt8) {n : Nat} (hn : n = a.toNat * 2 ^ 10 + b.toNat * 2 ^ 2) :
    decodeTwo? (n / 2 ^ 12) (n / 2 ^ 6 % 64) (n % 64) = some [a, b] := by
  have ha := a.toNat_lt
  have hb := b.toNat_lt
  have hjoin : (n / 2 ^ 12 * 64 + n / 2 ^ 6 % 64) * 64 + n % 64 = n := by omega
  simp only [decodeTwo?, hjoin]
  rw [if_pos (by omega), ofNat_eq_of_eq_toNat (a := a) (by omega),
    ofNat_eq_of_eq_toNat (a := b) (by omega)]

theorem decodeOne?_sextets (a : UInt8) {n : Nat} (hn : n = a.toNat * 2 ^ 4) :
    decodeOne? (n / 2 ^ 6) (n % 64) = some [a] := by
  have ha := a.toNat_lt
  have hjoin : n / 2 ^ 6 * 64 + n % 64 = n := by omega
  simp only [decodeOne?, hjoin]
  rw [if_pos (by omega), ofNat_eq_of_eq_toNat (a := a) (by omega)]

/-- Bytes are read back from what is written for them. -/
theorem decode?_encode (bytes : List UInt8) : decode? (encode bytes) = some bytes := by
  induction bytes using encode.induct with
  | case1 a b c r ih =>
    have ha := a.toNat_lt
    have hb := b.toNat_lt
    have hc := c.toNat_lt
    have hn : a.toNat * 2 ^ 16 + b.toNat * 2 ^ 8 + c.toNat < 2 ^ 24 := by omega
    have hpad := sextetChar_ne_pad
      (Nat.mod_lt (a.toNat * 2 ^ 16 + b.toNat * 2 ^ 8 + c.toNat) (by decide : 64 > 0))
    rw [encode, decode?.eq_4]
    · rw [sextet?_sextetChar (by omega), sextet?_sextetChar (Nat.mod_lt _ (by decide)),
        sextet?_sextetChar (Nat.mod_lt _ (by decide)),
        sextet?_sextetChar (Nat.mod_lt _ (by decide)), ih]
      have hfront := decodeThree_sextets a b c rfl
      simp only [hfront, Option.bind_eq_bind, Option.bind_some, Option.pure_def, List.cons_append,
        List.nil_append]
    · intro _ hd _
      exact hpad hd
    · intro hd _
      exact hpad hd
  | case2 a b =>
    have ha := a.toNat_lt
    have hb := b.toNat_lt
    have hn : a.toNat * 2 ^ 10 + b.toNat * 2 ^ 2 < 2 ^ 18 := by omega
    have hpad := sextetChar_ne_pad
      (Nat.mod_lt (a.toNat * 2 ^ 10 + b.toNat * 2 ^ 2) (by decide : 64 > 0))
    rw [encode, decode?.eq_3 _ _ _ hpad, sextet?_sextetChar (by omega),
      sextet?_sextetChar (Nat.mod_lt _ (by decide)), sextet?_sextetChar (Nat.mod_lt _ (by decide))]
    exact decodeTwo?_sextets a b rfl
  | case3 a =>
    have ha := a.toNat_lt
    have hn : a.toNat * 2 ^ 4 < 2 ^ 12 := by omega
    rw [encode, decode?, sextet?_sextetChar (by omega),
      sextet?_sextetChar (Nat.mod_lt _ (by decide))]
    exact decodeOne?_sextets a rfl
  | case4 => rfl

theorem plain_encode (bytes : List UInt8) : Text.Plain (encode bytes) := by
  have hpad : Text.Plain ['='] := fun c hc => List.mem_singleton.mp hc ▸ (by decide)
  induction bytes using encode.induct with
  | case1 a b c r ih =>
    exact (((ih.cons (isPlain_sextetChar _)).cons (isPlain_sextetChar _)).cons
      (isPlain_sextetChar _)).cons (isPlain_sextetChar _)
  | case2 a b =>
    exact ((hpad.cons (isPlain_sextetChar _)).cons (isPlain_sextetChar _)).cons
      (isPlain_sextetChar _)
  | case3 a =>
    exact ((hpad.cons (by decide)).cons (isPlain_sextetChar _)).cons (isPlain_sextetChar _)
  | case4 => exact fun _ h => nomatch h

theorem encode_ne_nil {bytes : List UInt8} (h : bytes.length = 32) : encode bytes ≠ [] := by
  intro hnil
  have hread := decode?_encode bytes
  rw [hnil] at hread
  have hbytes : bytes = [] := (Option.some.inj hread).symm
  rw [hbytes] at h
  cases h

end Base64

theorem readKeyBytes_encode {bytes : List UInt8} (h : bytes.length = 32) :
    readKeyBytes (Base64.encode bytes) = .ok ⟨bytes, h⟩ := by
  simp only [readKeyBytes, (Base64.plain_encode bytes).trim_eq, Base64.decode?_encode]
  exact dif_pos h

namespace PublicKey

/-- A public key is read back from its text. -/
theorem ofChars_toChars (k : PublicKey) : ofChars k.toChars = .ok k := by
  rw [ofChars, toChars, readKeyBytes_encode k.length_eq]
  rfl

theorem plain_toChars (k : PublicKey) : Text.Plain k.toChars := Base64.plain_encode k.bytes

theorem toChars_ne_nil (k : PublicKey) : k.toChars ≠ [] := Base64.encode_ne_nil k.length_eq

end PublicKey

namespace PrivateKey

/-- A private key is read back from its text. -/
theorem ofChars_toChars (k : PrivateKey) : ofChars k.toChars = .ok k := by
  rw [ofChars, toChars, readKeyBytes_encode k.length_eq]
  rfl

theorem plain_toChars (k : PrivateKey) : Text.Plain k.toChars := Base64.plain_encode k.bytes

theorem toChars_ne_nil (k : PrivateKey) : k.toChars ≠ [] := Base64.encode_ne_nil k.length_eq

end PrivateKey

end VpnTunnel
