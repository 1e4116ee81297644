import VpnTunnel.Proofs.Key.Written

/-!
# One text for each key

Reading base64 is strict: a text is read just when it is the one written for its bytes. So a key has
one text, up to blanks around it, no two keys have the same, and a text that is no key's is refused
for its length if it is the text of some bytes at all.
-/

namespace VpnTunnel

namespace Text

/-- Trimming that leaves as many characters leaves all of them. -/
theorem trim_eq_self_of_length {s : List Char} (h : (trim s).length = s.length) : trim s = s := by
  have hend := (trimEnd_prefix_self (trimStart s)).length_le
  have hstart : trimStart s = s := by
    apply (trimStart_suffix s).eq_of_length_le
    rw [← h]
    exact hend
  have htrim : trim s = trimStart s := by
    apply (trimEnd_prefix_self _).eq_of_length
    exact h.trans (congrArg List.length hstart.symm)
  rw [htrim, hstart]

end Text

namespace Base64

/-- A character of the alphabet stands for one value, and is the character for it. -/
theorem sextetChar_of_sextet? {c : Char} {n : Nat} (h : sextet? c = some n) :
    sextetChar n = c ∧ n < 64 := by
  have hrange {lo hi : Char} : lo ≤ c ∧ c ≤ hi ↔ lo.toNat ≤ c.toNat ∧ c.toNat ≤ hi.toNat := Iff.rfl
  have hupper : 'A'.toNat = 65 ∧ 'Z'.toNat = 90 := ⟨rfl, rfl⟩
  have hlower : 'a'.toNat = 97 ∧ 'z'.toNat = 122 := ⟨rfl, rfl⟩
  have hdigit : '0'.toNat = 48 ∧ '9'.toNat = 57 := ⟨rfl, rfl⟩
  simp only [sextet?, hrange, hupper, hlower, hdigit] at h
  simp only [sextetChar, hupper, hlower, hdigit]
  split at h
  · cases h
    rw [if_pos (by omega), Nat.add_sub_cancel' (by omega), Char.ofNat_toNat]
    exact ⟨rfl, by omega⟩
  · split at h
    · cases h
      rw [if_neg (by omega), if_pos (by omega), Nat.add_sub_cancel, Nat.add_sub_cancel' (by omega),
        Char.ofNat_toNat]
      exact ⟨rfl, by omega⟩
    · split at h
      · cases h
        rw [if_neg (by omega), if_neg (by omega), if_pos (by omega), Nat.add_sub_cancel,
          Nat.add_sub_cancel' (by omega), Char.ofNat_toNat]
        exact ⟨rfl, by omega⟩
      · split at h
        next hplus => cases h; exact ⟨hplus.symm, by omega⟩
        next =>
          split at h <;> cases h
          next hslash => exact ⟨hslash.symm, by omega⟩

/-- One byte is read from the two values that are written for it. -/
theorem eq_of_decodeOne? {p q : Nat} {bytes : List UInt8} (hp : p < 64) (hq : q < 64)
    (h : decodeOne? p q = some bytes) :
    ∃ a : UInt8, bytes = [a] ∧ a.toNat * 2 ^ 4 = p * 64 + q := by
  simp only [decodeOne?] at h
  split at h <;> cases h
  next hclear =>
    refine ⟨_, rfl, ?_⟩
    rw [UInt8.toNat_ofNat_of_lt' (by change _ < 256; omega)]
    omega

/-- Two bytes are read from the three values that are written for them. -/
theorem eq_of_decodeTwo? {p q r : Nat} {bytes : List UInt8} (hp : p < 64) (hq : q < 64)
    (hr : r < 64) (h : decodeTwo? p q r = some bytes) :
    ∃ a b : UInt8, bytes = [a, b] ∧
      a.toNat * 2 ^ 10 + b.toNat * 2 ^ 2 = (p * 64 + q) * 64 + r := by
  simp only [decodeTwo?] at h
  split at h <;> cases h
  next hclear =>
    refine ⟨_, _, rfl, ?_⟩
    rw [UInt8.toNat_ofNat_of_lt' (by change _ < 256; omega),
      UInt8.toNat_ofNat_of_lt' (by change _ < 256; omega)]
    omega

/-- Three bytes are read from the four values that are written for them. -/
theorem exists_of_decodeThree {p q r s : Nat} (hp : p < 64) (hq : q < 64) (hr : r < 64)
    (hs : s < 64) : ∃ a b c : UInt8, decodeThree p q r s = [a, b, c] ∧
      a.toNat * 2 ^ 16 + b.toNat * 2 ^ 8 + c.toNat = ((p * 64 + q) * 64 + r) * 64 + s := by
  refine ⟨_, _, _, rfl, ?_⟩
  rw [UInt8.toNat_ofNat_of_lt' (by change _ < 256; omega),
    UInt8.toNat_ofNat_of_lt' (by change _ < 256; omega),
    UInt8.toNat_ofNat_of_lt' (by change _ < 256; omega)]
  omega

/-- A text that is read is the one written for what is read. -/
theorem eq_encode_of_decode? {s : List Char} {bytes : List UInt8} (h : decode? s = some bytes) :
    s = encode bytes := by
  fun_induction decode? s generalizing bytes with
  | case1 => cases h; rfl
  | case2 a b =>
    simp only [Option.bind_eq_bind, Option.bind_eq_some_iff] at h
    obtain ⟨p, ha, q, hb, h⟩ := h
    obtain ⟨rfl, hp⟩ := sextetChar_of_sextet? ha
    obtain ⟨rfl, hq⟩ := sextetChar_of_sextet? hb
    obtain ⟨x, rfl, hx⟩ := eq_of_decodeOne? hp hq h
    simp only [encode, hx]
    rw [show (p * 64 + q) / 2 ^ 6 = p by omega, show (p * 64 + q) % 64 = q by omega]
  | case3 a b c hc =>
    simp only [Option.bind_eq_bind, Option.bind_eq_some_iff] at h
    obtain ⟨p, ha, q, hb, r, hc, h⟩ := h
    obtain ⟨rfl, hp⟩ := sextetChar_of_sextet? ha
    obtain ⟨rfl, hq⟩ := sextetChar_of_sextet? hb
    obtain ⟨rfl, hr⟩ := sextetChar_of_sextet? hc
    obtain ⟨x, y, rfl, hxy⟩ := eq_of_decodeTwo? hp hq hr h
    simp only [encode, hxy]
    rw [show ((p * 64 + q) * 64 + r) / 2 ^ 12 = p by omega,
      show ((p * 64 + q) * 64 + r) / 2 ^ 6 % 64 = q by omega,
      show ((p * 64 + q) * 64 + r) % 64 = r by omega]
  | case4 a b c d rest _ _ ih =>
    simp only [Option.bind_eq_bind, Option.bind_eq_some_iff] at h
    obtain ⟨p, ha, q, hb, r, hc, t, hd, more, hrest, h⟩ := h
    obtain ⟨rfl, hp⟩ := sextetChar_of_sextet? ha
    obtain ⟨rfl, hq⟩ := sextetChar_of_sextet? hb
    obtain ⟨rfl, hr⟩ := sextetChar_of_sextet? hc
    obtain ⟨rfl, ht⟩ := sextetChar_of_sextet? hd
    obtain ⟨x, y, z, hfront, hxyz⟩ := exists_of_decodeThree hp hq hr ht
    obtain rfl := Option.some.inj h
    simp only [hfront, List.cons_append, List.nil_append, encode, hxyz, ← ih hrest]
    rw [show (((p * 64 + q) * 64 + r) * 64 + t) / 2 ^ 18 = p by omega,
      show (((p * 64 + q) * 64 + r) * 64 + t) / 2 ^ 12 % 64 = q by omega,
      show (((p * 64 + q) * 64 + r) * 64 + t) / 2 ^ 6 % 64 = r by omega,
      show (((p * 64 + q) * 64 + r) * 64 + t) % 64 = t by omega]
  | case5 => cases h

/-- Only what is written for some bytes is decoded. -/
theorem decode?_eq_some_iff {s : List Char} {bytes : List UInt8} :
    decode? s = some bytes ↔ s = encode bytes :=
  ⟨eq_encode_of_decode?, fun h => h ▸ decode?_encode bytes⟩

theorem decode?_eq_none_iff {s : List Char} : decode? s = none ↔ ∀ bytes, s ≠ encode bytes := by
  rw [Option.eq_none_iff_forall_ne_some]
  exact forall_congr' fun bytes => not_congr decode?_eq_some_iff

theorem length_encode (bytes : List UInt8) :
    (encode bytes).length = 4 * ((bytes.length + 2) / 3) := by
  fun_induction encode bytes with
  | case1 a b c r n ih =>
    simp only [List.length_cons, ih]
    omega
  | case2 | case3 | case4 => simp

end Base64

/-- Only what is written for 32 bytes is a key, but for blanks around it. -/
theorem readKeyBytes_eq_ok_iff {s : List Char} {b : { bytes : List UInt8 // bytes.length = 32 }} :
    readKeyBytes s = .ok b ↔ Text.trim s = Base64.encode b.val := by
  rw [← Base64.decode?_eq_some_iff, readKeyBytes]
  cases Base64.decode? (Text.trim s) with
  | none => simp
  | some bytes =>
    by_cases hlength : bytes.length = 32
    · simp [hlength, Subtype.ext_iff]
    · simp only [hlength, dite_false, reduceCtorEq, Option.some.injEq, false_iff]
      exact fun heq => hlength (heq ▸ b.property)

/-- The text of some bytes is refused for their number, any other for not being the text of any. -/
theorem readKeyBytes_eq_error_iff {s : List Char} {e : KeyError} :
    readKeyBytes s = .error e ↔
      e = .wrongLength ∧ (∃ bytes, bytes.length ≠ 32 ∧ Text.trim s = Base64.encode bytes) ∨
        e = .notBase64 ∧ ∀ bytes, Text.trim s ≠ Base64.encode bytes := by
  rw [← Base64.decode?_eq_none_iff]
  simp only [← Base64.decode?_eq_some_iff, readKeyBytes]
  cases Base64.decode? (Text.trim s) with
  | none => simp [eq_comm]
  | some bytes =>
    by_cases hlength : bytes.length = 32
    · simp [hlength, eq_comm]
    · simp [hlength, eq_comm]

/-- What is promised of the texts of a kind of keys: how `read` and `write` go together, for keys
that are 32 bytes each. -/
structure CanonicalTexts {K : Type} (bytes : K → List UInt8) (write : K → List Char)
    (read : List Char → Except KeyError K) : Prop where
  /-- Any 32 bytes are a key, and read back with no bit of them changed. -/
  key_of_bytes : ∀ bs, bs.length = 32 → ∃ k, bytes k = bs ∧ read (Base64.encode bs) = .ok k
  read_write : ∀ k, read (write k) = .ok k
  write_injective : ∀ k k', write k = write k' → k = k'
  /-- A text is a key's just when it is the one written for the key, but for blanks around it. -/
  read_eq_ok_iff : ∀ s k, read s = .ok k ↔ Text.trim s = write k
  one_spelling : ∀ k, ∃! s, s.length = 44 ∧ read s = .ok k
  read_eq_wrongLength_iff : ∀ s, read s = .error .wrongLength ↔
    ∃ bs, bs.length ≠ 32 ∧ Text.trim s = Base64.encode bs
  read_eq_notBase64_iff : ∀ s, read s = .error .notBase64 ↔ ∀ bs, Text.trim s ≠ Base64.encode bs
  /-- These are the ways for a reading to end. -/
  read_cases : ∀ s, (∃ k, read s = .ok k) ∨ read s = .error .wrongLength ∨
    read s = .error .notBase64

section Kinds

variable {K : Type} {bytes : K → List UInt8} {write : K → List Char}
  {read : List Char → Except KeyError K}

/-- The texts of keys are canonical when keys are 32 bytes and nothing else, and are read and
written as such. -/
theorem canonicalTexts_of_bytes (hlength : ∀ k, (bytes k).length = 32)
    (hwrite : ∀ k, write k = Base64.encode (bytes k))
    (make : { bs : List UInt8 // bs.length = 32 } → K) (hmake : ∀ b, bytes (make b) = b.val)
    (hbytes : ∀ k, make ⟨bytes k, hlength k⟩ = k)
    (hread : ∀ s, read s = (readKeyBytes s).map make) : CanonicalTexts bytes write read := by
  have hok : ∀ s k, read s = .ok k ↔ Text.trim s = write k := by
    intro s k
    rw [hread, hwrite]
    constructor
    · intro h
      cases hs : readKeyBytes s with
      | error e => rw [hs] at h; cases h
      | ok b =>
        rw [hs] at h
        cases h
        rw [hmake]
        exact readKeyBytes_eq_ok_iff.mp hs
    · intro h
      rw [readKeyBytes_eq_ok_iff (b := ⟨bytes k, hlength k⟩) |>.mpr h]
      exact congrArg _ (hbytes k)
  have herror : ∀ s e, read s = .error e ↔ readKeyBytes s = .error e := by
    intro s e
    rw [hread]
    cases readKeyBytes s <;> simp [Except.map]
  have htrim : ∀ k, Text.trim (write k) = write k := fun k => by
    rw [hwrite]
    exact (Base64.plain_encode _).trim_eq
  have h44 : ∀ k, (write k).length = 44 := fun k => by
    rw [hwrite, Base64.length_encode, hlength]
  constructor
  · intro bs hbs
    refine ⟨make ⟨bs, hbs⟩, hmake _, ?_⟩
    rw [hread, readKeyBytes_encode hbs]
    rfl
  · exact fun k => (hok _ _).mpr (htrim k)
  · intro k k' h
    have hk := (hok (write k) k).mpr (htrim k)
    rw [(hok (write k) k').mpr ((htrim k).trans h)] at hk
    exact (Except.ok.inj hk).symm
  · exact hok
  · intro k
    refine ⟨write k, ⟨h44 k, (hok _ _).mpr (htrim k)⟩, ?_⟩
    rintro s ⟨hs, hsk⟩
    have heq := (hok s k).mp hsk
    rw [← heq, Text.trim_eq_self_of_length (by rw [heq, h44, hs])]
  · intro s
    rw [herror, readKeyBytes_eq_error_iff]
    simp
  · intro s
    rw [herror, readKeyBytes_eq_error_iff]
    simp
  · intro s
    cases hs : read s with
    | ok k => exact .inl ⟨k, rfl⟩
    | error e =>
      obtain ⟨rfl, -⟩ | ⟨rfl, -⟩ := readKeyBytes_eq_error_iff.mp ((herror s e).mp hs)
      · exact .inr (.inl rfl)
      · exact .inr (.inr rfl)

end Kinds

/-- Private keys and public ones are read from the texts that are written for them, and from no
others. -/
theorem canonicalTexts_of_keys :
    CanonicalTexts PrivateKey.bytes PrivateKey.toChars PrivateKey.ofChars ∧
      CanonicalTexts PublicKey.bytes PublicKey.toChars PublicKey.ofChars := by
  constructor
  · exact canonicalTexts_of_bytes PrivateKey.length_eq (fun _ => rfl)
      (fun b => ⟨b.val, b.property⟩) (fun _ => rfl) (fun _ => rfl) (fun _ => rfl)
  · exact canonicalTexts_of_bytes PublicKey.length_eq (fun _ => rfl)
      (fun b => ⟨b.val, b.property⟩) (fun _ => rfl) (fun _ => rfl) (fun _ => rfl)

/-- The bits that padding stands for are clear in a key's text: of the four characters that may
stand before the padding here, one is read. -/
example : (['A', 'B', 'C', 'D'].map fun c =>
    (Base64.decode? ['/', c, '=', '=']).isSome) = [true, false, false, false] := by decide

end VpnTunnel
