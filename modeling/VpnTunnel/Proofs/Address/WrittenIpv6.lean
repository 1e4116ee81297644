import VpnTunnel.Address.Ipv6
import VpnTunnel.Proofs.Address.WrittenIpv4

/-!
# Written IPv6 addresses

A written address is read back in either form. The double colon of the canonical text is the first
one in it, and stands for as many zero groups as are missing around it.
-/

namespace VpnTunnel.Ipv6

/-! Groups -/

def isHexChar (c : Char) : Bool := c.isDigit || ('a' ≤ c && c ≤ 'f')

theorem isHexChar_digitChar : ∀ d : Fin 16, isHexChar (Nat.digitChar d) = true := by decide

theorem hexValue?_digitChar : ∀ d : Fin 16, hexValue? (Nat.digitChar d) = some d.val := by decide

theorem isHexChar_of_mem {c : Char} {n : Nat} (h : c ∈ Nat.toDigits 16 n) :
    isHexChar c = true := by
  refine Text.toDigits_induction (by decide) (P := fun _ s => ∀ c ∈ s, isHexChar c = true)
    ?_ ?_ n c h
  · intro n hn c hc
    rw [List.mem_singleton.mp hc]
    exact isHexChar_digitChar ⟨n, hn⟩
  · intro n _ ih c hc
    rcases List.mem_append.mp hc with hc | hc
    · exact ih c hc
    · rw [List.mem_singleton.mp hc]
      exact isHexChar_digitChar ⟨n % 16, Nat.mod_lt _ (by decide)⟩

theorem not_mem_hex {c : Char} (n : Nat) (h : isHexChar c = false) : c ∉ Nat.toDigits 16 n := by
  intro hc
  rw [isHexChar_of_mem hc] at h
  cases h

/-- The digits of a numeral carry its value. -/
theorem exists_hexValues (n : Nat) : ∃ ds, (Nat.toDigits 16 n).mapM hexValue? = some ds ∧
    ds.foldl (fun n d => n * 16 + d) 0 = n := by
  refine Text.toDigits_induction (by decide) (P := fun n s => ∃ ds, s.mapM hexValue? = some ds ∧
    ds.foldl (fun n d => n * 16 + d) 0 = n) ?_ ?_ n
  · intro n hn
    refine ⟨[n], ?_, by simp⟩
    simp [hexValue?_digitChar ⟨n, hn⟩]
  · intro n _ ih
    obtain ⟨ds, hds, hvalue⟩ := ih
    have hlast := hexValue?_digitChar ⟨n % 16, Nat.mod_lt _ (by decide)⟩
    refine ⟨ds ++ [n % 16], ?_, ?_⟩
    · simp [List.mapM_append, hds, hlast]
    · rw [List.foldl_append, hvalue, List.foldl_cons, List.foldl_nil]
      omega

theorem group?_toDigits {n : Nat} (h : n < 2 ^ 16) : group? (Nat.toDigits 16 n) = some n := by
  have hpos : 1 ≤ (Nat.toDigits 16 n).length := Nat.length_toDigits_pos
  have hlength : (Nat.toDigits 16 n).length ≤ 4 :=
    (Nat.length_toDigits_le_iff (by decide) (by decide)).mpr h
  obtain ⟨ds, hds, hvalue⟩ := exists_hexValues n
  rw [group?, if_pos ⟨hpos, hlength⟩, hds, Option.map_some, hvalue]

theorem lastPart?_toDigits (f : AddressForm) (dotted : Bool) {n : Nat} (h : n < 2 ^ 16) :
    lastPart? f dotted (Nat.toDigits 16 n) = some [n] := by
  have hnone := Ipv4.ofChars?_of_no_dot (f := f) (not_mem_hex n (by decide))
  simp only [lastPart?, hnone, group?_toDigits h, Option.map_some]

/-! Rows of groups -/

theorem splitOn_joinGroups {g : Nat} (gs : List Nat) :
    (joinGroups (g :: gs)).splitOn ':' = (g :: gs).map (Nat.toDigits 16) := by
  apply List.splitOn_intercalate
  · intro s hs
    obtain ⟨n, _, rfl⟩ := List.mem_map.mp hs
    exact not_mem_hex n (by decide)
  · simp

theorem mapM_group?_map {gs : List Nat} (h : ∀ g ∈ gs, g < 2 ^ 16) :
    (gs.map (Nat.toDigits 16)).mapM group? = some gs := by
  induction gs with
  | nil => rfl
  | cons g gs ih =>
    obtain ⟨hg, hgs⟩ := List.forall_mem_cons.mp h
    simp [group?_toDigits hg, ih hgs]

theorem joinGroups_eq_nil_iff {gs : List Nat} : joinGroups gs = [] ↔ gs = [] := by
  cases gs with
  | nil => simp [joinGroups]
  | cons g gs =>
    cases gs with
    | nil => simp [joinGroups]
    | cons g' gs => simp [joinGroups, List.intercalate_cons_cons]

/-- A row that ends in the given last part. -/
theorem row?_of_splitOn {f : AddressForm} {dotted : Bool} {s : List Char} {gs back : List Nat}
    {last : List Char} (hs : s.splitOn ':' = gs.map (Nat.toDigits 16) ++ [last]) (hne : s ≠ [])
    (hgs : ∀ g ∈ gs, g < 2 ^ 16) (hlast : lastPart? f dotted last = some back) :
    row? f dotted s = some (gs ++ back) := by
  rw [row?, if_neg hne]
  simp [hs, mapM_group?_map hgs, hlast]

theorem row?_joinGroups (f : AddressForm) (dotted : Bool) {gs : List Nat}
    (h : ∀ g ∈ gs, g < 2 ^ 16) : row? f dotted (joinGroups gs) = some gs := by
  rcases List.eq_nil_or_concat gs with rfl | ⟨front, last, hgs⟩
  · rfl
  · rw [List.concat_eq_append] at hgs
    subst hgs
    have hfront : ∀ g ∈ front, g < 2 ^ 16 := fun g hg => h g (List.mem_append_left _ hg)
    have hlast : last < 2 ^ 16 := h last (List.mem_append_right _ List.mem_cons_self)
    refine row?_of_splitOn ?_ ?_ hfront (lastPart?_toDigits f dotted hlast)
    · obtain ⟨g, gs, hcons⟩ := List.exists_cons_of_ne_nil (l := front ++ [last]) (by simp)
      rw [hcons, splitOn_joinGroups, ← hcons, List.map_append, List.map_singleton]
    · rw [ne_eq, joinGroups_eq_nil_iff]
      simp

/-! The double colon -/

theorem splitRun_append {w : List Char} (h : ':' ∉ w) (s : List Char) :
    splitRun (w ++ s) = (splitRun s).map fun p => (w ++ p.1, p.2) := by
  induction w with
  | nil =>
    rw [List.nil_append]
    cases splitRun s <;> rfl
  | cons c w ih =>
    obtain ⟨hc, hw⟩ := List.ne_and_not_mem_of_not_mem_cons h
    rw [List.cons_append, splitRun.eq_2 _ _ (fun r hr _ => hc hr.symm), ih hw, Option.map_map]
    rfl

theorem splitRun_single {c : Char} (h : c ≠ ':') (s : List Char) :
    splitRun (':' :: c :: s) = (splitRun (c :: s)).map fun p => (':' :: p.1, p.2) := by
  rw [splitRun.eq_2]
  intro r _ hr
  exact h (List.cons.inj hr).1

theorem joinGroups_cons_cons (g g' : Nat) (gs : List Nat) :
    joinGroups (g :: g' :: gs) = Nat.toDigits 16 g ++ ':' :: joinGroups (g' :: gs) := by
  simp [joinGroups, List.intercalate_cons_cons]

theorem exists_joinGroups_cons (g : Nat) (gs : List Nat) :
    ∃ c r, joinGroups (g :: gs) = c :: r ∧ c ≠ ':' := by
  obtain ⟨c, r, hr⟩ := List.exists_cons_of_ne_nil (Nat.toDigits_ne_nil (n := g) (b := 16))
  have hc : c ≠ ':' := by
    rintro rfl
    exact not_mem_hex g (by decide) (hr ▸ List.mem_cons_self)
  cases gs with
  | nil => exact ⟨c, r, by simp [joinGroups, hr], hc⟩
  | cons g' gs => exact ⟨c, r ++ ':' :: joinGroups (g' :: gs), by
      rw [joinGroups_cons_cons, hr, List.cons_append], hc⟩

/-- The text is split where its double colon is. -/
theorem splitRun_joinGroups_append (gs : List Nat) (s : List Char) :
    splitRun (joinGroups gs ++ ':' :: ':' :: s) = some (joinGroups gs, s) := by
  induction gs with
  | nil => rfl
  | cons g gs ih =>
    have hg := not_mem_hex g (show isHexChar ':' = false by decide)
    cases gs with
    | nil =>
      rw [joinGroups, List.map_singleton, List.intercalate_singleton, splitRun_append hg]
      simp [splitRun]
    | cons g' gs =>
      obtain ⟨c, r, hr, hc⟩ := exists_joinGroups_cons g' gs
      rw [joinGroups_cons_cons, List.append_assoc, splitRun_append hg, hr, List.cons_append,
        List.cons_append, splitRun_single hc, ← List.cons_append, ← hr, ih]
      rfl

theorem splitRun_joinGroups (gs : List Nat) : splitRun (joinGroups gs) = none := by
  induction gs with
  | nil => rfl
  | cons g gs ih =>
    have hg := not_mem_hex g (show isHexChar ':' = false by decide)
    cases gs with
    | nil =>
      have h := splitRun_append hg []
      rw [List.append_nil] at h
      rw [joinGroups, List.map_singleton, List.intercalate_singleton, h]
      rfl
    | cons g' gs =>
      obtain ⟨c, r, hr, hc⟩ := exists_joinGroups_cons g' gs
      rw [joinGroups_cons_cons, splitRun_append hg, hr, splitRun_single hc, ← hr, ih]
      rfl

/-! Numbers -/

theorem groups_lt {a : Ipv6} : ∀ g ∈ a.groups, g < 2 ^ 16 := by
  have hlt := a.isLt
  simp only [groups, List.mem_cons, List.not_mem_nil, or_false]
  omega

theorem div_mul_add_mod (n k : Nat) :
    n / 2 ^ (k + 16) * 2 ^ 16 + n / 2 ^ k % 2 ^ 16 = n / 2 ^ k := by
  rw [Nat.pow_add, ← Nat.div_div_eq_div_mul, Nat.mul_comm]
  exact Nat.div_add_mod _ _

/-- The groups put together are the address again. -/
theorem ofGroups_groups (a : Ipv6) : ofGroups a.groups = a := by
  obtain ⟨n, hn⟩ := a
  have hlast : n / 2 ^ 16 * 2 ^ 16 + n % 2 ^ 16 = n := Nat.div_add_mod' n _
  simp only [ofGroups, groups, List.foldl_cons, List.foldl_nil, mk.injEq, Nat.zero_mul,
    Nat.zero_add]
  rw [div_mul_add_mod n 96, div_mul_add_mod n 80, div_mul_add_mod n 64, div_mul_add_mod n 48,
    div_mul_add_mod n 32, div_mul_add_mod n 16, hlast, Nat.mod_eq_of_lt hn]

/-- The zeros of a run are all that is missing between what stands before it and behind it. -/
theorem take_append_replicate_append_drop (gs : List Nat) (i : Nat) :
    gs.take i ++ List.replicate (zerosAt gs i) 0 ++ gs.drop (i + zerosAt gs i) = gs := by
  have hzeros : List.replicate (zerosAt gs i) 0 = (gs.drop i).takeWhile (· == 0) := by
    symm
    refine List.eq_replicate_iff.mpr ⟨rfl, ?_⟩
    intro n hn
    exact beq_iff_eq.mp (List.all_eq_true.mp List.all_takeWhile n hn)
  have hrest : gs.drop (i + zerosAt gs i) =
      (gs.drop i).drop ((gs.drop i).takeWhile (· == 0)).length := by
    rw [List.drop_drop, zerosAt]
  have hprefix := List.prefix_iff_eq_append.mp (List.takeWhile_prefix (l := gs.drop i) (· == 0))
  rw [hzeros, hrest, List.append_assoc, hprefix, List.take_append_drop]

theorem toNat_embedded {a : Ipv6} {v4 : Ipv4} (h : a.embedded? = some v4) :
    a.toNat = 0xffff * 2 ^ 32 + v4.toNat := by
  rw [embedded?] at h
  split at h
  · rename_i hdiv
    rw [← Option.some.inj h]
    change a.toNat = 0xffff * 2 ^ 32 + (a.toNat - 0xffff * 2 ^ 32)
    omega
  · cases h

theorem ofGroups_embedded {a : Ipv6} {v4 : Ipv4} (h : a.toNat = 0xffff * 2 ^ 32 + v4.toNat) :
    ofGroups ([] ++ List.replicate 5 0 ++ [0xffff, v4.toNat / 2 ^ 16, v4.toNat % 2 ^ 16]) = a := by
  have hlt := v4.isLt
  obtain ⟨n, hn⟩ := a
  simp only [ofGroups, List.nil_append, List.replicate, List.cons_append, List.foldl_cons,
    List.foldl_nil, mk.injEq] at h ⊢
  omega

/-! Texts -/

/-- An embedded address of version 4 is read back from its dotted form. -/
theorem ofChars?_embedded (f : AddressForm) {a : Ipv6} {v4 : Ipv4} (h : a.embedded? = some v4) :
    ofChars? f ("::ffff:".toList ++ v4.toChars) = some a := by
  have hcolon : ':' ∉ v4.toChars := by
    intro hc
    rcases Ipv4.mem_toChars hc with h | h
    · exact absurd h (by decide)
    · exact absurd h (by decide)
  have hrun : splitRun ("::ffff:".toList ++ v4.toChars) =
      some ([], "ffff".toList ++ ':' :: v4.toChars) := rfl
  have hlast : lastPart? f true v4.toChars = some [v4.toNat / 2 ^ 16, v4.toNat % 2 ^ 16] := by
    simp [lastPart?, Ipv4.ofChars?_toChars]
  have hrow : row? f true ("ffff".toList ++ ':' :: v4.toChars) =
      some ([0xffff] ++ [v4.toNat / 2 ^ 16, v4.toNat % 2 ^ 16]) := by
    refine row?_of_splitOn ?_ (by simp) (by simp) hlast
    rw [List.splitOn_append_cons_self_of_not_mem (by decide), List.splitOn_eq_singleton hcolon]
    rfl
  have hfront : row? f false [] = some [] := rfl
  simp only [ofChars?, hrun, hrow, hfront]
  simpa using ofGroups_embedded (toNat_embedded h)

/-- Zeros that the double colon stands for are read back. -/
theorem ofChars?_of_run (f : AddressForm) {a : Ipv6} {i : Nat} (h : 2 ≤ zerosAt a.groups i) :
    ofChars? f (joinGroups (a.groups.take i) ++ [':', ':'] ++
      joinGroups (a.groups.drop (i + zerosAt a.groups i))) = some a := by
  have hwhole := take_append_replicate_append_drop a.groups i
  have hlength := congrArg List.length hwhole
  have height : a.groups.length = 8 := rfl
  rw [List.length_append, List.length_append, List.length_replicate, height] at hlength
  have hfront : ∀ g ∈ a.groups.take i, g < 2 ^ 16 := fun g hg =>
    groups_lt g (List.mem_of_mem_take hg)
  have hback : ∀ g ∈ a.groups.drop (i + zerosAt a.groups i), g < 2 ^ 16 := fun g hg =>
    groups_lt g (List.mem_of_mem_drop hg)
  have hmissing : 8 - ((a.groups.take i).length +
      (a.groups.drop (i + zerosAt a.groups i)).length) = zerosAt a.groups i := by omega
  have hroom : (a.groups.take i).length +
      (a.groups.drop (i + zerosAt a.groups i)).length ≤ 7 := by omega
  have hrun := splitRun_joinGroups_append (a.groups.take i)
    (joinGroups (a.groups.drop (i + zerosAt a.groups i)))
  rw [List.append_assoc, List.cons_append, List.cons_append, List.nil_append]
  simp only [ofChars?, hrun, row?_joinGroups f false hfront, row?_joinGroups f true hback]
  simp only [Option.bind_eq_bind, Option.bind_some, if_pos (Or.inl hroom), hmissing, hwhole,
    ofGroups_groups]
  rfl

/-- Eight groups in full are read back. -/
theorem ofChars?_joinGroups (f : AddressForm) (a : Ipv6) :
    ofChars? f (joinGroups a.groups) = some a := by
  have height : a.groups.length = 8 := rfl
  simp only [ofChars?, splitRun_joinGroups, row?_joinGroups f true groups_lt]
  simp only [Option.bind_eq_bind, Option.bind_some, if_pos height, ofGroups_groups]
  rfl

/-- A written address is read back, in the form of a bare address and in front of a slash. -/
theorem ofChars?_toChars (f : AddressForm) (a : Ipv6) : ofChars? f a.toChars = some a := by
  rw [toChars]
  cases h : a.embedded? with
  | some v4 => exact ofChars?_embedded f h
  | none =>
    simp only
    split
    · rename_i hrun
      exact ofChars?_of_run f hrun
    · exact ofChars?_joinGroups f a

def isAddressChar (c : Char) : Bool := isHexChar c || c == ':' || c == '.'

theorem isAddressChar_of_mem_joinGroups {c : Char} {gs : List Nat} (h : c ∈ joinGroups gs) :
    isAddressChar c = true := by
  rcases Text.mem_of_mem_intercalate h with h | ⟨s, hs, hc⟩
  · rw [List.mem_singleton.mp h]
    rfl
  · obtain ⟨n, _, rfl⟩ := List.mem_map.mp hs
    simp [isAddressChar, isHexChar_of_mem hc]

theorem isAddressChar_of_mem_v4 {c : Char} {a : Ipv4} (h : c ∈ a.toChars) :
    isAddressChar c = true := by
  rcases Ipv4.mem_toChars h with h | rfl
  · simp [isAddressChar, isHexChar, h]
  · rfl

theorem isAddressChar_of_mem {c : Char} {a : Ipv6} (h : c ∈ a.toChars) :
    isAddressChar c = true := by
  rw [toChars] at h
  cases he : a.embedded? with
  | some v4 =>
    simp only [he] at h
    rcases List.mem_append.mp h with h | h
    · exact List.all_eq_true.mp (by decide : "::ffff:".toList.all isAddressChar = true) c h
    · exact isAddressChar_of_mem_v4 h
  | none =>
    simp only [he] at h
    split at h
    · rcases List.mem_append.mp h with h | h
      · rcases List.mem_append.mp h with h | h
        · exact isAddressChar_of_mem_joinGroups h
        · exact List.all_eq_true.mp (by decide : [':', ':'].all isAddressChar = true) c h
      · exact isAddressChar_of_mem_joinGroups h
    · exact isAddressChar_of_mem_joinGroups h

end VpnTunnel.Ipv6
