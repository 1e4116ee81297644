import Mathlib.Logic.Function.Basic
import VpnTunnel.Proofs.Config.Outline

/-!
# What a section gathers

The partial interface or peer of a section holds, at any time, what the values so far say: taking up
one more entry keeps it so. Whether an entry is taken up depends on its key and its value alone.
-/

namespace VpnTunnel

section Values

variable {α : Type} {read? : List Char → Option α}

theorem lastOf?_nil : lastOf? read? [] = some none := rfl

/-- The last value counts. -/
theorem lastOf?_concat (values : List (List Char)) (value : List Char) :
    lastOf? read? (values ++ [value]) = (read? value).map some := by
  simp [lastOf?]

theorem lastOf?_eq_some_none_iff (read? : List Char → Option α) {values : List (List Char)} :
    lastOf? read? values = some none ↔ values = [] := by
  cases values using List.reverseRecOn with
  | nil => simp [lastOf?_nil]
  | append_singleton values value => simp [lastOf?_concat]

theorem itemsOf?_nil : itemsOf? read? [] = some [] := rfl

/-- The items of one more value come behind the others. -/
theorem itemsOf?_concat {values : List (List Char)} {value : List Char} {as bs : List α}
    (h : itemsOf? read? values = some as) (hvalue : (Text.commaItems value).mapM read? = some bs) :
    itemsOf? read? (values ++ [value]) = some (as ++ bs) := by
  rw [itemsOf?] at h
  rw [itemsOf?, List.flatMap_append, List.flatMap_singleton, List.mapM_append, h, hvalue]
  rfl

theorem readValue_eq_ok_iff {key value : List Char} {a : α} :
    readValue read? key value = .ok a ↔ read? value = some a := by
  rw [readValue]
  cases read? value <;> simp

theorem mapM_readValue_eq_ok_iff {key : List Char} {items : List (List Char)} {as : List α} :
    items.mapM (readValue read? key) = .ok as ↔ items.mapM read? = some as := by
  induction items generalizing as with
  | nil => simp [pure, Except.pure]
  | cons item items ih =>
    rw [List.mapM_cons, List.mapM_cons, readValue]
    cases read? item with
    | none => simp [bind, Except.bind]
    | some a =>
      cases hrest : items.mapM (readValue read? key) with
      | error e =>
        have hnone : items.mapM read? = none := by
          refine Option.eq_none_iff_forall_ne_some.mpr fun bs hbs => ?_
          rw [ih.mpr hbs] at hrest
          cases hrest
        simp [bind, Except.bind, hnone]
      | ok bs => simp [bind, Except.bind, pure, Except.pure, ih.mp hrest]

theorem readItems_eq_ok_iff {key value : List Char} {as : List α} :
    readItems read? key value = .ok as ↔ (Text.commaItems value).mapM read? = some as :=
  mapM_readValue_eq_ok_iff

/-- A list reads if every item does. -/
theorem exists_mapM_eq_some_iff {items : List (List Char)} :
    (∃ as, items.mapM read? = some as) ↔ ∀ item ∈ items, ∃ a, read? item = some a := by
  induction items with
  | nil => simp
  | cons item items ih =>
    rw [List.forall_mem_cons, ← ih, List.mapM_cons]
    constructor
    · rintro ⟨as, h⟩
      obtain ⟨a, ha, h⟩ := Option.bind_eq_some_iff.mp h
      obtain ⟨bs, hbs, _⟩ := Option.bind_eq_some_iff.mp h
      exact ⟨⟨a, ha⟩, bs, hbs⟩
    · rintro ⟨⟨a, ha⟩, bs, hbs⟩
      exact ⟨a :: bs, by simp [ha, hbs]⟩

theorem readKey_eq_ok_iff {read : List Char → Except KeyError α} {value : List Char} {a : α} :
    readKey read value = .ok a ↔ read value = .ok a := by
  rw [readKey]
  cases read value <;> simp

theorem numberOf?_concat {value : List Char} {n : UInt32} (h : readWord32? value = some n)
    (values : List (List Char)) : numberOf? (values ++ [value]) = some n := by
  rw [numberOf?, lastOf?_concat, h]
  rfl

theorem textOf_concat (values : List (List Char)) (value : List Char) :
    textOf (values ++ [value]) = .ofList value := by
  simp [textOf]

theorem namesOf_concat (values : List (List Char)) (value : List Char) :
    namesOf (values ++ [value]) = some (readNames value) := by
  simp [namesOf]

end Values

/-- One kind of section: what its words mean, how an entry is taken up, which values a key takes,
and when what has been gathered is what some values say. -/
structure Gathering (κ σ : Type) [DecidableEq κ] where
  key? : List Char → Option κ
  set : σ → κ → List Char → List Char → Except LineError σ
  Reads : κ → List Char → Prop
  Gathers : σ → (κ → List (List Char)) → Prop
  reads_of_set : ∀ {d d' k key value}, set d k key value = .ok d' → Reads k value
  exists_set : ∀ {k value}, Reads k value → ∀ d key, ∃ d', set d k key value = .ok d'
  gathers_set : ∀ {d d' v k key value}, Gathers d v → set d k key value = .ok d' →
    Gathers d' (Function.update v k (v k ++ [value]))

namespace InterfaceValues

variable {v : InterfaceValues} {o : Obfuscation}

/-- Each parameter goes by the values of its own key. -/
theorem parameters?_eq_some_iff : v.parameters? = some o ↔
    (numberOf? (v .jc) = some o.jc ∧ numberOf? (v .jmin) = some o.jmin ∧
      numberOf? (v .jmax) = some o.jmax ∧ numberOf? (v .s1) = some o.s1 ∧
      numberOf? (v .s2) = some o.s2) ∧
    textOf (v .h1) = o.h1 ∧ textOf (v .h2) = o.h2 ∧ textOf (v .h3) = o.h3 ∧
      textOf (v .h4) = o.h4 ∧ textOf (v .i1) = o.i1 := by
  obtain ⟨jc, jmin, jmax, s1, s2, h1, h2, h3, h4, i1⟩ := o
  simp only [parameters?, Option.bind_eq_bind, Option.bind_eq_some_iff, Option.pure_def,
    Option.some.injEq, Obfuscation.mk.injEq]
  constructor
  · rintro ⟨_, hjc, _, hjmin, _, hjmax, _, hs1, _, hs2, rfl, rfl, rfl, rfl, rfl, htexts⟩
    exact ⟨⟨hjc, hjmin, hjmax, hs1, hs2⟩, htexts⟩
  · rintro ⟨⟨hjc, hjmin, hjmax, hs1, hs2⟩, htexts⟩
    exact ⟨_, hjc, _, hjmin, _, hjmax, _, hs1, _, hs2, rfl, rfl, rfl, rfl, rfl, htexts⟩

/-- No other key matters to the parameters. -/
theorem parameters?_congr {w : InterfaceValues} (h : ∀ k ∈ InterfaceKey.obfuscating, w k = v k) :
    w.parameters? = v.parameters? := by
  simp only [InterfaceKey.obfuscating, List.forall_mem_cons] at h
  simp [parameters?, h]

theorem obfuscates_congr {w : InterfaceValues} (h : ∀ k ∈ InterfaceKey.obfuscating, w k = v k) :
    w.Obfuscates ↔ v.Obfuscates := by
  refine exists_congr fun k => and_congr_right fun hk => ?_
  rw [h k hk]

end InterfaceValues

namespace PartialInterface

/-- What the section has said so far is what the values say. -/
structure Gathers (d : PartialInterface) (v : InterfaceValues) : Prop where
  privateKey : lastOf? (PrivateKey.ofChars · |>.toOption) (v .privateKey) = some d.privateKey
  addresses : itemsOf? Block.ofChars? (v .address) = some d.addresses
  dns : itemsOf? Address.ofChars? (v .dns) = some d.dns
  mtu : lastOf? readWord16? (v .mtu) = some d.mtu
  parameters : v.parameters? = some (d.obfuscation.getD .blank)
  obfuscated : d.obfuscation.isSome ↔ v.Obfuscates
  included : namesOf (v .includedApplications) = d.included
  excluded : namesOf (v .excludedApplications) = d.excluded

variable {d d' : PartialInterface} {v : InterfaceValues} {k : InterfaceKey} {key value : List Char}

theorem gathers_empty : empty.Gathers fun _ => [] := by
  constructor <;> simp [empty, lastOf?_nil, itemsOf?_nil, namesOf, InterfaceValues.Obfuscates,
    InterfaceValues.parameters?_eq_some_iff, numberOf?, textOf, Obfuscation.blank]

theorem setNumber_eq_ok {set : Obfuscation → UInt32 → Obfuscation}
    (h : d.setNumber key value set = .ok d') : ∃ n, readWord32? value = some n ∧
      d' = { d with obfuscation := some (set (d.obfuscation.getD .blank) n) } := by
  obtain ⟨n, hn, h⟩ := exists_of_bind_eq_ok h
  cases h
  exact ⟨n, readValue_eq_ok_iff.mp hn, rfl⟩

theorem exists_setNumber (h : ∃ n, readWord32? value = some n) (d : PartialInterface)
    (key : List Char) (set : Obfuscation → UInt32 → Obfuscation) :
    ∃ d', d.setNumber key value set = .ok d' := by
  obtain ⟨n, hn⟩ := h
  rw [setNumber, readValue_eq_ok_iff.mpr hn]
  exact ⟨_, rfl⟩

/-- An entry that is taken up has a value that its key takes. -/
theorem reads_of_set (h : d.set k key value = .ok d') : k.Reads value := by
  cases k with
  | privateKey =>
    obtain ⟨secret, hsecret, _⟩ := exists_of_bind_eq_ok h
    exact ⟨secret, readKey_eq_ok_iff.mp hsecret⟩
  | address | dns =>
    obtain ⟨as, has, _⟩ := exists_of_bind_eq_ok h
    exact exists_mapM_eq_some_iff.mp ⟨as, readItems_eq_ok_iff.mp has⟩
  | mtu =>
    obtain ⟨n, hn, _⟩ := exists_of_bind_eq_ok h
    exact ⟨n, readValue_eq_ok_iff.mp hn⟩
  | jc | jmin | jmax | s1 | s2 =>
    rw [set] at h
    obtain ⟨n, hn, _⟩ := setNumber_eq_ok h
    exact ⟨n, hn⟩
  | h1 | h2 | h3 | h4 | i1 | includedApplications | excludedApplications => trivial

/-- A value that the key takes is taken up, whatever has been said so far. -/
theorem exists_set (h : k.Reads value) (d : PartialInterface) (key : List Char) :
    ∃ d', d.set k key value = .ok d' := by
  cases k with
  | privateKey =>
    obtain ⟨secret, hsecret⟩ := h
    rw [set, readKey_eq_ok_iff.mpr hsecret]
    exact ⟨_, rfl⟩
  | address | dns =>
    obtain ⟨as, has⟩ := exists_mapM_eq_some_iff.mpr h
    rw [set, readItems_eq_ok_iff.mpr has]
    exact ⟨_, rfl⟩
  | mtu =>
    obtain ⟨n, hn⟩ := h
    rw [set, readValue_eq_ok_iff.mpr hn]
    exact ⟨_, rfl⟩
  | jc | jmin | jmax | s1 | s2 =>
    rw [set]
    exact exists_setNumber h d key _
  | h1 | h2 | h3 | h4 | i1 | includedApplications | excludedApplications => exact ⟨_, rfl⟩

namespace Gathers

/-- A parameter of the obfuscation is set by one more value of its key. -/
theorem with_parameter (h : d.Gathers v) (hk : k ∈ InterfaceKey.obfuscating) {o : Obfuscation}
    (ho : InterfaceValues.parameters? (Function.update v k (v k ++ [value])) = some o) :
    Gathers { d with obfuscation := some o } (Function.update v k (v k ++ [value])) := by
  have hother {k' : InterfaceKey} (hk' : k' ∉ InterfaceKey.obfuscating) :
      Function.update v k (v k ++ [value]) k' = v k' :=
    Function.update_of_ne (ne_of_mem_of_not_mem hk hk').symm _ _
  refine ⟨?_, ?_, ?_, ?_, ho, iff_of_true rfl ⟨k, hk, by simp⟩, ?_, ?_⟩
  · rw [hother (by decide)]
    exact h.privateKey
  · rw [hother (by decide)]
    exact h.addresses
  · rw [hother (by decide)]
    exact h.dns
  · rw [hother (by decide)]
    exact h.mtu
  · rw [hother (by decide)]
    exact h.included
  · rw [hother (by decide)]
    exact h.excluded

/-- A value that is taken up counts as one more value of its key. -/
theorem set (h : d.Gathers v) (hset : d.set k key value = .ok d') :
    d'.Gathers (Function.update v k (v k ++ [value])) := by
  have hparameters := InterfaceValues.parameters?_eq_some_iff.mp h.parameters
  have hkept (hk : k ∉ InterfaceKey.obfuscating) :
      ∀ k' ∈ InterfaceKey.obfuscating, Function.update v k (v k ++ [value]) k' = v k' :=
    fun k' hk' => Function.update_of_ne (ne_of_mem_of_not_mem hk' hk) _ _
  have hkeptParameters (hk : k ∉ InterfaceKey.obfuscating) :=
    (InterfaceValues.parameters?_congr (hkept hk)).trans h.parameters
  have hobfuscated (hk : k ∉ InterfaceKey.obfuscating) :=
    h.obfuscated.trans (InterfaceValues.obfuscates_congr (hkept hk)).symm
  cases k with
  | privateKey =>
    obtain ⟨secret, hsecret, hset⟩ := exists_of_bind_eq_ok hset
    cases hset
    have hread : PrivateKey.ofChars value = .ok secret := readKey_eq_ok_iff.mp hsecret
    exact ⟨by simp [lastOf?_concat, hread, Except.toOption], by simpa using h.addresses,
      by simpa using h.dns, by simpa using h.mtu, hkeptParameters (by decide),
      hobfuscated (by decide), by simpa using h.included, by simpa using h.excluded⟩
  | address =>
    obtain ⟨bs, hbs, hset⟩ := exists_of_bind_eq_ok hset
    cases hset
    have hitems := itemsOf?_concat h.addresses (readItems_eq_ok_iff.mp hbs)
    exact ⟨by simpa using h.privateKey, by simpa using hitems, by simpa using h.dns,
      by simpa using h.mtu, hkeptParameters (by decide), hobfuscated (by decide),
      by simpa using h.included, by simpa using h.excluded⟩
  | dns =>
    obtain ⟨as, has, hset⟩ := exists_of_bind_eq_ok hset
    cases hset
    have hitems := itemsOf?_concat h.dns (readItems_eq_ok_iff.mp has)
    exact ⟨by simpa using h.privateKey, by simpa using h.addresses, by simpa using hitems,
      by simpa using h.mtu, hkeptParameters (by decide), hobfuscated (by decide),
      by simpa using h.included, by simpa using h.excluded⟩
  | mtu =>
    obtain ⟨n, hn, hset⟩ := exists_of_bind_eq_ok hset
    cases hset
    exact ⟨by simpa using h.privateKey, by simpa using h.addresses, by simpa using h.dns,
      by simp [lastOf?_concat, readValue_eq_ok_iff.mp hn], hkeptParameters (by decide),
      hobfuscated (by decide), by simpa using h.included, by simpa using h.excluded⟩
  | includedApplications =>
    cases hset
    exact ⟨by simpa using h.privateKey, by simpa using h.addresses, by simpa using h.dns,
      by simpa using h.mtu, hkeptParameters (by decide), hobfuscated (by decide),
      by simp [namesOf_concat], by simpa using h.excluded⟩
  | excludedApplications =>
    cases hset
    exact ⟨by simpa using h.privateKey, by simpa using h.addresses, by simpa using h.dns,
      by simpa using h.mtu, hkeptParameters (by decide), hobfuscated (by decide),
      by simpa using h.included, by simp [namesOf_concat]⟩
  | jc | jmin | jmax | s1 | s2 =>
    rw [PartialInterface.set] at hset
    obtain ⟨n, hn, rfl⟩ := setNumber_eq_ok hset
    apply h.with_parameter (by decide)
    simp [InterfaceValues.parameters?_eq_some_iff, hparameters, numberOf?_concat hn]
  | h1 | h2 | h3 | h4 | i1 =>
    cases hset
    apply h.with_parameter (by decide)
    simp [InterfaceValues.parameters?_eq_some_iff, hparameters, textOf_concat]

end Gathers

def gathering : Gathering InterfaceKey PartialInterface where
  key? := InterfaceKey.ofChars?
  set := set
  Reads := InterfaceKey.Reads
  Gathers := Gathers
  reads_of_set := reads_of_set
  exists_set := exists_set
  gathers_set := Gathers.set

end PartialInterface

namespace PartialPeer

structure Gathers (d : PartialPeer) (v : PeerValues) : Prop where
  publicKey : lastOf? (PublicKey.ofChars · |>.toOption) (v .publicKey) = some d.publicKey
  endpoint : lastOf? Endpoint.ofChars? (v .endpoint) = some d.endpoint
  allowedIps : itemsOf? Block.ofChars? (v .allowedIps) = some d.allowedIps
  keepalive : (lastOf? readKeepalive? (v .persistentKeepalive)).map Option.join = some d.keepalive

variable {d d' : PartialPeer} {v : PeerValues} {k : PeerKey} {key value : List Char}

theorem gathers_empty : empty.Gathers fun _ => [] := by
  constructor <;> simp [empty, lastOf?_nil, itemsOf?_nil]

theorem set_endpoint_eq_ok_iff : d.set .endpoint key value = .ok d' ↔
    ∃ e, Endpoint.ofChars? value = some e ∧ d' = { d with endpoint := some e } := by
  rw [set]
  cases Endpoint.ofChars? value <;> simp [eq_comm]

theorem set_persistentKeepalive_eq_ok_iff : d.set .persistentKeepalive key value = .ok d' ↔
    ∃ seconds, readKeepalive? value = some seconds ∧ d' = { d with keepalive := seconds } := by
  rw [set, readKeepalive?, readValue]
  split
  · simp [eq_comm]
  · cases readWord16? value <;> simp [bind, Except.bind, pure, Except.pure, eq_comm]

theorem reads_of_set (h : d.set k key value = .ok d') : k.Reads value := by
  cases k with
  | publicKey =>
    obtain ⟨shared, hshared, _⟩ := exists_of_bind_eq_ok h
    exact ⟨shared, readKey_eq_ok_iff.mp hshared⟩
  | endpoint =>
    obtain ⟨e, he, _⟩ := set_endpoint_eq_ok_iff.mp h
    exact ⟨e, he⟩
  | allowedIps =>
    obtain ⟨bs, hbs, _⟩ := exists_of_bind_eq_ok h
    exact exists_mapM_eq_some_iff.mp ⟨bs, readItems_eq_ok_iff.mp hbs⟩
  | persistentKeepalive =>
    obtain ⟨seconds, hseconds, _⟩ := set_persistentKeepalive_eq_ok_iff.mp h
    exact ⟨seconds, hseconds⟩

theorem exists_set (h : k.Reads value) (d : PartialPeer) (key : List Char) :
    ∃ d', d.set k key value = .ok d' := by
  cases k with
  | publicKey =>
    obtain ⟨shared, hshared⟩ := h
    rw [set, readKey_eq_ok_iff.mpr hshared]
    exact ⟨_, rfl⟩
  | endpoint =>
    obtain ⟨e, he⟩ := h
    exact ⟨_, set_endpoint_eq_ok_iff.mpr ⟨e, he, rfl⟩⟩
  | allowedIps =>
    obtain ⟨bs, hbs⟩ := exists_mapM_eq_some_iff.mpr h
    rw [set, readItems_eq_ok_iff.mpr hbs]
    exact ⟨_, rfl⟩
  | persistentKeepalive =>
    obtain ⟨seconds, hseconds⟩ := h
    exact ⟨_, set_persistentKeepalive_eq_ok_iff.mpr ⟨seconds, hseconds, rfl⟩⟩

/-- A value that is taken up counts as one more value of its key. -/
theorem Gathers.set (h : d.Gathers v) (hset : d.set k key value = .ok d') :
    d'.Gathers (Function.update v k (v k ++ [value])) := by
  cases k with
  | publicKey =>
    obtain ⟨shared, hshared, hset⟩ := exists_of_bind_eq_ok hset
    cases hset
    have hread : PublicKey.ofChars value = .ok shared := readKey_eq_ok_iff.mp hshared
    exact ⟨by simp [lastOf?_concat, hread, Except.toOption], by simpa using h.endpoint,
      by simpa using h.allowedIps, by simpa using h.keepalive⟩
  | endpoint =>
    obtain ⟨e, he, rfl⟩ := set_endpoint_eq_ok_iff.mp hset
    exact ⟨by simpa using h.publicKey, by simp [lastOf?_concat, he],
      by simpa using h.allowedIps, by simpa using h.keepalive⟩
  | allowedIps =>
    obtain ⟨bs, hbs, hset⟩ := exists_of_bind_eq_ok hset
    cases hset
    have hitems := itemsOf?_concat h.allowedIps (readItems_eq_ok_iff.mp hbs)
    exact ⟨by simpa using h.publicKey, by simpa using h.endpoint, by simpa using hitems,
      by simpa using h.keepalive⟩
  | persistentKeepalive =>
    obtain ⟨seconds, hseconds, rfl⟩ := set_persistentKeepalive_eq_ok_iff.mp hset
    exact ⟨by simpa using h.publicKey, by simpa using h.endpoint, by simpa using h.allowedIps,
      by simp [lastOf?_concat, hseconds]⟩

def gathering : Gathering PeerKey PartialPeer where
  key? := PeerKey.ofChars?
  set := set
  Reads := PeerKey.Reads
  Gathers := Gathers
  reads_of_set := reads_of_set
  exists_set := exists_set
  gathers_set := Gathers.set

end PartialPeer

end VpnTunnel
