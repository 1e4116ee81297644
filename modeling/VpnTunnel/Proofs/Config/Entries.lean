import VpnTunnel.Proofs.Address.Written
import VpnTunnel.Proofs.Config.Section
import VpnTunnel.Proofs.Config.WireSafe
import VpnTunnel.Proofs.Key.Written

/-!
# The written entries of a configuration

Taking up the entries that an interface or a peer is written as gives the interface or the peer
back. The entries of a peer always have values; those of an interface have them if it is filled.
-/

namespace VpnTunnel

open Text (Clean Item Plain commaJoin digits)

section Values

variable {α : Type} {read? : List Char → Option α} {write : α → List Char}

theorem readValue_of_eq_some {value : List Char} {a : α} (h : read? value = some a)
    (key : List Char) : readValue read? key value = .ok a := by
  rw [readValue, h]

theorem mapM_readValue (h : ∀ a, read? (write a) = some a) (key : List Char) (as : List α) :
    (as.map write).mapM (readValue read? key) = .ok as := by
  induction as with
  | nil => rfl
  | cons a as ih =>
    rw [List.map_cons, List.mapM_cons, readValue_of_eq_some (h a), ih]
    rfl

theorem item_of_mem_map (hplain : ∀ a, Plain (write a)) (hne : ∀ a, write a ≠ []) {as : List α} :
    ∀ w ∈ as.map write, Item w := by
  intro w hw
  obtain ⟨a, _, rfl⟩ := List.mem_map.mp hw
  exact (hplain a).item (hne a)

/-- A written list of values is read back. -/
theorem readItems_commaJoin (hplain : ∀ a, Plain (write a)) (hne : ∀ a, write a ≠ [])
    (h : ∀ a, read? (write a) = some a) (key : List Char) (as : List α) :
    readItems read? key (commaJoin (as.map write)) = .ok as := by
  rw [readItems, Text.commaItems_commaJoin (item_of_mem_map hplain hne)]
  exact mapM_readValue h key as

theorem clean_commaJoin_of_plain (hplain : ∀ a, Plain (write a)) (hne : ∀ a, write a ≠ [])
    (as : List α) : Clean (commaJoin (as.map write)) := by
  apply Text.clean_commaJoin (item_of_mem_map hplain hne)
  intro w hw
  obtain ⟨a, _, rfl⟩ := List.mem_map.mp hw
  exact (hplain a).clean

theorem commaJoin_map_eq_nil_iff (hne : ∀ a, write a ≠ []) {as : List α} :
    commaJoin (as.map write) = [] ↔ as = [] := by
  rw [Text.commaJoin_eq_nil_iff, List.map_eq_nil_iff]
  intro w hw
  obtain ⟨a, _, rfl⟩ := List.mem_map.mp hw
  exact hne a

end Values

theorem readWord16?_digits (n : UInt16) : readWord16? (digits n.toNat) = some n := by
  rw [readWord16?, Text.readUnsigned?_digits n.toNat_lt]
  simp

theorem readWord32?_digits (n : UInt32) : readWord32? (digits n.toNat) = some n := by
  rw [readWord32?, Text.readUnsigned?_digits n.toNat_lt]
  simp

theorem item_of_mem_names {apps : NameSet} (h : ∀ name ∈ apps.toList, AppName name) :
    ∀ w ∈ apps.toList.map String.toList, Item w := by
  intro w hw
  obtain ⟨name, hname, rfl⟩ := List.mem_map.mp hw
  exact (h name hname).item

/-- A written list of names is read back. -/
theorem readNames_commaJoin {apps : NameSet} (h : ∀ name ∈ apps.toList, AppName name) :
    readNames (commaJoin (apps.toList.map String.toList)) = apps := by
  have hid : (apps.toList.map String.toList).map String.ofList = apps.toList := by
    simp [Function.comp_def]
  rw [readNames, Text.commaItems_commaJoin (item_of_mem_names h), hid, NameSet.ofList_toList]

namespace AppBinding

variable {b : AppBinding}

def included : AppBinding → Option NameSet
  | only apps => some apps
  | _ => none

def excluded : AppBinding → Option NameSet
  | allBut apps => some apps
  | _ => none

theorem setAll_entries (h : b.Clean) {d : PartialInterface} (hincluded : d.included = none)
    (hexcluded : d.excluded = none) : interfaceRules.setAll d b.entries =
      .ok { d with included := b.included, excluded := b.excluded } := by
  obtain ⟨_, _, _, _, _, _, _⟩ := d
  cases hincluded
  cases hexcluded
  cases b with
  | all => rfl
  | only apps =>
    rw [entries, SectionRules.setAll_cons_of_ok rfl, readNames_commaJoin (h apps rfl)]
    rfl
  | allBut apps =>
    rw [entries, SectionRules.setAll_cons_of_ok rfl, readNames_commaJoin (h apps rfl)]
    rfl

theorem clean_commaJoin_names {apps : NameSet} (h : ∀ name ∈ apps.toList, AppName name) :
    Text.Clean (commaJoin (apps.toList.map String.toList)) := by
  apply Text.clean_commaJoin (item_of_mem_names h)
  intro w hw
  obtain ⟨name, hname, rfl⟩ := List.mem_map.mp hw
  exact (h name hname).clean

theorem clean_of_mem_entries (h : b.Clean) : ∀ e ∈ b.entries, Text.Clean e.2 := by
  cases b with
  | all => simp [entries]
  | only apps => simpa [entries] using clean_commaJoin_names (h apps rfl)
  | allBut apps => simpa [entries] using clean_commaJoin_names (h apps rfl)

/-- Only an empty list of names leaves its line without a value. -/
theorem commaJoin_names_eq_nil_iff {apps : NameSet} (h : ∀ name ∈ apps.toList, AppName name) :
    commaJoin (apps.toList.map String.toList) = [] ↔ apps.toList = [] := by
  rw [Text.commaJoin_eq_nil_iff fun w hw => (item_of_mem_names h w hw).ne_nil,
    List.map_eq_nil_iff]

theorem filled_iff_entries (h : b.Clean) : b.Filled ↔ ∀ e ∈ b.entries, e.2 ≠ [] := by
  rw [filled_iff]
  cases b with
  | all => simp [entries, names?]
  | only apps => simp [entries, names?, commaJoin_names_eq_nil_iff (h apps rfl)]
  | allBut apps => simp [entries, names?, commaJoin_names_eq_nil_iff (h apps rfl)]

end AppBinding

namespace PartialInterface

theorem set_privateKey (d : PartialInterface) (key : List Char) (k : PrivateKey) :
    d.set .privateKey key k.toChars = .ok { d with privateKey := some k } := by
  rw [set, readKey, PrivateKey.ofChars_toChars]
  rfl

theorem set_address (d : PartialInterface) (key : List Char) (bs : List Block) :
    d.set .address key (commaJoin (bs.map Block.toChars)) =
      .ok { d with addresses := d.addresses ++ bs } := by
  rw [set, readItems_commaJoin Block.plain_toChars Block.toChars_ne_nil Block.ofChars?_toChars]
  rfl

theorem set_dns (d : PartialInterface) (key : List Char) (as : List Address) :
    d.set .dns key (commaJoin (as.map Address.toChars)) = .ok { d with dns := d.dns ++ as } := by
  rw [set, readItems_commaJoin Address.plain_toChars Address.toChars_ne_nil
    Address.ofChars?_toChars]
  rfl

theorem set_mtu (d : PartialInterface) (key : List Char) (n : UInt16) :
    d.set .mtu key (digits n.toNat) = .ok { d with mtu := some n } := by
  rw [set, readValue_of_eq_some (readWord16?_digits n)]
  rfl

theorem setNumber_digits (d : PartialInterface) (key : List Char) (n : UInt32)
    (set : Obfuscation → UInt32 → Obfuscation) : d.setNumber key (digits n.toNat) set =
      .ok { d with obfuscation := some (set (d.obfuscation.getD .blank) n) } := by
  rw [setNumber, readValue_of_eq_some (readWord32?_digits n)]
  rfl

theorem setText_toList (d : PartialInterface) (s : String)
    (set : Obfuscation → String → Obfuscation) : d.setText s.toList set =
      .ok { d with obfuscation := some (set (d.obfuscation.getD .blank) s) } := by
  rw [setText, String.ofList_toList]

end PartialInterface

namespace Obfuscation

variable {o : Obfuscation}

theorem setAll_entries (o : Obfuscation) {d : PartialInterface} (h : d.obfuscation = none) :
    interfaceRules.setAll d o.entries = .ok { d with obfuscation := some o } := by
  obtain ⟨jc, jmin, jmax, s1, s2, h1, h2, h3, h4, i1⟩ := o
  by_cases hempty : i1 = ""
  · simp [SectionRules.setAll, interfaceRules, PartialInterface.set, entries, h, hempty, blank,
      PartialInterface.setNumber_digits, PartialInterface.setText_toList, bind, Except.bind,
      pure, Except.pure]
  · simp [SectionRules.setAll, interfaceRules, PartialInterface.set, entries, h, hempty,
      PartialInterface.setNumber_digits, PartialInterface.setText_toList, bind, Except.bind,
      pure, Except.pure]

theorem clean_of_mem_entries (h : o.Clean) : ∀ e ∈ o.entries, Text.Clean e.2 := by
  have hnumber (n : Nat) : Text.Clean (digits n) := (Text.plain_digits n).clean
  rw [entries, List.forall_mem_append]
  constructor
  · simp [hnumber, h.h1, h.h2, h.h3, h.h4]
  · split
    · simp
    · simpa using h.i1

theorem filled_iff_entries : o.Filled ↔ ∀ e ∈ o.entries, e.2 ≠ [] := by
  rw [entries, List.forall_mem_append]
  by_cases h : o.i1 = "" <;> simp [Filled, Text.digits_ne_nil, h]

end Obfuscation

namespace Interface

variable {i : Interface}

/-- What the section has said once all entries of the interface are taken up. -/
def said (i : Interface) : PartialInterface :=
  ⟨some i.privateKey, i.addresses, i.dns, some i.mtu, i.obfuscation, i.apps.included,
    i.apps.excluded⟩

/-- What the entries of an interface say is all that it needs. -/
theorem complete_said (i : Interface) : i.said.complete = .ok i := by
  obtain ⟨_, _, _, _, _, apps⟩ := i
  cases apps <;> rfl

theorem setAll_dns (d : PartialInterface) (dns : List Address) : interfaceRules.setAll d
    (if dns.isEmpty then [] else [(.dns, commaJoin (dns.map Address.toChars))]) =
      .ok { d with dns := d.dns ++ dns } := by
  by_cases hempty : dns = []
  · simp [hempty]
  · rw [if_neg (by simpa using hempty),
      SectionRules.setAll_cons_of_ok (PartialInterface.set_dns _ _ _)]
    rfl

/-- The entries of the obfuscation, if there is any, set it. -/
theorem setAll_obfuscation {d : PartialInterface} (h : d.obfuscation = none)
    (o : Option Obfuscation) : interfaceRules.setAll d ((o.map Obfuscation.entries).getD []) =
      .ok { d with obfuscation := o } := by
  cases o with
  | none => rw [Option.map_none, Option.getD_none, SectionRules.setAll_nil, ← h]
  | some o => exact o.setAll_entries h

/-- Taking up all entries of an interface says all of it. -/
theorem setAll_entries (h : i.Clean) : interfaceRules.setAll .empty i.entries = .ok i.said := by
  have hhead : interfaceRules.setAll .empty [(.privateKey, i.privateKey.toChars),
      (.address, commaJoin (i.addresses.map Block.toChars))] =
        .ok ⟨some i.privateKey, i.addresses, [], none, none, none, none⟩ := by
    have hkey := PartialInterface.set_privateKey .empty InterfaceKey.privateKey.name.toList
      i.privateKey
    rw [SectionRules.setAll_cons_of_ok hkey,
      SectionRules.setAll_cons_of_ok (PartialInterface.set_address _ _ _)]
    rfl
  have hmtu (d : PartialInterface) : interfaceRules.setAll d [(.mtu, digits i.mtu.toNat)] =
      .ok { d with mtu := some i.mtu } :=
    SectionRules.setAll_cons_of_ok (PartialInterface.set_mtu _ _ _) []
  have hdns := SectionRules.setAll_append hhead (setAll_dns _ i.dns)
  have hnumber := SectionRules.setAll_append hdns (hmtu _)
  have hobfuscation := SectionRules.setAll_append hnumber (setAll_obfuscation rfl i.obfuscation)
  exact SectionRules.setAll_append hobfuscation (AppBinding.setAll_entries h.apps rfl rfl)

theorem clean_of_mem_entries (h : i.Clean) : ∀ e ∈ i.entries, Text.Clean e.2 := by
  have haddresses := clean_commaJoin_of_plain Block.plain_toChars Block.toChars_ne_nil i.addresses
  have hdns := clean_commaJoin_of_plain Address.plain_toChars Address.toChars_ne_nil i.dns
  simp only [entries, List.forall_mem_append]
  refine ⟨⟨⟨⟨?_, ?_⟩, ?_⟩, ?_⟩, AppBinding.clean_of_mem_entries h.apps⟩
  · simp [haddresses, i.privateKey.plain_toChars.clean]
  · split
    · simp
    · simpa using hdns
  · simpa using (Text.plain_digits i.mtu.toNat).clean
  · cases ho : i.obfuscation with
    | none => simp
    | some o => exact Obfuscation.clean_of_mem_entries (h.obfuscation o ho)

/-- The values that may be missing are exactly the ones that filling asks for. -/
theorem filled_iff_entries (h : i.Clean) : i.Filled ↔ ∀ e ∈ i.entries, e.2 ≠ [] := by
  have haddresses : (∀ e ∈ [(InterfaceKey.privateKey, i.privateKey.toChars),
      (.address, commaJoin (i.addresses.map Block.toChars))], e.2 ≠ []) ↔ i.addresses ≠ [] := by
    simp [i.privateKey.toChars_ne_nil, commaJoin_map_eq_nil_iff Block.toChars_ne_nil]
  have hdns : ∀ e ∈ (if i.dns.isEmpty then []
      else [(InterfaceKey.dns, commaJoin (i.dns.map Address.toChars))]), e.2 ≠ [] := by
    by_cases hempty : i.dns = []
    · simp [hempty]
    · simp [hempty, commaJoin_map_eq_nil_iff Address.toChars_ne_nil]
  have hmtu : ∀ e ∈ [(InterfaceKey.mtu, digits i.mtu.toNat)], e.2 ≠ [] := by
    simp [Text.digits_ne_nil]
  have hobfuscation : (∀ e ∈ (i.obfuscation.map Obfuscation.entries).getD [], e.2 ≠ []) ↔
      ∀ o, i.obfuscation = some o → o.Filled := by
    cases i.obfuscation with
    | none => simp
    | some o => simp [Obfuscation.filled_iff_entries]
  simp only [entries, List.forall_mem_append, haddresses, hobfuscation,
    ← AppBinding.filled_iff_entries h.apps]
  constructor
  · intro hfilled
    exact ⟨⟨⟨⟨hfilled.addresses, hdns⟩, hmtu⟩, hfilled.obfuscation⟩, hfilled.apps⟩
  · rintro ⟨⟨⟨⟨ha, _⟩, _⟩, ho⟩, happs⟩
    exact ⟨ha, ho, happs⟩

end Interface

namespace PartialPeer

theorem set_publicKey (d : PartialPeer) (key : List Char) (k : PublicKey) :
    d.set .publicKey key k.toChars = .ok { d with publicKey := some k } := by
  rw [set, readKey, PublicKey.ofChars_toChars]
  rfl

/-- The entry of an endpoint sets the endpoint. -/
theorem set_endpoint (d : PartialPeer) (key : List Char) (e : Endpoint) :
    d.set .endpoint key e.toChars = .ok { d with endpoint := some e } := by
  simp [set, Endpoint.ofChars?_toChars]

theorem set_allowedIps (d : PartialPeer) (key : List Char) (bs : List Block) :
    d.set .allowedIps key (commaJoin (bs.map Block.toChars)) =
      .ok { d with allowedIps := d.allowedIps ++ bs } := by
  rw [set, readItems_commaJoin Block.plain_toChars Block.toChars_ne_nil Block.ofChars?_toChars]
  rfl

/-- No numeral is the word for no keepalive. -/
theorem digits_ne_keepaliveOff (n : Nat) : digits n ≠ keepaliveOff := by
  have hno := Text.not_mem_digits n (show 'o'.isDigit = false by decide)
  intro h
  rw [h] at hno
  exact hno (by decide)

theorem set_persistentKeepalive (d : PartialPeer) (key : List Char) (n : UInt16) :
    d.set .persistentKeepalive key (digits n.toNat) = .ok { d with keepalive := some n } := by
  rw [set, if_neg (digits_ne_keepaliveOff _), readValue_of_eq_some (readWord16?_digits n)]
  rfl

end PartialPeer

namespace Peer

def said (p : Peer) : PartialPeer :=
  ⟨some p.publicKey, some p.endpoint, p.allowedIps, p.keepalive⟩

/-- What the entries of a peer say is all that it needs. -/
theorem complete_said (p : Peer) : p.said.complete = .ok p := rfl

theorem setAll_allowedIps (d : PartialPeer) (bs : List Block) : peerRules.setAll d
    (if bs.isEmpty then [] else [(.allowedIps, commaJoin (bs.map Block.toChars))]) =
      .ok { d with allowedIps := d.allowedIps ++ bs } := by
  by_cases hempty : bs = []
  · simp [hempty]
  · rw [if_neg (by simpa using hempty),
      SectionRules.setAll_cons_of_ok (PartialPeer.set_allowedIps _ _ _)]
    rfl

/-- Taking up all entries of a peer says all of it. -/
theorem setAll_entries (p : Peer) : peerRules.setAll .empty p.entries = .ok p.said := by
  have hhead : peerRules.setAll .empty [(.publicKey, p.publicKey.toChars),
      (.endpoint, p.endpoint.toChars)] = .ok ⟨some p.publicKey, some p.endpoint, [], none⟩ := by
    have hkey := PartialPeer.set_publicKey .empty PeerKey.publicKey.name.toList p.publicKey
    have hendpoint := PartialPeer.set_endpoint ⟨some p.publicKey, none, [], none⟩
      PeerKey.endpoint.name.toList p.endpoint
    rw [SectionRules.setAll_cons_of_ok hkey, PartialPeer.empty,
      SectionRules.setAll_cons_of_ok hendpoint]
    rfl
  have hallowed := SectionRules.setAll_append hhead (setAll_allowedIps _ p.allowedIps)
  refine SectionRules.setAll_append hallowed ?_
  cases hk : p.keepalive with
  | none => rw [said, hk, SectionRules.setAll_nil, List.nil_append]
  | some n =>
    rw [SectionRules.setAll_cons_of_ok (PartialPeer.set_persistentKeepalive _ _ _), said, hk]
    rfl

theorem clean_of_mem_entries (p : Peer) : ∀ e ∈ p.entries, Clean e.2 := by
  have hallowed := clean_commaJoin_of_plain Block.plain_toChars Block.toChars_ne_nil p.allowedIps
  simp only [entries, List.forall_mem_append]
  refine ⟨⟨?_, ?_⟩, ?_⟩
  · simp [p.publicKey.plain_toChars.clean, p.endpoint.plain_toChars.clean]
  · split
    · simp
    · simpa using hallowed
  · cases p.keepalive with
    | none => simp
    | some n => simpa using (Text.plain_digits n.toNat).clean

/-- No entry of a peer is left without a value. -/
theorem ne_nil_of_mem_entries (p : Peer) : ∀ e ∈ p.entries, e.2 ≠ [] := by
  simp only [entries, List.forall_mem_append]
  refine ⟨⟨?_, ?_⟩, ?_⟩
  · simp [p.publicKey.toChars_ne_nil, p.endpoint.toChars_ne_nil]
  · by_cases hempty : p.allowedIps = []
    · simp [hempty]
    · simp [hempty, commaJoin_map_eq_nil_iff Block.toChars_ne_nil]
  · cases p.keepalive with
    | none => simp
    | some n => simp [Text.digits_ne_nil]

end Peer

end VpnTunnel
