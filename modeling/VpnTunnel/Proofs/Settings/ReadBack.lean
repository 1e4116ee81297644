import VpnTunnel.Proofs.Address.Written
import VpnTunnel.Proofs.Document.Leeway
import VpnTunnel.Proofs.Text.Names
import VpnTunnel.Settings.Document

/-!
# Settings are read back

Settings that have been written as an object are read back as they were, also when members that stand
at their defaults have been left out, members of other names have been added and all have been put
into another order, at every level. A profile that is left out is the built-in one, which nobody may
edit; one that is there and does not say whether it may be edited may be.
-/

namespace VpnTunnel

open Document

namespace Document

variable {α β : Type}

/-- A reader of several parts reads them one by one. -/
theorem bind_eq_some {part : Option α} {rest : α → Option β} {a : α} {b : β} (hpart : part = some a)
    (hrest : rest a = some b) : (part >>= rest) = some b := by
  rw [hpart]
  exact hrest

theorem readWord32_toNat (n : UInt32) : readWord32 (.int n.toNat) = some n := by
  have hlt : (n.toNat : Int) < (2 ^ 32 : Nat) := Int.ofNat_lt.mpr n.toNat_lt
  rw [readWord32, readBelow, if_pos ⟨Int.natCast_nonneg _, hlt⟩, Int.toNat_natCast, Option.map_some,
    UInt32.ofNat_toNat]

theorem readList_arr {r : Reader α} {write : α → Value} (h : ∀ a, r (write a) = some a)
    (xs : List α) : readList r (.arr (xs.map write)) = some xs := by
  change (xs.map write).mapM r = some xs
  induction xs with
  | nil => rfl
  | cons x xs ih =>
    rw [List.map_cons, List.mapM_cons, h, ih]
    rfl

/-- What is read back is written in a way of its own. -/
theorem eq_of_write_eq {r : Reader α} {write : α → Value} (h : ∀ a, r (write a) = some a) {a b : α}
    (heq : write a = write b) : a = b := by
  have ha := h a
  rw [heq, h b] at ha
  exact (Option.some.inj ha).symm

theorem readString_str (s : String) : readString (.str s) = some s := rfl

theorem readList_ofStrings (names : List String) :
    readList readString (.ofStrings names) = some names := readList_arr readString_str names

/-- An address is read back from its text. -/
theorem readAddress_toString (a : Address) : readAddress (.str a.toString) = some a := by
  change Address.ofChars? a.toString.toList = some a
  rw [Address.toString, String.toList_ofList, a.ofChars?_toChars]

theorem readList_addresses (addresses : List Address) :
    readList readAddress (.ofStrings (addresses.map Address.toString)) = some addresses := by
  rw [Value.ofStrings, List.map_map]
  exact readList_arr readAddress_toString addresses

end Document

theorem SplitMode.read_name (d : Dialect) (m : SplitMode) : read d (.str m.name) = some m := by
  cases m <;> rfl

theorem Transport.read_name (d : Dialect) (t : Transport) : read d (.str t.name) = some t := by
  cases t <;> rfl

namespace Split

def spare : Fields := [("mode", .str "off"), ("apps", .arr []), ("ips", .arr [])]

def leeway : Leeway := .object memberNames spare fun _ => .asIs

theorem allows_toValue (s : Split) : leeway.Allows s.toValue s.toValue :=
  Leeway.allows_self fun _ _ => rfl

/-- A split is read back from all that may be written for it. -/
theorem read_of_allows {s : Split} {v : Value} (d : Dialect) (h : leeway.Allows s.toValue v) :
    read d v = some s := by
  obtain ⟨fs, hfields, hgiven⟩ := h.exists_fields rfl (by decide) d
  simp only [List.forall_mem_cons] at hgiven
  obtain ⟨hmode, happs, hips, -⟩ := hgiven
  have hmode : fs.optional "mode" .off (SplitMode.read d) = some s.mode := by
    apply hmode.optional_eq
    · cases s.mode <;> simp [spare, SplitMode.name]
    · rintro _ rfl
      exact SplitMode.read_name d s.mode
  have happs : fs.optional "apps" [] (readList readString) = some s.apps.toList := by
    apply happs.optional_eq
    · simp [spare, Value.ofStrings]
    · rintro _ rfl
      exact readList_ofStrings s.apps.toList
  have hips : fs.optional "ips" [] (readList readString) = some s.ips.toList := by
    apply hips.optional_eq
    · simp [spare, Value.ofStrings]
    · rintro _ rfl
      exact readList_ofStrings s.ips.toList
  have hsets : some (⟨s.mode, .ofList s.apps.toList, .ofList s.ips.toList⟩ : Split) = some s := by
    rw [NameSet.ofList_toList, NameSet.ofList_toList]
  exact bind_eq_some hfields <| bind_eq_some hmode <| bind_eq_some happs <| bind_eq_some hips hsets

theorem toValue_inj {s t : Split} (h : s.toValue = t.toValue) : s = t :=
  eq_of_write_eq (fun s => read_of_allows .json s.allows_toValue) h

end Split

namespace Profile

/-- What a profile need not say of itself. -/
def spare : Fields := [("read_only", .bool false), ("i1", .str builtInI1)]

def leeway : Leeway := .object memberNames spare fun _ => .asIs

theorem allows_toValue (p : Profile) : leeway.Allows p.toValue p.toValue :=
  Leeway.allows_self fun _ _ => rfl

/-- A profile is read back from all that may be written for it. -/
theorem read_of_allows {p : Profile} {v : Value} (d : Dialect) (h : leeway.Allows p.toValue v) :
    read d v = some p := by
  obtain ⟨fs, hfields, hgiven⟩ := h.exists_fields rfl (by decide) d
  have hnumber {name : String} {n : UInt32}
      (h : Given spare (fun _ => Leeway.asIs.Allows) fs (name, .int n.toNat))
      (hspare : name ∉ spare.map Prod.fst) : fs.required name readWord32 = some n := by
    apply h.required_eq hspare
    rintro _ rfl
    exact readWord32_toNat n
  have htext {name s : String}
      (h : Given spare (fun _ => Leeway.asIs.Allows) fs (name, .str s))
      (hspare : name ∉ spare.map Prod.fst) : fs.required name readString = some s := by
    apply h.required_eq hspare
    rintro _ rfl
    rfl
  simp only [List.forall_mem_cons] at hgiven
  obtain ⟨hid, hname, hreadOnly, hjc, hjmin, hjmax, hs1, hs2, hh1, hh2, hh3, hh4, hi1, -⟩ := hgiven
  have hreadOnly : fs.optional "read_only" false readBool = some p.readOnly := by
    apply hreadOnly.optional_eq
    · simp [spare]
    · rintro _ rfl
      rfl
  have hi1 : fs.optional "i1" builtInI1 readString = some p.params.i1 := by
    apply hi1.optional_eq
    · simp [spare]
    · rintro _ rfl
      rfl
  exact bind_eq_some hfields <|
    bind_eq_some (hnumber hid (by decide)) <|
    bind_eq_some (htext hname (by decide)) <|
    bind_eq_some hreadOnly <|
    bind_eq_some (hnumber hjc (by decide)) <|
    bind_eq_some (hnumber hjmin (by decide)) <|
    bind_eq_some (hnumber hjmax (by decide)) <|
    bind_eq_some (hnumber hs1 (by decide)) <|
    bind_eq_some (hnumber hs2 (by decide)) <|
    bind_eq_some (htext hh1 (by decide)) <|
    bind_eq_some (htext hh2 (by decide)) <|
    bind_eq_some (htext hh3 (by decide)) <|
    bind_eq_some (htext hh4 (by decide)) <|
    bind_eq_some hi1 rfl

theorem toValue_inj {p q : Profile} (h : p.toValue = q.toValue) : p = q :=
  eq_of_write_eq (fun p => read_of_allows .json p.allows_toValue) h

end Profile

namespace Settings

def spare : Fields := [
  ("ipv6_enabled", .bool true),
  ("custom_dns", .arr []),
  ("lan_connections", .bool false),
  ("protocol", .str "UDP"),
  ("split_tunneling", Split.off.toValue),
  ("obfuscation_profile", Profile.builtIn.toValue)]

/-- How freely settings may be written, and the split and the profile in them. -/
def leeway : Leeway := .object memberNames spare fun
  | "split_tunneling" => Split.leeway
  | "obfuscation_profile" => Profile.leeway
  | _ => .asIs

theorem allows_toValue (s : Settings) : leeway.Allows s.toValue s.toValue := by
  apply Leeway.allows_self
  simp only [List.forall_mem_cons]
  exact ⟨rfl, rfl, rfl, rfl, s.split.allows_toValue, s.profile.allows_toValue, by simp⟩

/-- Of the default settings nothing need be written. -/
theorem allows_default : leeway.Allows default.toValue (.obj []) :=
  Leeway.allows_empty fun _ hm => hm

/-- Settings are read back from all that may be written for them. -/
theorem read_of_allows {s : Settings} {v : Value} (d : Dialect) (h : leeway.Allows s.toValue v) :
    read d v = some s := by
  obtain ⟨fs, hfields, hgiven⟩ := h.exists_fields rfl (by decide) d
  simp only [List.forall_mem_cons] at hgiven
  obtain ⟨hipv6, hresolvers, hlan, htransport, hsplit, hprofile, -⟩ := hgiven
  have hipv6 : fs.optional "ipv6_enabled" true readBool = some s.allowsIpv6 := by
    apply hipv6.optional_eq
    · simp [spare]
    · rintro _ rfl
      rfl
  have hresolvers :
      fs.optional "custom_dns" [] (readList readAddress) = some s.resolvers := by
    apply hresolvers.optional_eq
    · simp [spare, Value.ofStrings]
    · rintro _ rfl
      exact readList_addresses s.resolvers
  have hlan : fs.optional "lan_connections" false readBool = some s.directLan := by
    apply hlan.optional_eq
    · simp [spare]
    · rintro _ rfl
      rfl
  have htransport : fs.optional "protocol" .udp (Transport.read d) = some s.transport := by
    apply htransport.optional_eq
    · cases s.transport <;> simp [spare, Transport.name]
    · rintro _ rfl
      exact Transport.read_name d s.transport
  have hsplit : fs.optional "split_tunneling" .off (Split.read d) = some s.split := by
    apply hsplit.optional_eq
    · intro hmem
      apply Split.toValue_inj
      simpa [spare] using hmem
    · exact fun w => Split.read_of_allows d
  have hprofile : fs.optional "obfuscation_profile" .builtIn (Profile.read d) =
      some s.profile := by
    apply hprofile.optional_eq
    · intro hmem
      apply Profile.toValue_inj
      simpa [spare] using hmem
    · exact fun w => Profile.read_of_allows d
  exact bind_eq_some hfields <|
    bind_eq_some hipv6 <|
    bind_eq_some hresolvers <|
    bind_eq_some hlan <|
    bind_eq_some htransport <|
    bind_eq_some hsplit <|
    bind_eq_some hprofile rfl

/-- Settings are read back from every object that may be written for them, with any of the members
left out that stand at their defaults, in any order, and among members of other names, at every level.
The object with all members is one of these, and for the default settings so is the one without
any. -/
theorem ofJson?_of_allows (s : Settings) :
    leeway.Allows s.toValue s.toValue ∧
    leeway.Allows default.toValue (.obj []) ∧
    ∀ v, leeway.Allows s.toValue v →
      read .json v = some s ∧ ∀ text, Json.ofString? text = some v → ofJson? text = some s := by
  refine ⟨s.allows_toValue, allows_default, fun v h => ?_⟩
  have hread : read .json v = some s := read_of_allows .json h
  refine ⟨hread, fun text htext => ?_⟩
  rw [ofJson?, htext]
  exact hread

def editedSettings : Settings where
  allowsIpv6 := true
  resolvers := []
  directLan := false
  transport := .udp
  split := .ofIps .excludeIps ["10.0.0.1"]
  profile := ⟨3, "x", false, ⟨4, 10, 50, 9, 0, "1", "2", "3", "4", Profile.builtInI1⟩⟩

/-- What is left of the members of the split, of the profile and of the settings when those at their
defaults are left out, with one more of a name that is not known there. -/
def editedSplitMembers : Fields :=
  [("mode", .str "exclude-ips"), ("ips", .arr [.str "10.0.0.1"]), ("note", .null)]

def editedProfileMembers : Fields :=
  [("id", .int 3), ("name", .str "x"), ("jc", .int 4), ("jmin", .int 10), ("jmax", .int 50),
    ("s1", .int 9), ("s2", .int 0), ("h1", .str "1"), ("h2", .str "2"), ("h3", .str "3"),
    ("h4", .str "4"), ("ips", .null)]

def editedMembers : Fields :=
  [("split_tunneling", .obj editedSplitMembers.reverse),
    ("obfuscation_profile", .obj editedProfileMembers.reverse), ("theme", .int 7)]

/-- The members from behind, at every level. -/
def editedText : String :=
  "\x7b\"theme\":7,\"obfuscation_profile\":\x7b\"ips\":null,\"h4\":\"4\",\"h3\":\"3\",\"h2\":\"2\"," ++
  "\"h1\":\"1\",\"s2\":0,\"s1\":9,\"jmax\":50,\"jmin\":10,\"jc\":4,\"name\":\"x\",\"id\":3\x7d," ++
  "\"split_tunneling\":\x7b\"note\":null,\"ips\":[\"10.0.0.1\"],\"mode\":\"exclude-ips\"\x7d\x7d"

theorem allows_editedSplit :
    Split.leeway.Allows editedSettings.split.toValue (.obj editedSplitMembers.reverse) := by
  refine ⟨_, [_, _], [_], _, rfl, ?_, by simp [Split.memberNames], List.reverse_perm _, rfl⟩
  exact .keep rfl (.leaveOut (.tail _ (.head _)) (.keep rfl .nil))

theorem allows_editedProfile :
    Profile.leeway.Allows editedSettings.profile.toValue (.obj editedProfileMembers.reverse) := by
  refine ⟨_, [_, _, _, _, _, _, _, _, _, _, _], [_], _, rfl, ?_, by simp [Profile.memberNames],
    List.reverse_perm _, rfl⟩
  refine .keep rfl (.keep rfl (.leaveOut (.head _) ?_))
  refine .keep rfl (.keep rfl (.keep rfl (.keep rfl (.keep rfl ?_))))
  exact .keep rfl (.keep rfl (.keep rfl (.keep rfl (.leaveOut (.tail _ (.head _)) .nil))))

theorem allows_edited :
    leeway.Allows editedSettings.toValue (.obj editedMembers.reverse) := by
  refine ⟨_, [_, _], [_], _, rfl, ?_, by simp [memberNames], List.reverse_perm _, rfl⟩
  refine .leaveOut (.head _) (.leaveOut (.tail _ (.head _)) ?_)
  refine .leaveOut (.tail _ (.tail _ (.head _))) (.leaveOut ?_ ?_)
  · exact .tail _ (.tail _ (.tail _ (.head _)))
  · exact .keep allows_editedSplit (.keep allows_editedProfile .nil)

theorem ofJson?_editedText :
    leeway.Allows editedSettings.toValue (.obj editedMembers.reverse) ∧
      Json.ofString? editedText = some (.obj editedMembers.reverse) ∧
      ofJson? editedText = some editedSettings := by
  have htext : Json.ofString? editedText = some (.obj editedMembers.reverse) := by
    -- the text is spelt out first, so that only its characters are left to be read
    rw [Json.ofString?]
    conv => lhs; arg 1; cbv
    set_option maxRecDepth 1000 in
    rfl
  have hread := (ofJson?_of_allows editedSettings).2.2 _ allows_edited
  exact ⟨allows_edited, htext, hread.2 _ htext⟩

end Settings

end VpnTunnel
