import VpnTunnel.Document.Json
import VpnTunnel.Document.Reader
import VpnTunnel.Document.Toml.Parse
import VpnTunnel.Document.Toml.Print
import VpnTunnel.Settings.Basic

/-!
# Settings as documents

The members under which settings, and the split tunnel and the obfuscation profile inside them, are
written, read in JSON and TOML alike. Members that have a default may be left out.
-/

namespace VpnTunnel

open Document

namespace SplitMode

def read (d : Dialect) : Reader SplitMode := readChoice d (all.map fun m => (m.name, m))

end SplitMode

namespace Split

def memberNames : List String := ["mode", "apps", "ips"]

def read (d : Dialect) : Reader Split := fun v => do
  let fs ← fields d memberNames v
  let mode ← fs.optional "mode" .off (SplitMode.read d)
  let apps ← fs.optional "apps" [] (readList readString)
  let ips ← fs.optional "ips" [] (readList readString)
  return ⟨mode, .ofList apps, .ofList ips⟩

def toValue (s : Split) : Value :=
  .obj [
    ("mode", .str s.mode.name),
    ("apps", .ofStrings s.apps.toList),
    ("ips", .ofStrings s.ips.toList)]

end Split

namespace Transport

/-- Reads the exact name of a transport. -/
def read (d : Dialect) : Reader Transport := readChoice d (all.map fun t => (t.name, t))

end Transport

namespace Profile

def memberNames : List String :=
  ["id", "name", "read_only", "jc", "jmin", "jmax", "s1", "s2", "h1", "h2", "h3", "h4", "i1"]

def read (d : Dialect) : Reader Profile := fun v => do
  let fs ← fields d memberNames v
  let id ← fs.required "id" readWord32
  let name ← fs.required "name" readString
  let readOnly ← fs.optional "read_only" false readBool
  let jc ← fs.required "jc" readWord32
  let jmin ← fs.required "jmin" readWord32
  let jmax ← fs.required "jmax" readWord32
  let s1 ← fs.required "s1" readWord32
  let s2 ← fs.required "s2" readWord32
  let h1 ← fs.required "h1" readString
  let h2 ← fs.required "h2" readString
  let h3 ← fs.required "h3" readString
  let h4 ← fs.required "h4" readString
  let i1 ← fs.optional "i1" builtInI1 readString
  return ⟨id, name, readOnly, ⟨jc, jmin, jmax, s1, s2, h1, h2, h3, h4, i1⟩⟩

def toValue (p : Profile) : Value :=
  .obj [
    ("id", .int p.id.toNat),
    ("name", .str p.name),
    ("read_only", .bool p.readOnly),
    ("jc", .int p.params.jc.toNat),
    ("jmin", .int p.params.jmin.toNat),
    ("jmax", .int p.params.jmax.toNat),
    ("s1", .int p.params.s1.toNat),
    ("s2", .int p.params.s2.toNat),
    ("h1", .str p.params.h1),
    ("h2", .str p.params.h2),
    ("h3", .str p.params.h3),
    ("h4", .str p.params.h4),
    ("i1", .str p.params.i1)]

def ofJson? (text : String) : Option Profile := (Json.ofString? text).bind (read .json)

end Profile

namespace Settings

def memberNames : List String :=
  ["ipv6_enabled", "custom_dns", "lan_connections", "protocol", "split_tunneling",
    "obfuscation_profile"]

def read (d : Dialect) : Reader Settings := fun v => do
  let fs ← fields d memberNames v
  let allowsIpv6 ← fs.optional "ipv6_enabled" true readBool
  let resolvers ← fs.optional "custom_dns" [] (readList readAddress)
  let directLan ← fs.optional "lan_connections" false readBool
  let transport ← fs.optional "protocol" .udp (Transport.read d)
  let split ← fs.optional "split_tunneling" .off (Split.read d)
  let profile ← fs.optional "obfuscation_profile" .builtIn (Profile.read d)
  return ⟨allowsIpv6, resolvers, directLan, transport, split, profile⟩

def toValue (s : Settings) : Value :=
  .obj [
    ("ipv6_enabled", .bool s.allowsIpv6),
    ("custom_dns", .ofStrings (s.resolvers.map Address.toString)),
    ("lan_connections", .bool s.directLan),
    ("protocol", .str s.transport.name),
    ("split_tunneling", s.split.toValue),
    ("obfuscation_profile", s.profile.toValue)]

def ofJson? (text : String) : Option Settings := (Json.ofString? text).bind (read .json)

def ofToml? (text : String) : Option Settings := (Toml.ofString? text).bind (read .toml)

/-- The settings with some members replaced. -/
def withMembers? (s : Settings) (changes : List (String × Value)) : Option Settings :=
  read .json (s.toValue.override changes)

/-- The settings as a TOML text. -/
def tomlText (s : Settings) : String :=
  let string (s : String) := Toml.stringText s.toList
  let strings (names : List String) := Toml.arrayText (names.map string)
  let p := s.profile.params
  let number (n : UInt32) := Toml.naturalText n.toNat
  String.ofList <| List.flatten [
    Toml.entryText "ipv6_enabled" (Toml.boolText s.allowsIpv6),
    Toml.entryText "custom_dns" (strings (s.resolvers.map Address.toString)),
    Toml.entryText "lan_connections" (Toml.boolText s.directLan),
    Toml.entryText "protocol" (string s.transport.name),
    Toml.headerText "split_tunneling",
    Toml.entryText "mode" (string s.split.mode.name),
    Toml.entryText "apps" (strings s.split.apps.toList),
    Toml.entryText "ips" (strings s.split.ips.toList),
    Toml.headerText "obfuscation_profile",
    Toml.entryText "id" (number s.profile.id),
    Toml.entryText "name" (string s.profile.name),
    Toml.entryText "read_only" (Toml.boolText s.profile.readOnly),
    Toml.entryText "jc" (number p.jc),
    Toml.entryText "jmin" (number p.jmin),
    Toml.entryText "jmax" (number p.jmax),
    Toml.entryText "s1" (number p.s1),
    Toml.entryText "s2" (number p.s2),
    Toml.entryText "h1" (string p.h1),
    Toml.entryText "h2" (string p.h2),
    Toml.entryText "h3" (string p.h3),
    Toml.entryText "h4" (string p.h4),
    Toml.entryText "i1" (string p.i1)]

end Settings

end VpnTunnel
