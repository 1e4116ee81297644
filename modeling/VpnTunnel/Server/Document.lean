import VpnTunnel.Document.Json
import VpnTunnel.Document.Reader
import VpnTunnel.Server.Basic

/-!
# Servers as documents

The members under which a directory describes a server and its nodes.
-/

namespace VpnTunnel

open Document

/-- Reads addresses by the names of transports; of members that repeat the last counts. -/
def EntryTable.read : Reader EntryTable
  | .obj members => members.foldlM (fun e m => do
      let t ← Transport.all.find? (·.name == m.1)
      return e.insert t (← readAddress m.2)) .empty
  | _ => none

namespace Node

def memberNames : List String :=
  ["id", "entry_domain", "entry_ip", "entry_ips", "exit_ip", "public_key_x25519", "online", "load"]

def read (d : Dialect) : Reader Node := fun v => do
  let fs ← fields d memberNames v
  let id ← fs.required "id" readString
  let entryDomain ← fs.required "entry_domain" readString
  let defaultEntry ← fs.optional "entry_ip" none (readNullable readAddress)
  let entries ← fs.optional "entry_ips" .empty EntryTable.read
  let exitIp ← fs.optional "exit_ip" none (readNullable readAddress)
  let publicKey ← fs.optional "public_key_x25519" none (readNullable readString)
  let online ← fs.optional "online" true readBool
  let load ← fs.optional "load" ⟨0⟩ readSingle
  return ⟨id, entryDomain, defaultEntry, entries, exitIp, publicKey, online, load⟩

end Node

namespace Server

def memberNames : List String :=
  ["server_id", "name", "entry_country", "exit_country", "city", "tier", "features", "load",
    "online", "connecting_domains"]

def read (d : Dialect) : Reader Server := fun v => do
  let fs ← fields d memberNames v
  let id ← fs.required "server_id" readString
  let name ← fs.required "name" readString
  let entryCountry ← fs.required "entry_country" readString
  let exitCountry ← fs.required "exit_country" readString
  let city ← fs.optional "city" none (readNullable readString)
  let tier ← fs.optional "tier" 0 readWord8
  let features ← fs.optional "features" 0 readWord32
  let load ← fs.optional "load" ⟨0⟩ readSingle
  let online ← fs.optional "online" true readBool
  let nodes ← fs.required "connecting_domains" (readList (Node.read d))
  return ⟨id, name, entryCountry, exitCountry, city, tier, ⟨features⟩, load, online, nodes⟩

def ofJson? (text : String) : Option Server := (Json.ofString? text).bind (read .json)

end Server

end VpnTunnel
