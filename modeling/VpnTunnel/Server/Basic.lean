import VpnTunnel.Address.Block
import VpnTunnel.Number.Binary
import VpnTunnel.Text.Letter

/-!
# Servers

A logical server is an exit that is reached through one of its nodes. Both are read-only snapshots
of a directory.
-/

namespace VpnTunnel

/-- The transport between the client and the entry node. -/
inductive Transport where
  | udp
  | tcp
  | tls
deriving DecidableEq, Repr

namespace Transport

def all : List Transport := [udp, tcp, tls]

def name : Transport → String
  | udp => "UDP"
  | tcp => "TCP"
  | tls => "TLS"

/-- The transport whose name is the upper-case form of the text. -/
def ofString? (s : String) : Option Transport :=
  all.find? fun t => Text.uppersTo s.toList t.name

/-- What a text that names no transport is refused with. -/
def refusal (s : String) : String := "unknown protocol: " ++ s

end Transport

/-- The features of a server, one bit each. -/
structure Features where
  bits : UInt32
deriving DecidableEq, Repr

namespace Features

def secureCore : Features := ⟨1⟩
def tor : Features := ⟨2⟩
def p2p : Features := ⟨4⟩
def streaming : Features := ⟨8⟩
def ipv6 : Features := ⟨16⟩

/-- Whether every feature of `b` is one of `a`. -/
def contains (a b : Features) : Bool := a.bits &&& b.bits == b.bits

def union (a b : Features) : Features := ⟨a.bits ||| b.bits⟩

end Features

/-- The entry addresses that a node has for single transports. -/
structure EntryTable where
  udp : Option Address
  tcp : Option Address
  tls : Option Address
deriving DecidableEq, Repr

namespace EntryTable

def empty : EntryTable := ⟨none, none, none⟩

def find? (e : EntryTable) : Transport → Option Address
  | .udp => e.udp
  | .tcp => e.tcp
  | .tls => e.tls

def insert (e : EntryTable) (t : Transport) (a : Address) : EntryTable :=
  match t with
  | .udp => { e with udp := some a }
  | .tcp => { e with tcp := some a }
  | .tls => { e with tls := some a }

/-- The addresses with their transports, in the order of the transports. -/
def toList (e : EntryTable) : List (Transport × Address) :=
  Transport.all.filterMap fun t => (e.find? t).map fun a => (t, a)

end EntryTable

/-- One of the machines behind a server. -/
structure Node where
  id : String
  entryDomain : String
  /-- The entry address for the transports that have none of their own. -/
  defaultEntry : Option Address
  entries : EntryTable
  exitIp : Option Address
  /-- The base64 text of the node's public key. -/
  publicKey : Option String
  online : Bool
  load : Number.Single
deriving DecidableEq, Repr

/-- The entry address for a transport: its own, or the default one. -/
def Node.entryFor (n : Node) (t : Transport) : Option Address :=
  n.entries.find? t <|> n.defaultEntry

structure Server where
  id : String
  name : String
  entryCountry : String
  exitCountry : String
  city : Option String
  tier : UInt8
  features : Features
  load : Number.Single
  online : Bool
  nodes : List Node
deriving DecidableEq, Repr

/-- The first of the nodes with the least load, `best` being the least so far. -/
def leastLoaded (best : Node) (rest : List Node) : Node :=
  rest.foldl (fun best n => if n.load.rank < best.load.rank then n else best) best

namespace Server

def hasIpv6 (s : Server) : Bool := s.features.contains .ipv6

def hasSecureCore (s : Server) : Bool := s.features.contains .secureCore

/-- The nodes that take connections now. -/
def onlineNodes (s : Server) : List Node := s.nodes.filter (·.online)

/-- The least loaded online node; of several the first. -/
def bestNode? (s : Server) : Option Node :=
  match s.onlineNodes with
  | [] => none
  | n :: rest => some (leastLoaded n rest)

def node? (s : Server) (id : String) : Option Node := s.nodes.find? (·.id == id)

end Server

/-- A server together with the node chosen to reach it. -/
structure Exit where
  server : Server
  node : Node
deriving DecidableEq, Repr

/-- The server with its best node. -/
def Exit.best? (s : Server) : Option Exit := s.bestNode?.map fun n => ⟨s, n⟩

end VpnTunnel
