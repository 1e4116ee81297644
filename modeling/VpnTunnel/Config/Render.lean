import VpnTunnel.Config.Basic
import VpnTunnel.Config.Key

/-!
# Writing a configuration

The text of a configuration: the interface section, then each peer after an empty line. Lists stand
on one line between commas. Free text is written as it is.
-/

namespace VpnTunnel

/-- The entries that carry obfuscation parameters. An empty special packet is left out. -/
def Obfuscation.entries (o : Obfuscation) : List (InterfaceKey × List Char) :=
  [(.jc, Text.digits o.jc.toNat), (.jmin, Text.digits o.jmin.toNat),
    (.jmax, Text.digits o.jmax.toNat), (.s1, Text.digits o.s1.toNat),
    (.s2, Text.digits o.s2.toNat), (.h1, o.h1.toList), (.h2, o.h2.toList), (.h3, o.h3.toList),
    (.h4, o.h4.toList)] ++
  if o.i1.isEmpty then [] else [(.i1, o.i1.toList)]

/-- The entry that carries the application binding, if there is one. -/
def AppBinding.entries : AppBinding → List (InterfaceKey × List Char)
  | all => []
  | only apps => [(.includedApplications, Text.commaJoin (apps.toList.map String.toList))]
  | allBut apps => [(.excludedApplications, Text.commaJoin (apps.toList.map String.toList))]

def Interface.entries (i : Interface) : List (InterfaceKey × List Char) :=
  [(.privateKey, i.privateKey.toChars), (.address, Text.commaJoin (i.addresses.map Block.toChars))]
  ++ (if i.dns.isEmpty then [] else [(.dns, Text.commaJoin (i.dns.map Address.toChars))])
  ++ [(.mtu, Text.digits i.mtu.toNat)]
  ++ ((i.obfuscation.map Obfuscation.entries).getD [])
  ++ i.apps.entries

def Peer.entries (p : Peer) : List (PeerKey × List Char) :=
  [(.publicKey, p.publicKey.toChars), (.endpoint, p.endpoint.toChars)]
  ++ (if p.allowedIps.isEmpty then []
    else [(.allowedIps, Text.commaJoin (p.allowedIps.map Block.toChars))])
  ++ (match p.keepalive with
    | some seconds => [(.persistentKeepalive, Text.digits seconds.toNat)]
    | none => [])

/-- A line that sets a key. -/
def entryLine (name : String) (value : List Char) : List Char :=
  name.toList ++ [' ', '=', ' '] ++ value

def Interface.lines (i : Interface) : List (List Char) :=
  interfaceHeader :: i.entries.map fun e => entryLine e.1.name e.2

def Peer.lines (p : Peer) : List (List Char) :=
  [] :: peerHeader :: p.entries.map fun e => entryLine e.1.name e.2

namespace Config

def lines (c : Config) : List (List Char) := c.interface.lines ++ c.peers.flatMap Peer.lines

def toChars (c : Config) : List Char := c.lines.flatMap (· ++ ['\n'])

/-- The text of the configuration. -/
def render (c : Config) : String := String.ofList c.toChars

end Config

end VpnTunnel
