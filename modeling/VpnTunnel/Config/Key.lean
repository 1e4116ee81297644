import VpnTunnel.Text.Letter

/-!
# Keys of the configuration text

The names that may stand before the equals sign, by section. They compare without regard to the
case of ASCII letters.
-/

namespace VpnTunnel

/-- A key of the interface section. -/
inductive InterfaceKey where
  | privateKey
  | address
  | dns
  | mtu
  | jc
  | jmin
  | jmax
  | s1
  | s2
  | h1
  | h2
  | h3
  | h4
  | i1
  | includedApplications
  | excludedApplications
deriving DecidableEq, Repr

namespace InterfaceKey

def all : List InterfaceKey :=
  [privateKey, address, dns, mtu, jc, jmin, jmax, s1, s2, h1, h2, h3, h4, i1,
    includedApplications, excludedApplications]

def name : InterfaceKey → String
  | privateKey => "PrivateKey"
  | address => "Address"
  | dns => "DNS"
  | mtu => "MTU"
  | jc => "Jc"
  | jmin => "Jmin"
  | jmax => "Jmax"
  | s1 => "S1"
  | s2 => "S2"
  | h1 => "H1"
  | h2 => "H2"
  | h3 => "H3"
  | h4 => "H4"
  | i1 => "I1"
  | includedApplications => "IncludedApplications"
  | excludedApplications => "ExcludedApplications"

def ofChars? (s : List Char) : Option InterfaceKey :=
  all.find? fun k => Text.sameWord s k.name.toList

end InterfaceKey

/-- A key of a peer section. -/
inductive PeerKey where
  | publicKey
  | endpoint
  | allowedIps
  | persistentKeepalive
deriving DecidableEq, Repr

namespace PeerKey

def all : List PeerKey := [publicKey, endpoint, allowedIps, persistentKeepalive]

def name : PeerKey → String
  | publicKey => "PublicKey"
  | endpoint => "Endpoint"
  | allowedIps => "AllowedIPs"
  | persistentKeepalive => "PersistentKeepalive"

def ofChars? (s : List Char) : Option PeerKey :=
  all.find? fun k => Text.sameWord s k.name.toList

end PeerKey

/-- The header line of the interface section. -/
def interfaceHeader : List Char := "[Interface]".toList

/-- The header line of a peer section. -/
def peerHeader : List Char := "[Peer]".toList

end VpnTunnel
