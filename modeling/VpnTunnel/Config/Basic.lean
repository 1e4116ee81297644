import VpnTunnel.Address.Endpoint
import VpnTunnel.Key.Basic
import VpnTunnel.Profile
import VpnTunnel.Routing

/-!
# Tunnel configurations

A configuration has one interface, the local side, and any number of peers. It is what an engine
needs to bring a tunnel up.
-/

namespace VpnTunnel

/-- The local side of a tunnel. Without obfuscation it is a plain interface. -/
structure Interface where
  privateKey : PrivateKey
  addresses : List Block
  dns : List Address
  mtu : UInt16
  obfuscation : Option Obfuscation
  apps : AppBinding
deriving DecidableEq

/-- The remote side of a tunnel, with the destinations routed through it. -/
structure Peer where
  publicKey : PublicKey
  endpoint : Endpoint
  allowedIps : List Block
  /-- Seconds between keepalive packets. -/
  keepalive : Option UInt16
deriving DecidableEq

structure Config where
  interface : Interface
  peers : List Peer
deriving DecidableEq

/-- The MTU of an interface that names none. -/
def defaultMtu : UInt16 := 1420

/-- Why a line of a configuration text, or the text as a whole, is refused. -/
inductive ConfigFault where
  | duplicateInterface
  | unknownSection (header : String)
  | noEquals
  | emptyValue (key : String)
  | outsideSection
  | invalidValue (key value : String)
  | invalidEndpoint (value : String)
  | unknownInterfaceKey (key : String)
  | unknownPeerKey (key : String)
  | missingInterface
  | appsExclusive
  /-- A fault that another reader of the format described. -/
  | described (reason : String)
deriving DecidableEq, Repr

def ConfigFault.message : ConfigFault → String
  | duplicateInterface => "duplicate [Interface]"
  | unknownSection header => "unknown section " ++ header
  | noEquals => "expected key = value"
  | emptyValue key => "empty value for " ++ key
  | outsideSection => "key outside section"
  | invalidValue key value => "invalid " ++ key ++ ": " ++ value
  | invalidEndpoint value => Endpoint.refusal value
  | unknownInterfaceKey key => "unknown interface key " ++ key
  | unknownPeerKey key => "unknown peer key " ++ key
  | missingInterface => "missing [Interface] section"
  | appsExclusive => "IncludedApplications and ExcludedApplications are exclusive"
  | described reason => reason

/-- Why there is no configuration. A fault of the text as a whole is at line 0. -/
inductive ConfigError where
  | noEntry
  | noPeerKey
  | noPrivateKey
  | badObfuscation (sizes : InvertedJunkSizes)
  | badKey (cause : KeyError)
  | parse (line : Nat) (fault : ConfigFault)
deriving DecidableEq, Repr

def ConfigError.message : ConfigError → String
  | noEntry => "No entry IP for the connecting domain"
  | noPeerKey => "Connecting domain has no X25519 public key"
  | noPrivateKey => "No private key for the session"
  | badObfuscation sizes =>
    "Invalid obfuscation profile: jmin " ++ toString sizes.jmin.toNat ++ " > jmax " ++
      toString sizes.jmax.toNat
  | badKey cause => "Invalid key: " ++ cause.message
  | parse line fault => "Parse error at line " ++ toString line ++ ": " ++ fault.message

end VpnTunnel
