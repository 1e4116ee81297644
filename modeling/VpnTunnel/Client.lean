import VpnTunnel.Attempt
import VpnTunnel.Config.Basic

/-!
# Clients

What a client brings to every tunnel, and the configuration that it makes for an attempt, from the
settings, a private key and an obfuscation profile. What is missing is reported in a fixed order:
the entry address, the peer's key, the private key, and last a profile that contradicts itself.
-/

namespace VpnTunnel

/-- The MTU for networks that mangle larger packets. -/
def cautiousMtu : UInt16 := 1280

/-- Seconds between keepalive packets, the same for every tunnel. -/
def keepaliveSeconds : UInt16 := 60

structure Client where
  mtu : UInt16
  /-- The name under which the client is known as an application. -/
  package : String
  ipv4 : Ipv4
  /-- The tunnel's own resolver, in either family. -/
  resolver4 : Ipv4
  ipv6 : Ipv6
  resolver6 : Ipv6
deriving DecidableEq

namespace Client

def standardPackage : String := "com.veil.client"

def standard : Client where
  mtu := defaultMtu
  package := standardPackage
  ipv4 := .ofOctets 10 2 0 2
  resolver4 := .ofOctets 10 2 0 1
  ipv6 := .ofGroups [0xfd7d, 0x76ee, 0xe68f, 0xa993, 0, 0, 0, 2]
  resolver6 := .ofGroups [0xfd7d, 0x76ee, 0xe68f, 0xa993, 0, 0, 0, 1]

/-- The interface's addresses, one in each family in use. -/
def addresses (c : Client) (dualStack : Bool) : List Block :=
  .v4 (.single c.ipv4) :: if dualStack then [.v6 (.single c.ipv6)] else []

def ownResolvers (c : Client) (dualStack : Bool) : List Address :=
  .v4 c.resolver4 :: if dualStack then [.v6 c.resolver6] else []

/-- The user's resolvers that the tunnel can reach, then its own, each once. -/
def resolvers (c : Client) (dualStack : Bool) (custom : List Address) : List Address :=
  (custom.filter (fun a => a.isV4 || dualStack) ++ c.ownResolvers dualStack).eraseDups

end Client

namespace Attempt

/-- Where to connect: the replaced entry address, or the node's for the transport. -/
def endpoint (a : Attempt) : Except ConfigError Endpoint :=
  match a.entry <|> a.exit.node.entryFor a.transport with
  | some ip => .ok ⟨ip, a.port⟩
  | none => .error .noEntry

/-- The public key of the node. -/
def peerKey (a : Attempt) : Except ConfigError PublicKey :=
  match a.exit.node.publicKey with
  | some text => (PublicKey.ofChars text.toList).mapError .badKey
  | none => .error .noPeerKey

end Attempt

namespace Client

/-- The configuration from all its parts. -/
def configOf (c : Client) (attempt : Attempt) (settings : Settings) (endpoint : Endpoint)
    (peerKey : PublicKey) (privateKey : PrivateKey) (profile : Profile) : Config :=
  let dualStack := attempt.isDualStack
  { interface :=
      { privateKey
        addresses := c.addresses dualStack
        dns := c.resolvers dualStack settings.resolvers
        mtu := c.mtu
        obfuscation := some profile.params
        apps := .ofSplit settings.split c.package }
    peers :=
      [{ publicKey := peerKey
         endpoint
         allowedIps := (settings.routePolicy attempt.intent.isBootstrap).routes settings.split
         keepalive := some keepaliveSeconds }] }

/-- The configuration with the given private key and profile. -/
def configWith (c : Client) (attempt : Attempt) (settings : Settings)
    (privateKey : Option PrivateKey) (profile : Profile) : Except ConfigError Config := do
  let endpoint ← attempt.endpoint
  let peerKey ← attempt.peerKey
  match privateKey with
  | none => .error .noPrivateKey
  | some privateKey =>
    profile.check.mapError .badObfuscation
    return c.configOf attempt settings endpoint peerKey privateKey profile

/-- The configuration with the private key that `ask` gives for the attempt's session, and with the
profile of the settings. Asking may have effects of its own; it is done when the entry address and
the peer's key are there. -/
def configAsking {m : Type → Type} [Monad m] (c : Client) (attempt : Attempt) (settings : Settings)
    (ask : String → m (Except KeyError PrivateKey)) : ExceptT ConfigError m Config := do
  let endpoint ← ofExcept attempt.endpoint
  let peerKey ← ofExcept attempt.peerKey
  let answer ← ask attempt.session
  let privateKey ← ofExcept (answer.mapError fun _ => .noPrivateKey)
  ofExcept (settings.profile.check.mapError .badObfuscation)
  return c.configOf attempt settings endpoint peerKey privateKey settings.profile

/-- The configuration with the private key that `keys` supplies. -/
def configFor (c : Client) (attempt : Attempt) (settings : Settings) (keys : KeySource) :
    Except ConfigError Config :=
  Id.run (c.configAsking attempt settings keys).run

end Client

end VpnTunnel
