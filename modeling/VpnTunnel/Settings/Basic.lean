import VpnTunnel.Profile
import VpnTunnel.Server.Basic
import VpnTunnel.Routing

/-!
# Settings

What a user has chosen, as a snapshot.
-/

namespace VpnTunnel

structure Settings where
  allowsIpv6 : Bool
  /-- Resolvers placed ahead of the tunnel's own. -/
  resolvers : List Address
  /-- Direct connections to the local network are wanted. -/
  directLan : Bool
  transport : Transport
  split : Split
  profile : Profile
deriving DecidableEq

namespace Settings

def default : Settings := ⟨true, [], false, .udp, .off, .builtIn⟩

/-- The route policy of a connection made under these settings. -/
def routePolicy (s : Settings) (bootstrap : Bool) : RoutePolicy := ⟨bootstrap, s.directLan⟩

end Settings

end VpnTunnel
