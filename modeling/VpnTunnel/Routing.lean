import VpnTunnel.Address.Specifier
import VpnTunnel.Text.NameSet

/-!
# Routing

Which destinations are routed through the tunnel, and which applications are bound to it. Only the
two modes that name addresses change the routes; only the two that name applications change the
binding. A bootstrap connection routes everything.
-/

namespace VpnTunnel

inductive SplitMode where
  | off
  | excludeApps
  | includeApps
  | excludeIps
  | includeIps
deriving DecidableEq, Repr

namespace SplitMode

def all : List SplitMode := [off, excludeApps, includeApps, excludeIps, includeIps]

def name : SplitMode → String
  | off => "off"
  | excludeApps => "exclude-apps"
  | includeApps => "include-apps"
  | excludeIps => "exclude-ips"
  | includeIps => "include-ips"

def namesApps (m : SplitMode) : Bool := m == excludeApps || m == includeApps

def namesAddresses (m : SplitMode) : Bool := m == excludeIps || m == includeIps

end SplitMode

/-- How the user splits the traffic between the tunnel and the network around it. -/
structure Split where
  mode : SplitMode
  apps : NameSet
  ips : NameSet
deriving DecidableEq

namespace Split

def off : Split := ⟨.off, .empty, .empty⟩

def ofIps (mode : SplitMode) (ips : List String) : Split := ⟨mode, .empty, .ofList ips⟩

def ofApps (mode : SplitMode) (apps : List String) : Split := ⟨mode, .ofList apps, .empty⟩

end Split

/-- The private ranges that stay off the tunnel where direct connections to them are wanted. -/
def privateRanges : List String :=
  ["10.0.0.0/8", "172.16.0.0/12", "192.168.0.0/16", "169.254.0.0/16"]

/-- What besides the split settings decides the routes of a connection. -/
structure RoutePolicy where
  /-- The connection is a bootstrap made before the user chose anything. -/
  bootstrap : Bool
  /-- The private ranges are kept off the tunnel when addresses are excluded. -/
  directLan : Bool
deriving DecidableEq, Repr

/-- Everything of both families. -/
def bothFamilies : List Block := [.v4 .everything, .v6 .everything]

/-- Everything of IPv4. -/
def ipv4Only : List Block := [.v4 .everything]

/-- The destinations routed through the tunnel. -/
def RoutePolicy.routes (policy : RoutePolicy) (split : Split) : List Block :=
  if policy.bootstrap then bothFamilies
  else match split.mode with
    | .off | .excludeApps | .includeApps => ipv4Only
    | .excludeIps =>
      let lan := if policy.directLan then privateRanges else []
      (complement (split.ips.toList ++ lan)).map .v4
    | .includeIps => (Specifier.readAll split.ips.toList).map .v4

/-- Which applications use the tunnel. -/
inductive AppBinding where
  | all
  | only (apps : NameSet)
  | allBut (apps : NameSet)
deriving DecidableEq

namespace AppBinding

/-- The binding that the settings ask for. A client that limits the tunnel to some applications is
always among them; excluding no application binds all. -/
def ofSplit (split : Split) (ownPackage : String) : AppBinding :=
  match split.mode with
  | .includeApps => only (split.apps.insert ownPackage)
  | .excludeApps => if split.apps.isEmpty then all else allBut split.apps
  | _ => all

end AppBinding

end VpnTunnel
