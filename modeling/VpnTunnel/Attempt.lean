import VpnTunnel.Settings.Basic
import VpnTunnel.Text.Quoted

/-!
# Connection attempts

What one attempt to connect needs to know: what was asked for, through which node, and how.
-/

namespace VpnTunnel

/-- What the user asked to connect to. -/
inductive Intent where
  | fastest
  | country (code : String)
  | server (id : String)
  /-- The bootstrap tunnel, used before there is anything to ask for. -/
  | bootstrap
deriving DecidableEq, Repr

namespace Intent

def isBootstrap (i : Intent) : Bool := i == bootstrap

/-- The intent as it is shown to a developer. -/
def brief : Intent → String
  | fastest => "Fastest"
  | country code => "Country(" ++ Text.quoted code ++ ")"
  | server id => "Server(" ++ Text.quoted id ++ ")"
  | bootstrap => "GuestHole"

end Intent

structure Attempt where
  intent : Intent
  exit : Exit
  port : UInt16
  /-- Replaces the node's own entry address. -/
  entry : Option Address
  transport : Transport
  /-- The user's choice at the time the attempt was made. -/
  wantsIpv6 : Bool
  /-- The session whose private key is used. -/
  session : String
deriving DecidableEq, Repr

namespace Attempt

/-- An attempt with the transport and the IPv6 choice of the settings. -/
def ofSettings (intent : Intent) (exit : Exit) (port : UInt16) (session : String)
    (settings : Settings) : Attempt :=
  ⟨intent, exit, port, none, settings.transport, settings.allowsIpv6, session⟩

/-- The attempt through another entry address. -/
def enteringAt (a : Attempt) (ip : Address) : Attempt := { a with entry := some ip }

/-- The attempt carried by another transport. -/
def carriedBy (a : Attempt) (t : Transport) : Attempt := { a with transport := t }

/-- Both families are used when the user and the server both allow it. -/
def isDualStack (a : Attempt) : Bool := a.wantsIpv6 && a.exit.server.hasIpv6

end Attempt

end VpnTunnel
