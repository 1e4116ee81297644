import VpnTunnel.Config.Basic
import VpnTunnel.Signal.Broadcast

/-!
# Engines

An engine brings interfaces up and down and reports their changes; the platform reports whether
there is a network. Both belong to the outside: here are only the words they use.
-/

namespace VpnTunnel

/-- The state of an interface, as an engine knows it. -/
inductive LinkState where
  | down
  | toggle
  | up
deriving DecidableEq, Repr

/-- What an engine reports of a tunnel. -/
inductive EngineReport where
  | state (s : LinkState)
  /-- A report in words that are not understood. -/
  | unknown (raw : String)
deriving DecidableEq, Repr

/-- Why an engine could not do what it was asked. -/
inductive EngineFailure where
  | timedOut
  /-- The tunnel belongs to another user of the device. -/
  | otherUser
  | other (text : String)
  /-- The call died and gave no answer. -/
  | crashed
deriving DecidableEq, Repr

namespace EngineFailure

def isTimedOut (e : EngineFailure) : Bool := e == timedOut

def message : EngineFailure → String
  | timedOut => "Unable to start tunnel: timed out"
  | otherUser => "Tunnel is owned by another user profile"
  | other text => "Engine error: " ++ text
  | crashed => "Engine error: engine task failed"

end EngineFailure

inductive Reachability where
  | unavailable
  | available
  | metered
deriving DecidableEq, Repr

def Reachability.name : Reachability → String
  | unavailable => "Unavailable"
  | available => "Available"
  | metered => "Metered"

/-- The number of reports that a platform keeps for slow receivers. -/
def networkCapacity : Nat := 16

/-- One call of an engine. -/
structure EngineCall where
  tunnel : String
  target : LinkState
  /-- What to bring up; none to bring down. -/
  config : Option Config
deriving DecidableEq

end VpnTunnel
