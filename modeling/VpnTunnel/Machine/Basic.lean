import VpnTunnel.Client
import VpnTunnel.Status

/-!
# Tunnel machines

A machine drives one tunnel. Calls on it run side by side, each through phases of its own; so do the
tasks that follow the engine's reports for an established tunnel. Connecting, and stopping the task,
happen under a lock that is granted in the order of the calls; disconnecting takes no lock.

A phase is named for what comes next, and is left by one step. A step touches one thing that is
shared, but for those that take or drop the lock: they settle with it what it guards.
-/

namespace VpnTunnel

/-- The name of the interface where none is chosen. -/
def defaultTunnel : String := "veil0"

/-- How long observers have, in milliseconds, between the news that a tunnel is disabled and the
call that brings it down. -/
def graceMilliseconds : Nat := 10

/-- What a machine is made with. -/
structure Setup where
  tunnel : String
  client : Client
  keys : KeySource

/-- What may be asked of a machine. -/
inductive Request where
  | connect (a : Attempt)
  /-- Brings the tunnel down, on request with the news of it first. -/
  | disconnect (announce : Bool)
  | stop

abbrev Outcome := Except CallFailure Unit

inductive ConnectPhase where
  /-- In the queue for the lock. -/
  | waiting
  /-- Holds the lock until a monitor that it has told to stop has ended. -/
  | joining (monitor : Nat)
  /-- About to publish that it is connecting. -/
  | announcing
  /-- About to make its attempt the current one. -/
  | recording
  | building
  /-- About to subscribe to the engine's events. -/
  | listening (config : Config)
  /-- About to ask the engine to bring the tunnel up; a timeout may or may not be tried again. -/
  | raising (config : Config) (events : Nat) (mayRetry : Bool)
  /-- The engine is bringing the tunnel up. -/
  | raised (config : Config) (events : Nat) (mayRetry : Bool)
  /-- About to subscribe to the network's reports. -/
  | observing (events : Nat)
  /-- About to start a monitor. -/
  | spawning (events network : Nat)
  /-- About to publish a failure. -/
  | failing (e : CallFailure) (events : Option Nat)
  /-- About to give the current attempt up. -/
  | clearing (e : CallFailure) (events : Option Nat)
  /-- About to drop what it still holds, the lock last. -/
  | leaving (events : Option Nat) (result : Outcome)
  | finished (result : Outcome)

inductive DisconnectPhase where
  /-- About to publish that the tunnel is disabled. -/
  | announcing
  | sleeping (deadline : Nat)
  /-- About to give the current attempt up. -/
  | clearing
  /-- About to ask the engine to bring the tunnel down. -/
  | lowering
  /-- The engine is bringing the tunnel down. -/
  | lowered
  | finished (result : Outcome)

inductive StopPhase where
  /-- In the queue for the lock. -/
  | waiting
  /-- Holds the lock until a monitor that it has told to stop has ended. -/
  | joining (monitor : Nat)
  /-- About to drop the lock. -/
  | leaving
  | finished

/-- A call on a machine. -/
inductive Caller where
  | connect (a : Attempt) (phase : ConnectPhase)
  | disconnect (phase : DisconnectPhase)
  | stop (phase : StopPhase)

namespace Caller

def ofRequest : Request → Caller
  | .connect a => connect a .waiting
  | .disconnect announce => disconnect (if announce then .announcing else .clearing)
  | .stop => stop .waiting

/-- What the call has returned, once it has. -/
def result? : Caller → Option Outcome
  | connect _ (.finished r) => some r
  | disconnect (.finished r) => some r
  | stop .finished => some (.ok ())
  | _ => none

/-- What the call has asked the engine for and waits to be answered. -/
def awaits? : Caller → Option LinkState
  | connect _ (.raised _ _ _) => some .up
  | disconnect .lowered => some .down
  | _ => none

/-- The time that the call sleeps until. -/
def wakes? : Caller → Option Nat
  | disconnect (.sleeping deadline) => some deadline
  | _ => none

end Caller

inductive MonitorPhase where
  /-- Has not run yet. -/
  | spawned
  /-- About to look whether it is told to stop, and whether there is an event. -/
  | polling
  /-- About to take the event that it has seen to be there. -/
  | receiving
  /-- About to publish what an event means. -/
  | handling (e : EngineReport)
  /-- Waits for its connectivity task to end. -/
  | joining
  | done
deriving DecidableEq, Repr

/-- The task inside a monitor that follows the network's reports. -/
inductive Connectivity where
  | unborn
  | running (told : Bool)
  | done
deriving DecidableEq, Repr

/-- The task that follows the engine's events for an established tunnel. -/
structure Monitor where
  /-- Its receiver of the engine's events. -/
  events : Nat
  /-- The receiver of the network's reports that it hands to its connectivity task. -/
  network : Nat
  /-- Someone has told it to stop. -/
  told : Bool
  phase : MonitorPhase
  connectivity : Connectivity
deriving DecidableEq, Repr

/-- A call of the engine, with what was published when it was made, and the time. -/
structure CallRecord where
  call : EngineCall
  stateSeen : TunnelStatus
  time : Nat

/-- A machine, its calls and tasks, and the channels that they listen to. Calls and tasks are named
by their places in the lists and stay there when they have ended. -/
structure Machine where
  /-- What is published. -/
  state : TunnelStatus
  /-- All that has been published, a value equal to the one before it left out. -/
  changes : List TunnelStatus
  /-- The attempt in progress or established. -/
  current : Option Attempt
  settings : Settings
  callers : List Caller
  /-- The callers that hold the lock or wait for it; the first holds it. -/
  queue : List Nat
  /-- The monitor in charge, kept under the lock. -/
  slot : Option Nat
  monitors : List Monitor
  events : Broadcast EngineReport
  network : Broadcast Reachability
  calls : List CallRecord
  /-- Milliseconds. -/
  now : Nat

namespace Machine

/-- A machine on which nothing has been called yet. -/
def idle (settings : Settings) (capacity : Nat) : Machine where
  state := .disconnected
  changes := []
  current := none
  settings
  callers := []
  queue := []
  slot := none
  monitors := []
  events := .ofCapacity capacity
  network := .ofCapacity networkCapacity
  calls := []
  now := 0

/-- Whether the monitor in charge has not ended. -/
def isMonitored (m : Machine) : Bool :=
  match m.slot.bind (m.monitors[·]?) with
  | some t => t.phase != .done
  | none => false

end Machine

end VpnTunnel
