import VpnTunnel.Machine.Basic

/-!
# Steps of a machine

Everything that can happen to a machine, one step at a time: a new call, a step of a call or of a
task, an answer or an event of the engine, a report of the network, new settings, time passing. Any
order of steps that are possible is a run.
-/

namespace VpnTunnel

inductive Label where
  | call (r : Request)
  /-- A call takes its next step. -/
  | caller (i : Nat)
  /-- The engine answers a call. -/
  | answer (i : Nat) (a : Except EngineFailure Unit)
  /-- A monitor takes its next step. -/
  | monitor (j : Nat)
  /-- The connectivity task of a monitor takes its next step. -/
  | connectivity (j : Nat)
  | emit (e : EngineReport)
  | report (s : Reachability)
  | closeEngine
  | closeNetwork
  | configure (s : Settings)
  | wait (milliseconds : Nat)

namespace Machine

def publish (m : Machine) (s : TunnelStatus) : Machine :=
  if s = m.state then m else { m with state := s, changes := m.changes ++ [s] }

def setCaller (m : Machine) (i : Nat) (c : Caller) : Machine :=
  { m with callers := m.callers.set i c }

def setMonitor (m : Machine) (j : Nat) (t : Monitor) : Machine :=
  { m with monitors := m.monitors.set j t }

/-- The lock is granted to the caller. -/
def holdsLock (m : Machine) (i : Nat) : Bool := m.queue.head? == some i

/-- The lock goes to the next in the queue. -/
def unlock (m : Machine) : Machine := { m with queue := m.queue.tail }

/-- Takes a monitor out of the slot and tells it to stop. -/
def dismiss (m : Machine) (j : Nat) : Machine :=
  { m with slot := none, monitors := m.monitors.modify j fun t => { t with told := true } }

def hasEnded (m : Machine) (j : Nat) : Bool :=
  match m.monitors[j]? with
  | some t => t.phase == .done
  | none => true

/-- Drops a receiver of the engine's events, if there is one to drop. -/
def unsubscribe (m : Machine) : Option Nat → Machine
  | some r => { m with events := m.events.leave r }
  | none => m

def callEngine (setup : Setup) (m : Machine) (target : LinkState) (config : Option Config) :
    Machine :=
  { m with calls := m.calls ++ [⟨⟨setup.tunnel, target, config⟩, m.state, m.now⟩] }

/-- Starts a monitor and puts it in charge. -/
def spawn (m : Machine) (events network : Nat) : Machine :=
  { m with
    monitors := m.monitors ++ [⟨events, network, false, .spawned, .unborn⟩]
    slot := some m.monitors.length }

/-- The next step of a connecting call, if it can take one by itself: the phase after it, and the
machine with all else that the step changes. -/
def connectStep? (setup : Setup) (m : Machine) (i : Nat) (a : Attempt) :
    ConnectPhase → Option (ConnectPhase × Machine)
  | .waiting =>
    if m.holdsLock i then
      match m.slot with
      | some j => some (.joining j, m.dismiss j)
      | none => some (.announcing, m)
    else none
  | .joining j => if m.hasEnded j then some (.announcing, m) else none
  | .announcing => some (.recording, m.publish .connecting)
  | .recording => some (.building, { m with current := some a })
  | .building =>
    match setup.client.configFor a m.settings setup.keys with
    | .ok config => some (.listening config, m)
    | .error e => some (.failing (.config e) none, m)
  | .listening config =>
    some (.raising config m.events.nextReceiver true, { m with events := m.events.subscribe })
  | .raising config events mayRetry =>
    some (.raised config events mayRetry, m.callEngine setup .up (some config))
  | .raised _ _ _ => none
  | .observing events =>
    some (.spawning events m.network.nextReceiver, { m with network := m.network.subscribe })
  | .spawning events network => some (.leaving none (.ok ()), m.spawn events network)
  | .failing e events => some (.clearing e events, m.publish e.state)
  | .clearing e events => some (.leaving events (.error e), { m with current := none })
  | .leaving events result => some (.finished result, (m.unsubscribe events).unlock)
  | .finished _ => none

/-- The next step of a disconnecting call. -/
def disconnectStep? (setup : Setup) (m : Machine) :
    DisconnectPhase → Option (DisconnectPhase × Machine)
  | .announcing => some (.sleeping (m.now + graceMilliseconds), m.publish .disabled)
  | .sleeping deadline => if deadline ≤ m.now then some (.clearing, m) else none
  | .clearing => some (.lowering, { m with current := none })
  | .lowering => some (.lowered, m.callEngine setup .down none)
  | .lowered => none
  | .finished _ => none

/-- The next step of a call that stops the monitor. -/
def stopStep? (m : Machine) (i : Nat) : StopPhase → Option (StopPhase × Machine)
  | .waiting =>
    if m.holdsLock i then
      match m.slot with
      | some j => some (.joining j, m.dismiss j)
      | none => some (.leaving, m)
    else none
  | .joining j => if m.hasEnded j then some (.leaving, m) else none
  | .leaving => some (.finished, m.unlock)
  | .finished => none

def callerStep? (setup : Setup) (m : Machine) (i : Nat) : Caller → Option Machine
  | .connect a phase =>
    (m.connectStep? setup i a phase).map fun p => p.2.setCaller i (.connect a p.1)
  | .disconnect phase =>
    (m.disconnectStep? setup phase).map fun p => p.2.setCaller i (.disconnect p.1)
  | .stop phase => (m.stopStep? i phase).map fun p => p.2.setCaller i (.stop p.1)

/-- What a call that waits for the engine does with its answer. -/
def answered? : Except EngineFailure Unit → Caller → Option Caller
  | .ok _, .connect a (.raised _ events _) => some (.connect a (.observing events))
  | .error e, .connect a (.raised config events mayRetry) =>
    if e.isTimedOut && mayRetry then some (.connect a (.raising config events false))
    else some (.connect a (.failing (.engine e) (some events)))
  | answer, .disconnect .lowered => some (.disconnect (.finished (answer.mapError .engine)))
  | _, _ => none

/-- A monitor that has stopped following events tells its connectivity task to stop too. -/
def windDown (t : Monitor) : Monitor :=
  { t with
    phase := .joining
    connectivity := match t.connectivity with
      | .running _ => .running true
      | c => c }

/-- The next step of a monitor. It looks whether it is told to stop before it looks for events. -/
def monitorStep? (m : Machine) (j : Nat) (t : Monitor) : Option Machine :=
  match t.phase with
  | .spawned => some (m.setMonitor j { t with phase := .polling, connectivity := .running false })
  | .polling =>
    if t.told then some (m.setMonitor j (windDown t))
    else if (m.events.receive? t.events).isSome then
      some (m.setMonitor j { t with phase := .receiving })
    else none
  | .receiving =>
    match m.events.receive? t.events with
    | some (.item e, events) =>
      some ({ m with events }.setMonitor j { t with phase := .handling e })
    | some (.lagged _, events) => some ({ m with events }.setMonitor j { t with phase := .polling })
    | some (.closed, events) => some ({ m with events }.setMonitor j (windDown t))
    | none => some (m.setMonitor j { t with phase := .polling })
  | .handling e => some ((m.publish (.ofReport e)).setMonitor j { t with phase := .polling })
  | .joining =>
    if t.connectivity = .done then
      some ((m.unsubscribe (some t.events)).setMonitor j { t with phase := .done })
    else none
  | .done => none

/-- The next step of the connectivity task of a monitor. -/
def connectivityStep? (m : Machine) (j : Nat) (t : Monitor) : Option Machine :=
  let ended := { m with network := m.network.leave t.network }.setMonitor j
    { t with connectivity := .done }
  match t.connectivity with
  | .running true => some ended
  | .running false =>
    match m.network.receive? t.network with
    | some (.closed, _) => some ended
    | some (_, network) => some { m with network }
    | none => none
  | _ => none

/-- What becomes of a machine by a step, if the step is possible. -/
def step (setup : Setup) (m : Machine) : Label → Option Machine
  | .call r => some
    { m with
      callers := m.callers ++ [.ofRequest r]
      queue := match r with
        | .disconnect _ => m.queue
        | _ => m.queue ++ [m.callers.length] }
  | .caller i => m.callers[i]?.bind (m.callerStep? setup i)
  | .answer i a => (m.callers[i]?.bind (answered? a)).map (m.setCaller i)
  | .monitor j => m.monitors[j]?.bind (m.monitorStep? j)
  | .connectivity j => m.monitors[j]?.bind (m.connectivityStep? j)
  | .emit e => some { m with events := m.events.send e }
  | .report s => some { m with network := m.network.send s }
  | .closeEngine => some { m with events := m.events.close }
  | .closeNetwork => some { m with network := m.network.close }
  | .configure s => some { m with settings := s }
  | .wait ms => some { m with now := m.now + ms }

/-- The machine after a list of steps, if each was possible in its turn. -/
def run (setup : Setup) : Machine → List Label → Option Machine
  | m, [] => some m
  | m, l :: ls => (m.step setup l).bind fun m' => run setup m' ls

end Machine

end VpnTunnel
