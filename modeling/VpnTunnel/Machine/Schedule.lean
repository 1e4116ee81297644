import VpnTunnel.Machine.Step

/-!
# A schedule for machines

One run among all: calls come before tasks, the engine answers when neither can go on, and time
passes only when nothing else can happen. The engine answers by a script.
-/

namespace VpnTunnel

/-- How an engine carries out one call. -/
inductive Reaction where
  /-- Reports the new state and succeeds. -/
  | ok
  /-- Succeeds without a report. -/
  | silent
  | fail (e : EngineFailure)
deriving DecidableEq, Repr

/-- What an engine does to carry out a call. -/
def Reaction.labels (caller : Nat) (target : LinkState) : Reaction → List Label
  | ok => [.emit (.state target), .answer caller (.ok ())]
  | silent => [.answer caller (.ok ())]
  | fail e => [.answer caller (.error e)]

namespace Machine

/-- The steps that a machine may take by itself, in the order of preference. -/
def ownLabels (m : Machine) : List Label :=
  (List.range m.callers.length).map .caller ++ (List.range m.monitors.length).map .monitor ++
    (List.range m.monitors.length).map .connectivity

/-- The first step that the machine can take by itself. -/
def ownStep? (setup : Setup) (m : Machine) : Option Machine :=
  m.ownLabels.findSome? (m.step setup)

/-- The first call that waits for the engine, and what it has asked for. -/
def awaiting? (m : Machine) : Option (Nat × LinkState) :=
  (List.range m.callers.length).findSome? fun i =>
    (m.callers[i]?.bind Caller.awaits?).map fun target => (i, target)

/-- How long it is until a sleeping call wakes. -/
def untilWake? (m : Machine) : Option Nat :=
  (m.callers.filterMap Caller.wakes?).min?.map (· - m.now)

/-- Runs a machine until nothing is left to do, and gives what is left of the script; a script that
has run out has the engine succeed. The number bounds the steps. -/
def settleWithin (setup : Setup) : Nat → Machine → List Reaction → Machine × List Reaction
  | 0, m, script => (m, script)
  | fuel + 1, m, script =>
    match m.ownStep? setup with
    | some m' => settleWithin setup fuel m' script
    | none =>
      match m.awaiting? with
      | some (i, target) =>
        match m.run setup ((script.headD .ok).labels i target) with
        | some m' => settleWithin setup fuel m' script.tail
        | none => (m, script)
      | none =>
        match m.untilWake? with
        | some ms => settleWithin setup fuel { m with now := m.now + ms } script
        | none => (m, script)

/-- A bound on the steps that a machine can take before nothing is left to do: a call takes fewer
than thirty, its monitor's start and end included, and each task at most three for an event. -/
def stepBound (m : Machine) : Nat :=
  let tasks := m.callers.length + m.monitors.length + 1
  tasks * (32 + 4 * (m.events.sent.length + m.network.sent.length + 2 * m.callers.length))

def settle (setup : Setup) (m : Machine) (script : List Reaction) : Machine × List Reaction :=
  settleWithin setup m.stepBound m script

/-- Makes calls on a machine, the first of them first, and runs it until nothing is left to do. -/
def perform (setup : Setup) (m : Machine) (requests : List Request) (script : List Reaction) :
    Machine × List Reaction :=
  let m := (m.run setup (requests.map .call)).getD m
  m.settle setup script

/-- The results of the last calls, as many as `n`. -/
def lastResults (m : Machine) (n : Nat) : List (Option Outcome) :=
  (m.callers.drop (m.callers.length - n)).map Caller.result?

/-- Sends events, in order, and tells how many receivers each has. -/
def emitAll (m : Machine) : List EngineReport → List Nat × Machine
  | [] => ([], m)
  | e :: es =>
    let (counts, m') := { m with events := m.events.send e }.emitAll es
    (m.events.audience :: counts, m')

/-- Sends reports of the network, in order, and tells how many receivers each has. -/
def reportAll (m : Machine) : List Reachability → List Nat × Machine
  | [] => ([], m)
  | s :: ss =>
    let (counts, m') := { m with network := m.network.send s }.reportAll ss
    (m.network.audience :: counts, m')

end Machine

end VpnTunnel
