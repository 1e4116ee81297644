import VpnTunnel.Machine.Schedule

/-!
# Dry runs

A dry run connects a machine to an engine that only reports what it is told, waits for the news,
disconnects, and stops. Its own steps, those of the machine and those of the engine come in any
order; `runWithin` takes them in one.
-/

namespace VpnTunnel

/-- The events that the engine of a dry run keeps. -/
def dryRunCapacity : Nat := 16

/-- How long a dry run waits for news of a tunnel, in milliseconds. -/
def dryRunPatience : Nat := 5000

inductive DryRunFailure where
  | connect (e : CallFailure)
  | timedOut
  | disconnect (e : CallFailure)
  /-- The news was another than that the tunnel is connected. -/
  | notConnected (s : TunnelStatus)

inductive DryRunStage where
  /-- Waits for its first call to return. -/
  | connecting
  /-- Waits for news, up to a time. -/
  | watching (deadline : Nat)
  /-- Has had its news and waits for its second call to return. -/
  | disconnecting (reached : TunnelStatus)
  /-- Waits for its third call to return. -/
  | stopping (reached : TunnelStatus)
  | ended (failure : Option DryRunFailure)

structure DryRun where
  machine : Machine
  stage : DryRunStage
  /-- The calls for which the engine has reported a new state, and which it has yet to answer. -/
  reported : List Nat
  /-- The states it has reported. -/
  reports : List TunnelStatus

inductive DryRunLabel where
  /-- The dry run takes its own next step. -/
  | main
  /-- The engine carries out what a call has asked for, and reports it. -/
  | report (caller : Nat)
  /-- The engine answers a call. -/
  | answer (caller : Nat)
  | caller (i : Nat)
  | monitor (j : Nat)
  | connectivity (j : Nat)
  | wait (milliseconds : Nat)

namespace DryRun

/-- The result of one of the calls. -/
def resultOf? (d : DryRun) (i : Nat) : Option Outcome := d.machine.callers[i]?.bind Caller.result?

/-- The dry run after a step of its machine. -/
def withStep? (setup : Setup) (d : DryRun) (l : Label) : Option DryRun :=
  (d.machine.step setup l).map fun m => { d with machine := m }

def start (setup : Setup) (settings : Settings) (a : Attempt) : DryRun :=
  let m := Machine.idle settings dryRunCapacity
  ⟨(m.step setup (.call (.connect a))).getD m, .connecting, [], []⟩

/-- The dry run's own next step. -/
def mainStep? (setup : Setup) (d : DryRun) : Option DryRun :=
  match d.stage with
  | .connecting =>
    match d.resultOf? 0 with
    | some (.ok _) => some { d with stage := .watching (d.machine.now + dryRunPatience) }
    | some (.error e) => some { d with stage := .ended (some (.connect e)) }
    | none => none
  | .watching deadline =>
    let s := d.machine.state
    if s.isConnected || s.isFailure then
      { d with stage := .disconnecting s, reports := d.reports ++ [s] }.withStep? setup
        (.call (.disconnect true))
    else if deadline ≤ d.machine.now then some { d with stage := .ended (some .timedOut) }
    else none
  | .disconnecting reached =>
    match d.resultOf? 1 with
    | some (.ok _) => { d with stage := .stopping reached }.withStep? setup (.call .stop)
    | some (.error e) => some { d with stage := .ended (some (.disconnect e)) }
    | none => none
  | .stopping reached =>
    match d.resultOf? 2 with
    | some _ =>
      some { d with
        stage := .ended (if reached.isConnected then none else some (.notConnected reached))
        reports := d.reports ++ [d.machine.state] }
    | none => none
  | .ended _ => none

def step (setup : Setup) (d : DryRun) : DryRunLabel → Option DryRun
  | .main => d.mainStep? setup
  | .report i =>
    match d.machine.callers[i]?.bind Caller.awaits? with
    | some target =>
      if i ∈ d.reported then none
      else { d with reported := i :: d.reported }.withStep? setup (.emit (.state target))
    | none => none
  | .answer i =>
    if i ∈ d.reported then
      { d with reported := d.reported.erase i }.withStep? setup (.answer i (.ok ()))
    else none
  | .caller i => d.withStep? setup (.caller i)
  | .monitor j => d.withStep? setup (.monitor j)
  | .connectivity j => d.withStep? setup (.connectivity j)
  | .wait ms => d.withStep? setup (.wait ms)

/-- The steps besides waiting that may be possible, in the order of preference. -/
def ownLabels (d : DryRun) : List DryRunLabel :=
  (List.range d.machine.callers.length).map .caller ++
    (List.range d.machine.monitors.length).map .monitor ++
    (List.range d.machine.monitors.length).map .connectivity ++
    (List.range d.machine.callers.length).map .report ++
    (List.range d.machine.callers.length).map .answer ++ [.main]

/-- The steps that may be possible, in the order of preference, time last. -/
def labels (d : DryRun) : List DryRunLabel :=
  d.ownLabels ++ (d.machine.untilWake?.toList).map .wait

/-- Takes the first possible step, up to so many times. -/
def runWithin (setup : Setup) : Nat → DryRun → DryRun
  | 0, d => d
  | fuel + 1, d =>
    match d.labels.findSome? (d.step setup) with
    | some d' => runWithin setup fuel d'
    | none => d

/-- More steps than a dry run has. -/
def stepBound : Nat := 256

/-- How the dry run has ended; one that has not is out of time. -/
def failure? (d : DryRun) : Option DryRunFailure :=
  match d.stage with
  | .ended failure => failure
  | _ => some .timedOut

end DryRun

end VpnTunnel
