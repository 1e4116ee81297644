import VpnTunnel.Machine.DryRun

/-!
# The scenes of a dry run

The calls of a dry run come one after another, so the dry run, its calls and the engine go through
one line of scenes; only the monitor acts beside them. The line forks where the configuration is
built. A scene is named for what comes next.
-/

namespace VpnTunnel

namespace DryRun

/-- The scenes before the configuration is built. -/
inductive Opening where
  | entering
  | announcing
  | recording
  | building

/-- The scenes of a dry run that has its configuration. -/
inductive Course where
  | listening
  | raising
  /-- The engine is asked to bring the tunnel up. -/
  | raised
  /-- The engine has reported that the tunnel is up, and is to answer. -/
  | up
  | observing
  | spawning
  | leaving
  /-- The first call has returned. -/
  | connected
  | watching (deadline : Nat)
  | disabling
  | sleeping (deadline : Nat)
  | clearing
  | lowering
  /-- The engine is asked to bring the tunnel down. -/
  | lowered
  /-- The engine has reported that the tunnel is down, and is to answer. -/
  | down
  /-- The second call has returned. -/
  | disconnected
  | stopping
  | joining
  | unlocking
  /-- The third call has returned. -/
  | stopped
  | ended

/-- The scenes of a dry run whose configuration cannot be built. -/
inductive Refusal where
  | failing
  | clearing
  | leaving
  /-- The only call has returned. -/
  | refused
  | ended

inductive Scene where
  | opening (o : Opening)
  | course (c : Config) (k : Course)
  | refusal (e : ConfigError) (f : Refusal)

def connectedCall (a : Attempt) : Caller := .connect a (.finished (.ok ()))

def disconnectedCall : Caller := .disconnect (.finished (.ok ()))

def upCall (tunnel : String) (c : Config) : EngineCall := ⟨tunnel, .up, some c⟩

def downCall (tunnel : String) : EngineCall := ⟨tunnel, .down, none⟩

namespace Opening

def phase : Opening → ConnectPhase
  | entering => .waiting
  | announcing => .announcing
  | recording => .recording
  | building => .building

def status : Opening → TunnelStatus
  | entering | announcing => .disconnected
  | recording | building => .connecting

end Opening

namespace Course

def returned (a : Attempt) : Course → List Caller
  | disabling | sleeping _ | clearing | lowering | lowered | down | disconnected =>
    [connectedCall a]
  | stopping | joining | unlocking | stopped | ended => [connectedCall a, disconnectedCall]
  | _ => []

def caller (a : Attempt) (c : Config) : Course → Caller
  | listening => .connect a (.listening c)
  | raising => .connect a (.raising c 0 true)
  | raised | up => .connect a (.raised c 0 true)
  | observing => .connect a (.observing 0)
  | spawning => .connect a (.spawning 0 0)
  | leaving => .connect a (.leaving none (.ok ()))
  | connected | watching _ => connectedCall a
  | disabling => .disconnect .announcing
  | sleeping deadline => .disconnect (.sleeping deadline)
  | clearing => .disconnect .clearing
  | lowering => .disconnect .lowering
  | lowered | down => .disconnect .lowered
  | disconnected => disconnectedCall
  | stopping => .stop .waiting
  | joining => .stop (.joining 0)
  | unlocking => .stop .leaving
  | stopped | ended => .stop .finished

def stage : Course → DryRunStage
  | listening | raising | raised | up | observing | spawning | leaving | connected => .connecting
  | watching deadline => .watching deadline
  | disabling | sleeping _ | clearing | lowering | lowered | down | disconnected =>
    .disconnecting .connected
  | stopping | joining | unlocking | stopped => .stopping .connected
  | ended => .ended none

def queue : Course → List Nat
  | listening | raising | raised | up | observing | spawning | leaving => [0]
  | stopping | joining | unlocking => [2]
  | _ => []

def slot : Course → Option Nat
  | listening | raising | raised | up | observing | spawning => none
  | joining | unlocking | stopped | ended => none
  | _ => some 0

def calls (tunnel : String) (c : Config) : Course → List EngineCall
  | listening | raising => []
  | lowered | down | disconnected | stopping | joining | unlocking | stopped | ended =>
    [upCall tunnel c, downCall tunnel]
  | _ => [upCall tunnel c]

def sent : Course → List EngineReport
  | listening | raising | raised => []
  | down | disconnected | stopping | joining | unlocking | stopped | ended =>
    [.state .up, .state .down]
  | _ => [.state .up]

def reported : Course → List Nat
  | up => [0]
  | down => [1]
  | _ => []

def reports : Course → List TunnelStatus
  | ended => [.connected, .disabled]
  | disabling | sleeping _ | clearing | lowering | lowered | down | disconnected | stopping
  | joining | unlocking | stopped => [.connected]
  | _ => []

def told : Course → Bool
  | joining | unlocking | stopped | ended => true
  | _ => false

def isDisabled : Course → Bool
  | sleeping _ | clearing | lowering | lowered | down | disconnected | stopping | joining
  | unlocking | stopped | ended => true
  | _ => false

/-- How many of the engine's reports the monitor is known to have published. -/
def heard : Course → Nat
  | listening | raising | raised | up | observing | spawning | leaving | connected | watching _ => 0
  | _ => 1

/-- What is published when the monitor has published so many of the engine's reports. -/
def status (k : Course) (n : Nat) : TunnelStatus :=
  if k.isDisabled then .disabled else if n = 0 then .connecting else .connected

def left : Course → Nat
  | listening => 20
  | raising => 19
  | raised => 18
  | up => 17
  | observing => 16
  | spawning => 15
  | leaving => 14
  | connected => 13
  | watching _ => 12
  | disabling => 11
  | sleeping _ => 10
  | clearing => 9
  | lowering => 8
  | lowered => 7
  | down => 6
  | disconnected => 5
  | stopping => 4
  | joining => 3
  | unlocking => 2
  | stopped => 1
  | ended => 0

end Course

namespace Refusal

def phase (e : ConfigError) : Refusal → ConnectPhase
  | failing => .failing (.config e) none
  | clearing => .clearing (.config e) none
  | leaving => .leaving none (.error (.config e))
  | refused | ended => .finished (.error (.config e))

end Refusal

namespace Scene

def returned (a : Attempt) : Scene → List Caller
  | course _ k => k.returned a
  | _ => []

def caller (a : Attempt) : Scene → Caller
  | opening o => .connect a o.phase
  | course c k => k.caller a c
  | refusal e f => .connect a (f.phase e)

def callers (a : Attempt) (s : Scene) : List Caller := s.returned a ++ [s.caller a]

def stage : Scene → DryRunStage
  | course _ k => k.stage
  | refusal e .ended => .ended (some (.connect (.config e)))
  | _ => .connecting

def queue : Scene → List Nat
  | course _ k => k.queue
  | refusal _ .refused | refusal _ .ended => []
  | _ => [0]

def slot : Scene → Option Nat
  | course _ k => k.slot
  | _ => none

def calls (tunnel : String) : Scene → List EngineCall
  | course c k => k.calls tunnel c
  | _ => []

def sent : Scene → List EngineReport
  | course _ k => k.sent
  | _ => []

def reported : Scene → List Nat
  | course _ k => k.reported
  | _ => []

def reports : Scene → List TunnelStatus
  | course _ k => k.reports
  | _ => []

def told : Scene → Bool
  | course _ k => k.told
  | _ => false

def status (n : Nat) : Scene → TunnelStatus
  | opening o => o.status
  | course _ k => k.status n
  | refusal _ .failing => .connecting
  | refusal e _ => .ofConfigError e

def wakes? : Scene → Option Nat
  | course _ (.sleeping deadline) => some deadline
  | _ => none

def left : Scene → Nat
  | opening .entering => 24
  | opening .announcing => 23
  | opening .recording => 22
  | opening .building => 21
  | course _ k => k.left
  | refusal _ .failing => 4
  | refusal _ .clearing => 3
  | refusal _ .leaving => 2
  | refusal _ .refused => 1
  | refusal _ .ended => 0

def Agrees (built : Except ConfigError Config) : Scene → Prop
  | opening _ => True
  | course c _ => built = .ok c
  | refusal e _ => built = .error e

end Scene

/-! ## The monitor beside the scenes -/

/-- How far the monitor of a dry run has come, with the number of reports that it has published. -/
inductive Watcher where
  | absent
  /-- It has a receiver of the engine's reports. -/
  | subscribed
  /-- It has its two receivers. -/
  | prepared
  | spawned
  | polling (n : Nat)
  | receiving (n : Nat)
  | handling (n : Nat) (e : EngineReport)
  /-- Its connectivity task is told to stop. -/
  | joining (n : Nat)
  /-- Its connectivity task has ended. -/
  | parting (n : Nat)
  | done (n : Nat)

namespace Watcher

def heard : Watcher → Nat
  | absent | subscribed | prepared | spawned => 0
  | polling n | receiving n | handling n _ | joining n | parting n | done n => n

def task? (told : Bool) : Watcher → Option Monitor
  | absent | subscribed | prepared => none
  | spawned => some ⟨0, 0, told, .spawned, .unborn⟩
  | polling _ => some ⟨0, 0, told, .polling, .running false⟩
  | receiving _ => some ⟨0, 0, told, .receiving, .running false⟩
  | handling _ e => some ⟨0, 0, told, .handling e, .running false⟩
  | joining _ => some ⟨0, 0, told, .joining, .running true⟩
  | parting _ => some ⟨0, 0, told, .joining, .done⟩
  | done _ => some ⟨0, 0, told, .done, .done⟩

def receivers : Watcher → List (Option Nat)
  | absent => []
  | subscribed | prepared | spawned => [some 0]
  | polling n | receiving n | joining n | parting n => [some n]
  | handling n _ => [some (n + 1)]
  | done _ => [none]

def networkReceivers : Watcher → List (Option Nat)
  | absent | subscribed => []
  | parting _ | done _ => [none]
  | _ => [some 0]

/-- A bound on the steps that are left to the monitor, its connectivity task included. -/
def left : Watcher → Nat
  | absent | subscribed | prepared => 11
  | spawned => 10
  | polling n => 3 * (2 - n) + 3
  | receiving n => 3 * (2 - n) + 2
  | handling n _ => 3 * (2 - n) + 1
  | joining _ => 2
  | parting _ => 1
  | done _ => 0

/-- The monitor follows what the engine has sent, has published so many of its reports at least, and
goes to its end only if it is told to. -/
inductive Follows (told : Bool) (sent : List EngineReport) (least : Nat) : Watcher → Prop
  | spawned (hleast : least = 0) : Follows told sent least .spawned
  | polling {n : Nat} (hleast : least ≤ n) (hle : n ≤ sent.length) :
    Follows told sent least (.polling n)
  | receiving {n : Nat} (hleast : least ≤ n) (hlt : n < sent.length) :
    Follows told sent least (.receiving n)
  | handling {n : Nat} {e : EngineReport} (hleast : least ≤ n) (he : sent[n]? = some e) :
    Follows told sent least (.handling n e)
  | joining {n : Nat} (hleast : least ≤ n) (htold : told = true) :
    Follows told sent least (.joining n)
  | parting {n : Nat} (hleast : least ≤ n) (htold : told = true) :
    Follows told sent least (.parting n)
  | done {n : Nat} (hleast : least ≤ n) (htold : told = true) :
    Follows told sent least (.done n)

end Watcher

def Course.Has (w : Watcher) : Course → Prop
  | listening => w = .absent
  | raising | raised | up | observing => w = .subscribed
  | spawning => w = .prepared
  | k => w.Follows k.told k.sent k.heard

def Scene.Has (w : Watcher) : Scene → Prop
  | course _ k => k.Has w
  | _ => w = .absent

/-- The dry run is in the scene, and its monitor has come so far. Only the time, the attempt that is
current, and when and before which state the engine was asked are left open. -/
structure Stands (setup : Setup) (settings : Settings) (a : Attempt) (s : Scene) (w : Watcher)
    (d : DryRun) : Prop where
  built : s.Agrees (setup.client.configFor a settings setup.keys)
  has : s.Has w
  stage : d.stage = s.stage
  reported : d.reported = s.reported
  reports : d.reports = s.reports
  settings : d.machine.settings = settings
  callers : d.machine.callers = s.callers a
  queue : d.machine.queue = s.queue
  slot : d.machine.slot = s.slot
  calls : d.machine.calls.map CallRecord.call = s.calls setup.tunnel
  state : d.machine.state = s.status w.heard
  monitors : d.machine.monitors = (w.task? s.told).toList
  events : d.machine.events = ⟨dryRunCapacity.nextPowerOfTwo, s.sent, w.receivers, false⟩
  network : d.machine.network = ⟨networkCapacity.nextPowerOfTwo, [], w.networkReceivers, false⟩

end DryRun

end VpnTunnel
