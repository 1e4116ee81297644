import VpnTunnel.Machine.Step
import VpnTunnel.Proofs.Signal.Listeners

/-!
# What calls and tasks hold

Between two of its steps a call may hold the lock, a monitor that it waits for, and receivers of
either channel; a task holds the receivers that it was started with. A step of a call changes what
it holds in one of eight ways, a step of a task ends it or leaves it with what it holds. Whatever
else a step does leaves the lock, the slot, the monitors and the listeners of the channels alone.
-/

namespace VpnTunnel

/-- What a call keeps from others. -/
structure Holding where
  /-- It is inside the lock. -/
  lock : Bool := false
  /-- It has left the slot empty. -/
  vacant : Bool := false
  /-- The monitor whose end it waits for. -/
  joins : Option Nat := none
  /-- Its receiver of the engine's events. -/
  events : Option Nat := none
  /-- Its receiver of the network's reports. -/
  network : Option Nat := none
deriving DecidableEq, Repr

def ConnectPhase.holding : ConnectPhase → Holding
  | .waiting | .finished _ => {}
  | .joining j => { lock := true, vacant := true, joins := some j }
  | .announcing | .recording | .building | .listening _ => { lock := true, vacant := true }
  | .raising _ events _ | .raised _ events _ | .observing events =>
    { lock := true, vacant := true, events := some events }
  | .spawning events network =>
    { lock := true, vacant := true, events := some events, network := some network }
  | .failing _ events | .clearing _ events | .leaving events (.error _) =>
    { lock := true, vacant := true, events }
  | .leaving events (.ok _) => { lock := true, events }

def StopPhase.holding : StopPhase → Holding
  | .waiting | .finished => {}
  | .joining j => { lock := true, vacant := true, joins := some j }
  | .leaving => { lock := true, vacant := true }

namespace Caller

def holding : Caller → Holding
  | connect _ phase => phase.holding
  | disconnect _ => {}
  | stop phase => phase.holding

def IsConnecting : Caller → Prop
  | connect _ (.finished _) => False
  | connect _ _ => True
  | _ => False

/-- The call is to connect and has turned to the engine: it has yet to ask, waits for the answer, or
is about to ask again. -/
def BringsUp : Caller → Prop
  | connect _ (.raising _ _ _) => True
  | connect _ (.raised _ _ _) => True
  | _ => False

variable {c : Caller}

theorem holding_ofRequest (r : Request) : (ofRequest r).holding = {} := by
  cases r <;> rfl

/-- Outside the lock a call holds nothing. -/
theorem holding_of_lock_eq_false (h : c.holding.lock = false) : c.holding = {} := by
  cases c with
  | connect a p =>
    cases p with
    | waiting | finished => rfl
    | leaving events result => cases result <;> cases h
    | _ => cases h
  | disconnect p => rfl
  | stop p =>
    cases p with
    | waiting | finished => rfl
    | _ => cases h

theorem lock_of_vacant (h : c.holding.vacant = true) : c.holding.lock = true := by
  cases hlock : c.holding.lock with
  | true => rfl
  | false => simp [holding_of_lock_eq_false hlock] at h

/-- A call waits for a monitor that it has taken out of the slot. -/
theorem vacant_of_joins {j : Nat} (h : c.holding.joins = some j) : c.holding.vacant = true := by
  cases c with
  | connect a p =>
    cases p with
    | joining => rfl
    | leaving events result => cases result <;> cases h
    | _ => cases h
  | disconnect p => cases h
  | stop p =>
    cases p with
    | joining => rfl
    | _ => cases h

/-- Only a call that is to connect has receivers. -/
theorem receivers_eq_none (h : ¬ c.IsConnecting) :
    c.holding.events = none ∧ c.holding.network = none := by
  cases c with
  | connect a p =>
    cases p with
    | finished => exact ⟨rfl, rfl⟩
    | _ => exact absurd trivial h
  | disconnect p => exact ⟨rfl, rfl⟩
  | stop p => cases p <;> exact ⟨rfl, rfl⟩

theorem exists_holding_of_bringsUp (h : c.BringsUp) :
    ∃ events, c.holding = { lock := true, vacant := true, events := some events } := by
  cases c with
  | connect a p =>
    cases p with
    | raising | raised => exact ⟨_, rfl⟩
    | _ => cases h
  | _ => cases h

end Caller

structure Monitor.Carries (t t' : Monitor) : Prop where
  before : t.phase ≠ .done
  after : t'.phase ≠ .done
  events : t'.events = t.events
  network : t'.network = t.network
  connectivity : t'.connectivity = .done → t.connectivity = .done

theorem Monitor.Carries.windDown {t : Monitor} (h : t.phase ≠ .done) :
    t.Carries (Machine.windDown t) := by
  refine ⟨h, nofun, rfl, rfl, ?_⟩
  cases hc : t.connectivity <;> simp [Machine.windDown, hc]

namespace Machine

/-- The machines agree on all that can be held: the lock, the slot, the monitors, and who listens to
the channels. -/
structure Alike (m m₁ : Machine) : Prop where
  callers : m₁.callers = m.callers
  queue : m₁.queue = m.queue
  slot : m₁.slot = m.slot
  monitors : m₁.monitors = m.monitors
  events : ∀ r, m₁.events.Listens r ↔ m.events.Listens r
  network : ∀ r, m₁.network.Listens r ↔ m.network.Listens r

theorem Alike.refl (m : Machine) : m.Alike m :=
  ⟨rfl, rfl, rfl, rfl, fun _ => Iff.rfl, fun _ => Iff.rfl⟩

theorem alike_publish (m : Machine) (s : TunnelStatus) : m.Alike (m.publish s) := by
  unfold publish
  split
  · exact .refl m
  · exact ⟨rfl, rfl, rfl, rfl, fun _ => Iff.rfl, fun _ => Iff.rfl⟩

theorem alike_callEngine (setup : Setup) (m : Machine) (target : LinkState)
    (config : Option Config) : m.Alike (m.callEngine setup target config) :=
  ⟨rfl, rfl, rfl, rfl, fun _ => Iff.rfl, fun _ => Iff.rfl⟩

theorem alike_current (m : Machine) (a : Option Attempt) : m.Alike { m with current := a } :=
  ⟨rfl, rfl, rfl, rfl, fun _ => Iff.rfl, fun _ => Iff.rfl⟩

theorem alike_receive {m : Machine} {r : Nat} {d : Delivery EngineReport}
    {events : Broadcast EngineReport} (h : m.events.receive? r = some (d, events)) :
    m.Alike { m with events } :=
  ⟨rfl, rfl, rfl, rfl, fun _ => Broadcast.listens_of_receive? h, fun _ => Iff.rfl⟩

/-- How a step of caller `i` changes what it holds, and the machine with it, but for the caller's
own phase. -/
inductive Handles (m : Machine) (i : Nat) : Holding → Holding → Machine → Prop
  | keep {m₁ : Machine} (h : Holding) (halike : m.Alike m₁) : Handles m i h h m₁
  | enter (hlock : m.queue.head? = some i) (hslot : m.slot = none) :
    Handles m i {} { lock := true, vacant := true } m
  | supersede (j : Nat) (hlock : m.queue.head? = some i) (hslot : m.slot = some j) :
    Handles m i {} { lock := true, vacant := true, joins := some j } (m.dismiss j)
  | joined (j : Nat) (hended : m.hasEnded j) :
    Handles m i { lock := true, vacant := true, joins := some j }
      { lock := true, vacant := true } m
  | listen :
    Handles m i { lock := true, vacant := true }
      { lock := true, vacant := true, events := some m.events.nextReceiver }
      { m with events := m.events.subscribe }
  | observe (events : Nat) :
    Handles m i { lock := true, vacant := true, events := some events }
      { lock := true, vacant := true, events := some events,
        network := some m.network.nextReceiver }
      { m with network := m.network.subscribe }
  | entrust (events network : Nat) :
    Handles m i
      { lock := true, vacant := true, events := some events, network := some network }
      { lock := true } (m.spawn events network)
  | release (vacant : Bool) (events : Option Nat) :
    Handles m i { lock := true, vacant, events } {} (m.unsubscribe events).unlock

variable {setup : Setup} {m m₁ m' : Machine} {i j : Nat} {c c' : Caller} {t : Monitor}

namespace Handles

variable {b b' : Holding}

theorem callers_eq (h : m.Handles i b b' m₁) : m₁.callers = m.callers := by
  cases h with
  | keep h halike => exact halike.callers
  | release vacant events => cases events <;> rfl
  | _ => rfl

/-- A call that finds the slot empty and has nothing to start a monitor with leaves it empty. -/
theorem slot_and_monitors (h : m.Handles i b b' m₁) (hslot : m.slot = none)
    (hnetwork : b.network = none) : m₁.slot = none ∧ m₁.monitors = m.monitors := by
  cases h with
  | keep h halike => exact ⟨halike.slot.trans hslot, halike.monitors⟩
  | supersede j hlock hj => cases hslot.symm.trans hj
  | entrust events network => cases hnetwork
  | release vacant events => cases events <;> exact ⟨hslot, rfl⟩
  | _ => exact ⟨hslot, rfl⟩

end Handles

theorem head?_of_holdsLock (h : m.holdsLock i = true) : m.queue.head? = some i := by
  simpa [holdsLock] using h

/-- A step of a connecting call is one of the ways to change what it holds. -/
theorem handles_of_connectStep? {a : Attempt} {p p' : ConnectPhase}
    (h : m.connectStep? setup i a p = some (p', m₁)) : m.Handles i p.holding p'.holding m₁ := by
  cases p with
  | waiting =>
    simp only [connectStep?] at h
    split at h
    next hlock =>
      split at h <;> cases h
      next hslot => exact .supersede _ (head?_of_holdsLock hlock) hslot
      next hslot => exact .enter (head?_of_holdsLock hlock) hslot
    next => cases h
  | joining j =>
    simp only [connectStep?] at h
    split at h <;> cases h
    next hended => exact .joined j hended
  | announcing => cases h; exact .keep _ (m.alike_publish _)
  | recording => cases h; exact .keep _ (m.alike_current _)
  | building =>
    simp only [connectStep?] at h
    split at h <;> cases h
    · exact .keep _ (.refl m)
    · exact .keep _ (.refl m)
  | listening config => cases h; exact .listen
  | raising config events mayRetry => cases h; exact .keep _ (alike_callEngine _ m _ _)
  | raised => cases h
  | observing events => cases h; exact .observe events
  | spawning events network => cases h; exact .entrust events network
  | failing e events => cases h; exact .keep _ (m.alike_publish _)
  | clearing e events => cases h; exact .keep _ (m.alike_current _)
  | leaving events result =>
    cases h
    cases result with
    | error e => exact .release true events
    | ok _ => exact .release false events
  | finished => cases h

theorem alike_of_disconnectStep? {p p' : DisconnectPhase}
    (h : m.disconnectStep? setup p = some (p', m₁)) : m.Alike m₁ := by
  cases p with
  | announcing => cases h; exact m.alike_publish _
  | sleeping deadline =>
    simp only [disconnectStep?] at h
    split at h <;> cases h
    exact .refl m
  | clearing => cases h; exact m.alike_current _
  | lowering => cases h; exact alike_callEngine _ m _ _
  | lowered => cases h
  | finished => cases h

theorem handles_of_stopStep? {p p' : StopPhase} (h : m.stopStep? i p = some (p', m₁)) :
    m.Handles i p.holding p'.holding m₁ := by
  cases p with
  | waiting =>
    simp only [stopStep?] at h
    split at h
    next hlock =>
      split at h <;> cases h
      next hslot => exact .supersede _ (head?_of_holdsLock hlock) hslot
      next hslot => exact .enter (head?_of_holdsLock hlock) hslot
    next => cases h
  | joining j =>
    simp only [stopStep?] at h
    split at h <;> cases h
    next hended => exact .joined j hended
  | leaving => cases h; exact .release true none
  | finished => cases h

/-- A step of a call changes what it holds in one of the eight ways, and makes no call connect. -/
theorem exists_handles_of_callerStep? (h : m.callerStep? setup i c = some m') :
    ∃ c' m₁, m.Handles i c.holding c'.holding m₁ ∧ m' = m₁.setCaller i c' ∧
      (c'.IsConnecting → c.IsConnecting) := by
  cases c with
  | connect a p =>
    obtain ⟨⟨p', m₁⟩, hstep, rfl⟩ := Option.map_eq_some_iff.mp h
    have hp : (Caller.connect a p).IsConnecting := by
      cases p with
      | finished => cases hstep
      | _ => trivial
    exact ⟨.connect a p', m₁, handles_of_connectStep? hstep, rfl, fun _ => hp⟩
  | disconnect p =>
    obtain ⟨⟨p', m₁⟩, hstep, rfl⟩ := Option.map_eq_some_iff.mp h
    exact ⟨.disconnect p', m₁, .keep {} (alike_of_disconnectStep? hstep), rfl, False.elim⟩
  | stop p =>
    obtain ⟨⟨p', m₁⟩, hstep, rfl⟩ := Option.map_eq_some_iff.mp h
    exact ⟨.stop p', m₁, handles_of_stopStep? hstep, rfl, False.elim⟩

/-- An answer of the engine leaves the call with what it holds. -/
theorem holding_of_answered? {answer : Except EngineFailure Unit}
    (h : answered? answer c = some c') :
    c'.holding = c.holding ∧ (c'.IsConnecting → c.IsConnecting) := by
  unfold answered? at h
  split at h
  · cases h; exact ⟨rfl, id⟩
  · split at h <;> cases h <;> exact ⟨rfl, id⟩
  · cases h; exact ⟨rfl, id⟩
  · cases h

/-- A step of a monitor leaves it with what it holds, or ends it after its connectivity task. -/
theorem exists_carries_or_done_of_monitorStep? (h : m.monitorStep? j t = some m') :
    (∃ t' m₁, m' = m₁.setMonitor j t' ∧ m.Alike m₁ ∧ t.Carries t') ∨
      t.connectivity = .done ∧
        m' = { m with events := m.events.leave t.events }.setMonitor j
          { t with phase := .done } := by
  obtain ⟨events, network, told, phase, connectivity⟩ := t
  cases phase with
  | spawned =>
    cases h
    exact .inl ⟨_, m, rfl, .refl m, ⟨nofun, nofun, rfl, rfl, nofun⟩⟩
  | polling =>
    simp only [monitorStep?] at h
    split at h
    · cases h
      exact .inl ⟨_, m, rfl, .refl m, .windDown nofun⟩
    · split at h <;> cases h
      exact .inl ⟨_, m, rfl, .refl m, ⟨nofun, nofun, rfl, rfl, id⟩⟩
  | receiving =>
    simp only [monitorStep?] at h
    split at h <;> cases h
    next hd => exact .inl ⟨_, _, rfl, alike_receive hd, ⟨nofun, nofun, rfl, rfl, id⟩⟩
    next hd => exact .inl ⟨_, _, rfl, alike_receive hd, ⟨nofun, nofun, rfl, rfl, id⟩⟩
    next hd => exact .inl ⟨_, _, rfl, alike_receive hd, .windDown nofun⟩
    next => exact .inl ⟨_, m, rfl, .refl m, ⟨nofun, nofun, rfl, rfl, id⟩⟩
  | handling e =>
    cases h
    exact .inl ⟨_, _, rfl, m.alike_publish _, ⟨nofun, nofun, rfl, rfl, id⟩⟩
  | joining =>
    simp only [monitorStep?] at h
    split at h <;> cases h
    next hended => exact .inr ⟨hended, rfl⟩
  | done => cases h

/-- A step of a connectivity task changes nothing that is held, or ends the task. -/
theorem alike_or_done_of_connectivityStep? (h : m.connectivityStep? j t = some m') :
    m.Alike m' ∨ m' = { m with network := m.network.leave t.network }.setMonitor j
      { t with connectivity := .done } := by
  simp only [connectivityStep?] at h
  split at h
  · cases h; exact .inr rfl
  · split at h <;> cases h
    · exact .inr rfl
    next hd =>
      exact .inl ⟨rfl, rfl, rfl, rfl, fun _ => Iff.rfl, fun _ => Broadcast.listens_of_receive? hd⟩
  · cases h

/-- All that a step can do to what is held. -/
inductive Effect (m : Machine) : Label → Machine → Prop
  | call (r : Request) (waiting : List Nat) :
    Effect m (.call r)
      { m with callers := m.callers ++ [.ofRequest r], queue := m.queue ++ waiting }
  | caller {l : Label} {i : Nat} {c c' : Caller} {m₁ : Machine} (hc : m.callers[i]? = some c)
    (hhandles : m.Handles i c.holding c'.holding m₁)
    (hconnecting : c'.IsConnecting → c.IsConnecting) : Effect m l (m₁.setCaller i c')
  | carry {l : Label} {j : Nat} {t t' : Monitor} {m₁ : Machine} (ht : m.monitors[j]? = some t)
    (halike : m.Alike m₁) (hcarries : t.Carries t') : Effect m l (m₁.setMonitor j t')
  | endMonitor {l : Label} {j : Nat} {t : Monitor} (ht : m.monitors[j]? = some t)
    (hended : t.connectivity = .done) :
    Effect m l ({ m with events := m.events.leave t.events }.setMonitor j { t with phase := .done })
  | endConnectivity {l : Label} {j : Nat} {t : Monitor} (ht : m.monitors[j]? = some t) :
    Effect m l ({ m with network := m.network.leave t.network }.setMonitor j
      { t with connectivity := .done })
  | none {l : Label} {m₁ : Machine} (halike : m.Alike m₁) : Effect m l m₁

/-- Every step does one of the listed things to what is held. -/
theorem effect_of_step {l : Label} (h : m.step setup l = some m') : m.Effect l m' := by
  cases l with
  | call r =>
    cases h
    cases r with
    | connect | stop => exact .call _ _
    | disconnect announce => simpa using Effect.call (m := m) (.disconnect announce) []
  | caller i =>
    obtain ⟨c, hc, h⟩ := Option.bind_eq_some_iff.mp h
    obtain ⟨c', m₁, hhandles, rfl, hconnecting⟩ := exists_handles_of_callerStep? h
    exact .caller hc hhandles hconnecting
  | answer i a =>
    obtain ⟨c', hanswered, rfl⟩ := Option.map_eq_some_iff.mp h
    obtain ⟨c, hc, hanswered⟩ := Option.bind_eq_some_iff.mp hanswered
    obtain ⟨hholding, hconnecting⟩ := holding_of_answered? hanswered
    exact .caller hc (hholding ▸ .keep _ (.refl m)) hconnecting
  | monitor j =>
    obtain ⟨t, ht, h⟩ := Option.bind_eq_some_iff.mp h
    obtain ⟨t', m₁, rfl, halike, hcarries⟩ | ⟨hended, rfl⟩ :=
      exists_carries_or_done_of_monitorStep? h
    · exact .carry ht halike hcarries
    · exact .endMonitor ht hended
  | connectivity j =>
    obtain ⟨t, ht, h⟩ := Option.bind_eq_some_iff.mp h
    obtain halike | rfl := alike_or_done_of_connectivityStep? h
    · exact .none halike
    · exact .endConnectivity ht
  | emit e =>
    cases h
    exact .none ⟨rfl, rfl, rfl, rfl, fun _ => Broadcast.listens_send, fun _ => Iff.rfl⟩
  | report s =>
    cases h
    exact .none ⟨rfl, rfl, rfl, rfl, fun _ => Iff.rfl, fun _ => Broadcast.listens_send⟩
  | closeEngine =>
    cases h
    exact .none ⟨rfl, rfl, rfl, rfl, fun _ => Broadcast.listens_close, fun _ => Iff.rfl⟩
  | closeNetwork =>
    cases h
    exact .none ⟨rfl, rfl, rfl, rfl, fun _ => Iff.rfl, fun _ => Broadcast.listens_close⟩
  | configure | wait =>
    cases h
    exact .none ⟨rfl, rfl, rfl, rfl, fun _ => Iff.rfl, fun _ => Iff.rfl⟩

/-- What every step of a run keeps, the run keeps. -/
theorem run_induction {P : Machine → Prop} {ls : List Label}
    (hstep : ∀ {m l m'}, l ∈ ls → P m → m.step setup l = some m' → P m') (hm : P m)
    (h : m.run setup ls = some m') : P m' := by
  induction ls generalizing m with
  | nil => cases h; exact hm
  | cons l ls ih =>
    obtain ⟨m₁, hfirst, hrun⟩ := Option.bind_eq_some_iff.mp h
    exact ih (fun hl => hstep (.tail l hl)) (hstep (.head ls) hm hfirst) hrun

end Machine

end VpnTunnel
