import VpnTunnel.Proofs.Machine.Holdings

/-!
# Moves

Every step of a machine is one of the moves listed here, each with what allows it and with all that
it changes. What is kept along a run is shown move by move.
-/

namespace VpnTunnel

/-- Who takes the step, or is answered in it, if it is a call of the machine. -/
def Label.caller? : Label → Option Nat
  | caller i | answer i _ => some i
  | _ => none

namespace Machine

/-- The moves of call `i` that is to connect to `a`: its phase, the phase after it, and the machine
with all else that changes. -/
inductive ConnectMove (setup : Setup) (m : Machine) (i : Nat) (a : Attempt) :
    ConnectPhase → ConnectPhase → Machine → Prop
  | supersede (j : Nat) (hlock : m.queue.head? = some i) (hslot : m.slot = some j) :
    ConnectMove setup m i a .waiting (.joining j) (m.dismiss j)
  | enter (hlock : m.queue.head? = some i) (hslot : m.slot = none) :
    ConnectMove setup m i a .waiting .announcing m
  | join (j : Nat) (hended : m.hasEnded j) :
    ConnectMove setup m i a (.joining j) .announcing m
  | announce : ConnectMove setup m i a .announcing .recording (m.publish .connecting)
  | record : ConnectMove setup m i a .recording .building { m with current := some a }
  | build (config : Config)
    (hbuilt : setup.client.configFor a m.settings setup.keys = .ok config) :
    ConnectMove setup m i a .building (.listening config) m
  | refuse (e : ConfigError)
    (hbuilt : setup.client.configFor a m.settings setup.keys = .error e) :
    ConnectMove setup m i a .building (.failing (.config e) none) m
  | listen (config : Config) :
    ConnectMove setup m i a (.listening config) (.raising config m.events.nextReceiver true)
      { m with events := m.events.subscribe }
  | raise (config : Config) (events : Nat) (mayRetry : Bool) :
    ConnectMove setup m i a (.raising config events mayRetry) (.raised config events mayRetry)
      (m.callEngine setup .up (some config))
  | observe (events : Nat) :
    ConnectMove setup m i a (.observing events) (.spawning events m.network.nextReceiver)
      { m with network := m.network.subscribe }
  | spawn (events network : Nat) :
    ConnectMove setup m i a (.spawning events network) (.leaving none (.ok ()))
      (m.spawn events network)
  | fail (e : CallFailure) (events : Option Nat) :
    ConnectMove setup m i a (.failing e events) (.clearing e events) (m.publish e.state)
  | clear (e : CallFailure) (events : Option Nat) :
    ConnectMove setup m i a (.clearing e events) (.leaving events (.error e))
      { m with current := none }
  | leave (events : Option Nat) (result : Outcome) :
    ConnectMove setup m i a (.leaving events result) (.finished result)
      (m.unsubscribe events).unlock

inductive DisconnectMove (setup : Setup) (m : Machine) :
    DisconnectPhase → DisconnectPhase → Machine → Prop
  | announce :
    DisconnectMove setup m .announcing (.sleeping (m.now + graceMilliseconds))
      (m.publish .disabled)
  | wake (deadline : Nat) (hdue : deadline ≤ m.now) :
    DisconnectMove setup m (.sleeping deadline) .clearing m
  | clear : DisconnectMove setup m .clearing .lowering { m with current := none }
  | lower : DisconnectMove setup m .lowering .lowered (m.callEngine setup .down none)

inductive StopMove (m : Machine) (i : Nat) : StopPhase → StopPhase → Machine → Prop
  | supersede (j : Nat) (hlock : m.queue.head? = some i) (hslot : m.slot = some j) :
    StopMove m i .waiting (.joining j) (m.dismiss j)
  | enter (hlock : m.queue.head? = some i) (hslot : m.slot = none) :
    StopMove m i .waiting .leaving m
  | join (j : Nat) (hended : m.hasEnded j) : StopMove m i (.joining j) .leaving m
  | leave : StopMove m i .leaving .finished m.unlock

inductive AnswerMove : Except EngineFailure Unit → Caller → Caller → Prop
  | raised (u : Unit) (a : Attempt) (config : Config) (events : Nat) (mayRetry : Bool) :
    AnswerMove (.ok u) (.connect a (.raised config events mayRetry))
      (.connect a (.observing events))
  | retry (a : Attempt) (config : Config) (events : Nat) :
    AnswerMove (.error .timedOut) (.connect a (.raised config events true))
      (.connect a (.raising config events false))
  | fail (e : EngineFailure) (a : Attempt) (config : Config) (events : Nat) (mayRetry : Bool)
    (hlast : e = .timedOut → mayRetry = false) :
    AnswerMove (.error e) (.connect a (.raised config events mayRetry))
      (.connect a (.failing (.engine e) (some events)))
  | lowered (x : Except EngineFailure Unit) :
    AnswerMove x (.disconnect .lowered) (.disconnect (.finished (x.mapError .engine)))

/-- The moves of call `i`: how its phase changes by the step, and the machine with all else that
changes. -/
inductive CallerMove (setup : Setup) (m : Machine) (i : Nat) :
    Label → Caller → Caller → Machine → Prop
  | connect {a : Attempt} {p p' : ConnectPhase} {m₁ : Machine}
    (h : ConnectMove setup m i a p p' m₁) :
    CallerMove setup m i (.caller i) (.connect a p) (.connect a p') m₁
  | disconnect {p p' : DisconnectPhase} {m₁ : Machine} (h : DisconnectMove setup m p p' m₁) :
    CallerMove setup m i (.caller i) (.disconnect p) (.disconnect p') m₁
  | stop {p p' : StopPhase} {m₁ : Machine} (h : StopMove m i p p' m₁) :
    CallerMove setup m i (.caller i) (.stop p) (.stop p') m₁
  | answer {x : Except EngineFailure Unit} {c c' : Caller} (h : AnswerMove x c c') :
    CallerMove setup m i (.answer i x) c c' m

/-- The moves of monitor `j`, which is `t`: what becomes of it, and the machine with all else that
changes. -/
inductive MonitorMove (m : Machine) (t : Monitor) : Monitor → Machine → Prop
  | start (hphase : t.phase = .spawned) :
    MonitorMove m t { t with phase := .polling, connectivity := .running false } m
  | heed (hphase : t.phase = .polling) (htold : t.told = true) :
    MonitorMove m t (windDown t) m
  | notice (hphase : t.phase = .polling) (htold : t.told = false)
    (hready : (m.events.receive? t.events).isSome) :
    MonitorMove m t { t with phase := .receiving } m
  | take (e : EngineReport) (events : Broadcast EngineReport) (hphase : t.phase = .receiving)
    (hd : m.events.receive? t.events = some (.item e, events)) :
    MonitorMove m t { t with phase := .handling e } { m with events }
  | skip (missed : Nat) (events : Broadcast EngineReport) (hphase : t.phase = .receiving)
    (hd : m.events.receive? t.events = some (.lagged missed, events)) :
    MonitorMove m t { t with phase := .polling } { m with events }
  | close (events : Broadcast EngineReport) (hphase : t.phase = .receiving)
    (hd : m.events.receive? t.events = some (.closed, events)) :
    MonitorMove m t (windDown t) { m with events }
  | miss (hphase : t.phase = .receiving) (hd : m.events.receive? t.events = none) :
    MonitorMove m t { t with phase := .polling } m
  | handle (e : EngineReport) (hphase : t.phase = .handling e) :
    MonitorMove m t { t with phase := .polling } (m.publish (.ofReport e))
  | finish (hphase : t.phase = .joining) (hended : t.connectivity = .done) :
    MonitorMove m t { t with phase := .done } { m with events := m.events.leave t.events }

inductive ConnectivityMove (m : Machine) (j : Nat) (t : Monitor) : Machine → Prop
  | finish (told : Bool) (hrunning : t.connectivity = .running told) :
    ConnectivityMove m j t ({ m with network := m.network.leave t.network }.setMonitor j
      { t with connectivity := .done })
  | receive (d : Delivery Reachability) (network : Broadcast Reachability)
    (hd : m.network.receive? t.network = some (d, network)) :
    ConnectivityMove m j t { m with network }

def enlist (m : Machine) (r : Request) : Machine :=
  { m with
    callers := m.callers ++ [.ofRequest r]
    queue := match r with
      | .disconnect _ => m.queue
      | _ => m.queue ++ [m.callers.length] }

theorem callers_enlist (m : Machine) (r : Request) :
    (m.enlist r).callers = m.callers ++ [.ofRequest r] := rfl

/-- All that can happen to a machine. -/
inductive Move (setup : Setup) (m : Machine) : Label → Machine → Prop
  | call (r : Request) : Move setup m (.call r) (m.enlist r)
  | caller {l : Label} {i : Nat} {c c' : Caller} {m₁ : Machine} (hc : m.callers[i]? = some c)
    (h : CallerMove setup m i l c c' m₁) : Move setup m l (m₁.setCaller i c')
  | monitor {j : Nat} {t t' : Monitor} {m₁ : Machine} (ht : m.monitors[j]? = some t)
    (h : MonitorMove m t t' m₁) : Move setup m (.monitor j) (m₁.setMonitor j t')
  | connectivity {j : Nat} {t : Monitor} {m₁ : Machine} (ht : m.monitors[j]? = some t)
    (h : ConnectivityMove m j t m₁) : Move setup m (.connectivity j) m₁
  | emit (e : EngineReport) : Move setup m (.emit e) { m with events := m.events.send e }
  | report (s : Reachability) : Move setup m (.report s) { m with network := m.network.send s }
  | closeEngine : Move setup m .closeEngine { m with events := m.events.close }
  | closeNetwork : Move setup m .closeNetwork { m with network := m.network.close }
  | configure (s : Settings) : Move setup m (.configure s) { m with settings := s }
  | wait (ms : Nat) : Move setup m (.wait ms) { m with now := m.now + ms }

variable {setup : Setup} {m m₁ m' : Machine} {i j : Nat} {a : Attempt} {l : Label}

section Fields

variable (m : Machine) (s : TunnelStatus) (r : Option Nat)

/-- What is published is published, and all else stays. -/
theorem publish_eq : ∃ changes, m.publish s = { m with state := s, changes } := by
  unfold publish
  split
  next h => exact ⟨m.changes, by rw [h]⟩
  next => exact ⟨_, rfl⟩

@[simp] theorem state_publish : (m.publish s).state = s := by
  obtain ⟨_, h⟩ := m.publish_eq s; rw [h]

@[simp] theorem current_publish : (m.publish s).current = m.current := by
  obtain ⟨_, h⟩ := m.publish_eq s; rw [h]

@[simp] theorem settings_publish : (m.publish s).settings = m.settings := by
  obtain ⟨_, h⟩ := m.publish_eq s; rw [h]

@[simp] theorem callers_publish : (m.publish s).callers = m.callers := by
  obtain ⟨_, h⟩ := m.publish_eq s; rw [h]

@[simp] theorem queue_publish : (m.publish s).queue = m.queue := by
  obtain ⟨_, h⟩ := m.publish_eq s; rw [h]

@[simp] theorem slot_publish : (m.publish s).slot = m.slot := by
  obtain ⟨_, h⟩ := m.publish_eq s; rw [h]

@[simp] theorem monitors_publish : (m.publish s).monitors = m.monitors := by
  obtain ⟨_, h⟩ := m.publish_eq s; rw [h]

@[simp] theorem events_publish : (m.publish s).events = m.events := by
  obtain ⟨_, h⟩ := m.publish_eq s; rw [h]

@[simp] theorem calls_publish : (m.publish s).calls = m.calls := by
  obtain ⟨_, h⟩ := m.publish_eq s; rw [h]

@[simp] theorem current_unsubscribe : (m.unsubscribe r).current = m.current := by
  cases r <;> rfl

@[simp] theorem settings_unsubscribe : (m.unsubscribe r).settings = m.settings := by
  cases r <;> rfl

@[simp] theorem callers_unsubscribe : (m.unsubscribe r).callers = m.callers := by
  cases r <;> rfl

@[simp] theorem queue_unsubscribe : (m.unsubscribe r).queue = m.queue := by
  cases r <;> rfl

@[simp] theorem slot_unsubscribe : (m.unsubscribe r).slot = m.slot := by
  cases r <;> rfl

@[simp] theorem monitors_unsubscribe : (m.unsubscribe r).monitors = m.monitors := by
  cases r <;> rfl

end Fields

/-- Every step of a connecting call is one of its moves. -/
theorem connectMove_of_connectStep? {p p' : ConnectPhase}
    (h : m.connectStep? setup i a p = some (p', m₁)) : ConnectMove setup m i a p p' m₁ := by
  cases p with
  | waiting =>
    simp only [connectStep?] at h
    split at h
    next hlock =>
      split at h <;> cases h
      next hslot => exact .supersede _ (head?_of_holdsLock hlock) hslot
      next hslot => exact .enter (head?_of_holdsLock hlock) hslot
    next => cases h
  | joining j =>
    simp only [connectStep?] at h
    split at h <;> cases h
    next hended => exact .join j hended
  | announcing => cases h; exact .announce
  | recording => cases h; exact .record
  | building =>
    simp only [connectStep?] at h
    split at h <;> cases h
    next hbuilt => exact .build _ hbuilt
    next hbuilt => exact .refuse _ hbuilt
  | listening config => cases h; exact .listen config
  | raising config events mayRetry => cases h; exact .raise config events mayRetry
  | raised => cases h
  | observing events => cases h; exact .observe events
  | spawning events network => cases h; exact .spawn events network
  | failing e events => cases h; exact .fail e events
  | clearing e events => cases h; exact .clear e events
  | leaving events result => cases h; exact .leave events result
  | finished => cases h

theorem disconnectMove_of_disconnectStep? {p p' : DisconnectPhase}
    (h : m.disconnectStep? setup p = some (p', m₁)) : DisconnectMove setup m p p' m₁ := by
  cases p with
  | announcing => cases h; exact .announce
  | sleeping deadline =>
    simp only [disconnectStep?] at h
    split at h <;> cases h
    next hdue => exact .wake deadline hdue
  | clearing => cases h; exact .clear
  | lowering => cases h; exact .lower
  | lowered => cases h
  | finished => cases h

theorem stopMove_of_stopStep? {p p' : StopPhase} (h : m.stopStep? i p = some (p', m₁)) :
    StopMove m i p p' m₁ := by
  cases p with
  | waiting =>
    simp only [stopStep?] at h
    split at h
    next hlock =>
      split at h <;> cases h
      next hslot => exact .supersede _ (head?_of_holdsLock hlock) hslot
      next hslot => exact .enter (head?_of_holdsLock hlock) hslot
    next => cases h
  | joining j =>
    simp only [stopStep?] at h
    split at h <;> cases h
    next hended => exact .join j hended
  | leaving => cases h; exact .leave
  | finished => cases h

theorem answerMove_of_answered? {x : Except EngineFailure Unit} {c c' : Caller}
    (h : answered? x c = some c') : AnswerMove x c c' := by
  unfold answered? at h
  split at h
  · cases h; exact .raised ..
  · split at h
    next e a config events mayRetry hretry =>
      cases h
      simp only [EngineFailure.isTimedOut, Bool.and_eq_true, beq_iff_eq] at hretry
      obtain ⟨rfl, rfl⟩ := hretry
      exact .retry a config events
    next e a config events mayRetry hlast =>
      cases h
      refine .fail e a config events mayRetry ?_
      rintro rfl
      simpa [EngineFailure.isTimedOut] using hlast
  · cases h; exact .lowered x
  · cases h

/-- Every step of a monitor is one of its moves. -/
theorem monitorMove_of_monitorStep? {t : Monitor} (h : m.monitorStep? j t = some m') :
    ∃ t' m₁, MonitorMove m t t' m₁ ∧ m' = m₁.setMonitor j t' := by
  cases hphase : t.phase with
  | spawned =>
    simp only [monitorStep?, hphase] at h
    cases h
    exact ⟨_, _, .start hphase, rfl⟩
  | polling =>
    simp only [monitorStep?, hphase] at h
    split at h
    next htold => cases h; exact ⟨_, _, .heed hphase htold, rfl⟩
    next htold =>
      split at h <;> cases h
      next hready => exact ⟨_, _, .notice hphase (by simpa using htold) hready, rfl⟩
  | receiving =>
    simp only [monitorStep?, hphase] at h
    split at h <;> cases h
    next hd => exact ⟨_, _, .take _ _ hphase hd, rfl⟩
    next hd => exact ⟨_, _, .skip _ _ hphase hd, rfl⟩
    next hd => exact ⟨_, _, .close _ hphase hd, rfl⟩
    next hd => exact ⟨_, _, .miss hphase hd, rfl⟩
  | handling e =>
    simp only [monitorStep?, hphase] at h
    cases h
    exact ⟨_, _, .handle e hphase, rfl⟩
  | joining =>
    simp only [monitorStep?, hphase] at h
    split at h <;> cases h
    next hended => exact ⟨_, _, .finish hphase hended, rfl⟩
  | done => simp [monitorStep?, hphase] at h

theorem connectivityMove_of_connectivityStep? {t : Monitor}
    (h : m.connectivityStep? j t = some m') : ConnectivityMove m j t m' := by
  simp only [connectivityStep?] at h
  split at h
  next hrunning => cases h; exact .finish true hrunning
  next hrunning =>
    split at h <;> cases h
    next => exact .finish false hrunning
    next hd => exact .receive _ _ hd
  · cases h

/-- Every step of a machine is one of its moves. -/
theorem move_of_step (h : m.step setup l = some m') : Move setup m l m' := by
  cases l with
  | call r => cases h; exact .call r
  | caller i =>
    obtain ⟨c, hc, h⟩ := Option.bind_eq_some_iff.mp h
    cases c with
    | connect a p =>
      obtain ⟨⟨p', m₁⟩, hstep, rfl⟩ := Option.map_eq_some_iff.mp h
      exact .caller hc (.connect (connectMove_of_connectStep? hstep))
    | disconnect p =>
      obtain ⟨⟨p', m₁⟩, hstep, rfl⟩ := Option.map_eq_some_iff.mp h
      exact .caller hc (.disconnect (disconnectMove_of_disconnectStep? hstep))
    | stop p =>
      obtain ⟨⟨p', m₁⟩, hstep, rfl⟩ := Option.map_eq_some_iff.mp h
      exact .caller hc (.stop (stopMove_of_stopStep? hstep))
  | answer i x =>
    obtain ⟨c', hanswered, rfl⟩ := Option.map_eq_some_iff.mp h
    obtain ⟨c, hc, hanswered⟩ := Option.bind_eq_some_iff.mp hanswered
    exact .caller hc (.answer (answerMove_of_answered? hanswered))
  | monitor j =>
    obtain ⟨t, ht, h⟩ := Option.bind_eq_some_iff.mp h
    obtain ⟨t', m₁, hmove, rfl⟩ := monitorMove_of_monitorStep? h
    exact .monitor ht hmove
  | connectivity j =>
    obtain ⟨t, ht, h⟩ := Option.bind_eq_some_iff.mp h
    exact .connectivity ht (connectivityMove_of_connectivityStep? h)
  | emit e => cases h; exact .emit e
  | report s => cases h; exact .report s
  | closeEngine => cases h; exact .closeEngine
  | closeNetwork => cases h; exact .closeNetwork
  | configure s => cases h; exact .configure s
  | wait ms => cases h; exact .wait ms

/-- What a monitor and its connectivity task do leaves alone the calls and what these settle under
the lock. -/
structure Aside (m m₁ : Machine) : Prop where
  callers : m₁.callers = m.callers
  queue : m₁.queue = m.queue
  slot : m₁.slot = m.slot
  current : m₁.current = m.current
  settings : m₁.settings = m.settings
  calls : m₁.calls = m.calls

theorem Aside.trans {m₂ : Machine} (h : m.Aside m₁) (h' : m₁.Aside m₂) : m.Aside m₂ :=
  ⟨h'.callers.trans h.callers, h'.queue.trans h.queue, h'.slot.trans h.slot,
    h'.current.trans h.current, h'.settings.trans h.settings, h'.calls.trans h.calls⟩

theorem ConnectMove.callers_eq {p p' : ConnectPhase} (h : ConnectMove setup m i a p p' m₁) :
    m₁.callers = m.callers := by
  cases h with
  | announce | fail => exact callers_publish ..
  | leave events => exact callers_unsubscribe ..
  | _ => rfl

theorem StopMove.callers_eq {p p' : StopPhase} (h : StopMove m i p p' m₁) :
    m₁.callers = m.callers := by
  cases h <;> rfl

theorem DisconnectMove.alike {p p' : DisconnectPhase} (h : DisconnectMove setup m p p' m₁) :
    m.Alike m₁ := by
  cases h with
  | announce => exact m.alike_publish _
  | wake => exact .refl m
  | clear => exact m.alike_current _
  | lower => exact alike_callEngine _ m _ _

theorem CallerMove.callers_eq {c c' : Caller} (h : CallerMove setup m i l c c' m₁) :
    m₁.callers = m.callers := by
  cases h with
  | connect h => exact h.callers_eq
  | disconnect h => exact h.alike.callers
  | stop h => exact h.callers_eq
  | answer => rfl

theorem MonitorMove.aside {t t' : Monitor} (h : MonitorMove m t t' m₁) : m.Aside m₁ := by
  cases h with
  | handle e =>
    obtain ⟨changes, hpublish⟩ := m.publish_eq (.ofReport e)
    rw [hpublish]
    exact ⟨rfl, rfl, rfl, rfl, rfl, rfl⟩
  | _ => exact ⟨rfl, rfl, rfl, rfl, rfl, rfl⟩

theorem MonitorMove.monitors_eq {t t' : Monitor} (h : MonitorMove m t t' m₁) :
    m₁.monitors = m.monitors := by
  cases h with
  | handle => exact monitors_publish ..
  | _ => rfl

theorem ConnectivityMove.aside {t : Monitor} (h : ConnectivityMove m j t m') : m.Aside m' := by
  cases h <;> exact ⟨rfl, rfl, rfl, rfl, rfl, rfl⟩

/-- What a step is to the calls: a new one is made, one of them goes on, or they are left alone. -/
inductive CallMove (setup : Setup) (m : Machine) : Label → Machine → Prop
  | call (r : Request) : CallMove setup m (.call r) (m.enlist r)
  | go {l : Label} {i : Nat} {c c' : Caller} {m₁ : Machine} (hc : m.callers[i]? = some c)
    (h : CallerMove setup m i l c c' m₁) : CallMove setup m l (m₁.setCaller i c')
  | apart {l : Label} {m' : Machine} (hl : l.caller? = none) (hcallers : m'.callers = m.callers)
    (hqueue : m'.queue = m.queue) (hcurrent : m'.current = m.current) : CallMove setup m l m'

/-- A step makes a call, takes one further, or leaves them alone. -/
theorem callMove_of_step (h : m.step setup l = some m') : CallMove setup m l m' := by
  cases move_of_step h with
  | call r => exact .call r
  | caller hc hmove => exact .go hc hmove
  | monitor ht hmove => exact .apart rfl hmove.aside.callers hmove.aside.queue hmove.aside.current
  | connectivity ht hmove =>
    exact .apart rfl hmove.aside.callers hmove.aside.queue hmove.aside.current
  | _ => exact .apart rfl rfl rfl rfl

theorem CallerMove.caller? {c c' : Caller} (h : CallerMove setup m i l c c' m₁) :
    l.caller? = some i := by
  cases h <;> rfl

end Machine

end VpnTunnel
