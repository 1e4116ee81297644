import VpnTunnel.Proofs.Machine.Moves

/-!
# Chronicles

The chronicle of a run is the list of what has happened in it that is of note: what the engine is
asked and answers, what it reports and which reports are taken up, who gets the lock, and all that
is published. The published state and the calls of the engine can be read off the chronicle.
-/

namespace VpnTunnel

/-- The place in the channel of the item that a receiver got last. -/
def Broadcast.lastPlace {α : Type} (b : Broadcast α) (r : Nat) : Nat :=
  match b.receivers[r]? with
  | some (some position) => position - 1
  | _ => 0

/-- Something of note. Callers, monitors and receivers go by their numbers. -/
inductive Happening where
  /-- The caller gets the lock. -/
  | admitted (caller : Nat)
  /-- The caller publishes that it is connecting. -/
  | announced (caller : Nat)
  /-- The caller makes a configuration, from these settings. -/
  | built (caller : Nat) (settings : Settings)
  /-- The caller subscribes to the engine's events, for the items from the given place on. -/
  | subscribed (caller receiver start : Nat)
  /-- The caller turns to the engine. -/
  | asked (caller : Nat) (call : EngineCall)
  | answered (caller : Nat) (answer : Except EngineFailure Unit)
  /-- The caller starts a monitor and hands it a receiver. -/
  | started (caller monitor receiver : Nat)
  /-- The caller publishes a failure. -/
  | failed (caller : Nat) (e : CallFailure)
  /-- The caller publishes that the tunnel is disabled. -/
  | disabled (caller : Nat)
  /-- The engine reports something that somebody listens to. -/
  | emitted (place : Nat) (e : EngineReport)
  /-- The monitor publishes what the item at that place means. -/
  | handled (monitor place : Nat) (e : EngineReport)
  | ended (monitor : Nat)

namespace Happening

def publishes? : Happening → Option TunnelStatus
  | announced _ => some .connecting
  | failed _ e => some e.state
  | disabled _ => some .disabled
  | handled _ _ e => some (.ofReport e)
  | _ => none

def asks? : Happening → Option EngineCall
  | asked _ call => some call
  | _ => none

def admits? : Happening → Option Nat
  | admitted i => some i
  | _ => none

def handles? : Happening → Option EngineReport
  | handled _ _ e => some e
  | _ => none

def answers? : Happening → Option (Except EngineFailure Unit)
  | answered _ x => some x
  | _ => none

/-- The settings that a configuration is made from by it. -/
def reads? : Happening → Option Settings
  | built _ settings => some settings
  | _ => none

def caller? : Happening → Option Nat
  | admitted i | announced i | built i _ | subscribed i _ _ | asked i _ | answered i _
  | started i _ _ | failed i _ | disabled i => some i
  | emitted _ _ | handled _ _ _ | ended _ => none

end Happening

namespace Machine

def connectHappening? (setup : Setup) (m : Machine) (i : Nat) : ConnectPhase → Option Happening
  | .waiting => some (.admitted i)
  | .announcing => some (.announced i)
  | .building => some (.built i m.settings)
  | .listening _ => some (.subscribed i m.events.nextReceiver m.events.sent.length)
  | .raising config _ _ => some (.asked i ⟨setup.tunnel, .up, some config⟩)
  | .spawning events _ => some (.started i m.monitors.length events)
  | .failing e _ => some (.failed i e)
  | _ => none

def disconnectHappening? (setup : Setup) (i : Nat) : DisconnectPhase → Option Happening
  | .announcing => some (.disabled i)
  | .lowering => some (.asked i ⟨setup.tunnel, .down, none⟩)
  | _ => none

def stopHappening? (i : Nat) : StopPhase → Option Happening
  | .waiting => some (.admitted i)
  | _ => none

def callerHappening? (setup : Setup) (m : Machine) (i : Nat) : Caller → Option Happening
  | .connect _ p => m.connectHappening? setup i p
  | .disconnect p => disconnectHappening? setup i p
  | .stop p => stopHappening? i p

def monitorHappening? (m : Machine) (j : Nat) (t : Monitor) : Option Happening :=
  match t.phase with
  | .handling e => some (.handled j (m.events.lastPlace t.events) e)
  | .joining => some (.ended j)
  | _ => none

def happening? (setup : Setup) (m : Machine) : Label → Option Happening
  | .caller i => m.callers[i]?.bind (m.callerHappening? setup i)
  | .answer i x => some (.answered i x)
  | .monitor j => m.monitors[j]?.bind (m.monitorHappening? j)
  | .emit e => if m.events.audience = 0 then none else some (.emitted m.events.sent.length e)
  | _ => none

/-- All that is of note in a run. -/
def chronicle (setup : Setup) : Machine → List Label → List Happening
  | _, [] => []
  | m, l :: ls =>
    match m.step setup l with
    | some m' => (m.happening? setup l).toList ++ m'.chronicle setup ls
    | none => []

variable {setup : Setup} {m m₁ m' : Machine} {l : Label} {ls ls' : List Label} {i j : Nat}

/-- All that is of note, with what brings it about. -/
inductive Happens (setup : Setup) (m : Machine) : Label → Happening → Prop
  | admitted {i : Nat} {a : Attempt} (hc : m.callers[i]? = some (.connect a .waiting)) :
    Happens setup m (.caller i) (.admitted i)
  | announced {i : Nat} {a : Attempt} (hc : m.callers[i]? = some (.connect a .announcing)) :
    Happens setup m (.caller i) (.announced i)
  | built {i : Nat} {a : Attempt} (hc : m.callers[i]? = some (.connect a .building)) :
    Happens setup m (.caller i) (.built i m.settings)
  | subscribed {i : Nat} {a : Attempt} {config : Config}
    (hc : m.callers[i]? = some (.connect a (.listening config))) :
    Happens setup m (.caller i) (.subscribed i m.events.nextReceiver m.events.sent.length)
  | raising {i : Nat} {a : Attempt} {config : Config} {events : Nat} {mayRetry : Bool}
    (hc : m.callers[i]? = some (.connect a (.raising config events mayRetry))) :
    Happens setup m (.caller i) (.asked i ⟨setup.tunnel, .up, some config⟩)
  | started {i : Nat} {a : Attempt} {events network : Nat}
    (hc : m.callers[i]? = some (.connect a (.spawning events network))) :
    Happens setup m (.caller i) (.started i m.monitors.length events)
  | failed {i : Nat} {a : Attempt} {e : CallFailure} {events : Option Nat}
    (hc : m.callers[i]? = some (.connect a (.failing e events))) :
    Happens setup m (.caller i) (.failed i e)
  | disabled {i : Nat} (hc : m.callers[i]? = some (.disconnect .announcing)) :
    Happens setup m (.caller i) (.disabled i)
  | lowering {i : Nat} (hc : m.callers[i]? = some (.disconnect .lowering)) :
    Happens setup m (.caller i) (.asked i ⟨setup.tunnel, .down, none⟩)
  | stopping {i : Nat} (hc : m.callers[i]? = some (.stop .waiting)) :
    Happens setup m (.caller i) (.admitted i)
  | answered (i : Nat) (x : Except EngineFailure Unit) :
    Happens setup m (.answer i x) (.answered i x)
  | emitted (e : EngineReport) (haudience : m.events.audience ≠ 0) :
    Happens setup m (.emit e) (.emitted m.events.sent.length e)
  | handled {j : Nat} {t : Monitor} {e : EngineReport} (ht : m.monitors[j]? = some t)
    (hphase : t.phase = .handling e) :
    Happens setup m (.monitor j) (.handled j (m.events.lastPlace t.events) e)
  | ended {j : Nat} {t : Monitor} (ht : m.monitors[j]? = some t) (hphase : t.phase = .joining) :
    Happens setup m (.monitor j) (.ended j)

/-- What is of note in a step has come about in one of the listed ways. -/
theorem happens_of_happening? {setup : Setup} {m : Machine} {l : Label} {x : Happening}
    (h : m.happening? setup l = some x) : Happens setup m l x := by
  cases l with
  | caller i =>
    obtain ⟨c, hc, h⟩ := Option.bind_eq_some_iff.mp h
    cases c with
    | connect a p =>
      cases p with
      | waiting => cases h; exact .admitted hc
      | announcing => cases h; exact .announced hc
      | building => cases h; exact .built hc
      | listening => cases h; exact .subscribed hc
      | raising => cases h; exact .raising hc
      | spawning => cases h; exact .started hc
      | failing => cases h; exact .failed hc
      | _ => cases h
    | disconnect p =>
      cases p with
      | announcing => cases h; exact .disabled hc
      | lowering => cases h; exact .lowering hc
      | _ => cases h
    | stop p =>
      cases p with
      | waiting => cases h; exact .stopping hc
      | _ => cases h
  | answer i x => cases h; exact .answered i x
  | monitor j =>
    obtain ⟨t, ht, h⟩ := Option.bind_eq_some_iff.mp h
    simp only [monitorHappening?] at h
    split at h <;> cases h
    next hphase => exact .handled ht hphase
    next hphase => exact .ended ht hphase
  | emit e =>
    simp only [happening?] at h
    split at h <;> cases h
    next haudience => exact .emitted e haudience
  | _ => cases h

theorem happening?_connect {a : Attempt} {p : ConnectPhase}
    (hc : m.callers[i]? = some (.connect a p)) :
    m.happening? setup (.caller i) = m.connectHappening? setup i p := by
  rw [happening?, hc]; rfl

theorem happening?_disconnect {p : DisconnectPhase}
    (hc : m.callers[i]? = some (.disconnect p)) :
    m.happening? setup (.caller i) = disconnectHappening? setup i p := by
  rw [happening?, hc]; rfl

theorem happening?_stop {p : StopPhase} (hc : m.callers[i]? = some (.stop p)) :
    m.happening? setup (.caller i) = stopHappening? i p := by
  rw [happening?, hc]; rfl

theorem happening?_monitor {t : Monitor} (ht : m.monitors[j]? = some t) :
    m.happening? setup (.monitor j) = m.monitorHappening? j t := by
  rw [happening?, ht]; rfl

theorem caller?_of_happening? {setup : Setup} {m : Machine} {l : Label} {x : Happening}
    (h : m.happening? setup l = some x) : x.caller? = l.caller? := by
  cases happens_of_happening? h <;> rfl

theorem run_cons_of_step (h : m.step setup l = some m') :
    m.run setup (l :: ls) = m'.run setup ls := by
  rw [run, h, Option.bind_some]

theorem run_append (m : Machine) (ls ls' : List Label) :
    m.run setup (ls ++ ls') = (m.run setup ls).bind fun m' => m'.run setup ls' := by
  induction ls generalizing m with
  | nil => rfl
  | cons l ls ih =>
    simp only [List.cons_append, run, Option.bind_assoc]
    congr 1
    funext m'
    exact ih m'

theorem run_append_of_run (h : m.run setup ls = some m₁) :
    m.run setup (ls ++ ls') = m₁.run setup ls' := by
  rw [run_append, h, Option.bind_some]

theorem chronicle_cons_of_step (h : m.step setup l = some m') :
    m.chronicle setup (l :: ls) = (m.happening? setup l).toList ++ m'.chronicle setup ls := by
  rw [chronicle, h]

/-- The chronicle goes on where the run goes on. -/
theorem chronicle_append_of_run (h : m.run setup ls = some m₁) :
    m.chronicle setup (ls ++ ls') = m.chronicle setup ls ++ m₁.chronicle setup ls' := by
  induction ls generalizing m with
  | nil => cases h; rfl
  | cons l ls ih =>
    obtain ⟨m', hstep, hrun⟩ := Option.bind_eq_some_iff.mp h
    rw [List.cons_append, chronicle_cons_of_step hstep, chronicle_cons_of_step hstep, ih hrun,
      List.append_assoc]

/-- What is of note in a run has its place there. -/
theorem exists_of_chronicle_eq {g g' : List Happening} {x : Happening}
    (hrun : m.run setup ls = some m') (h : m.chronicle setup ls = g ++ x :: g') :
    ∃ ls₁ l ls₂ m₁ m₂, ls = ls₁ ++ l :: ls₂ ∧ m.run setup ls₁ = some m₁ ∧
      m.chronicle setup ls₁ = g ∧ m₁.step setup l = some m₂ ∧ m₁.happening? setup l = some x ∧
      m₂.run setup ls₂ = some m' ∧ m₂.chronicle setup ls₂ = g' := by
  induction ls generalizing m g with
  | nil => simp [chronicle] at h
  | cons l ls ih =>
    obtain ⟨m₁, hstep, hrest⟩ := Option.bind_eq_some_iff.mp hrun
    -- it happens at once, or later
    obtain ⟨hx, rfl, hg'⟩ | ⟨g₁, rfl, hlater⟩ :
        m.happening? setup l = some x ∧ g = [] ∧ m₁.chronicle setup ls = g' ∨
          ∃ g₁, g = (m.happening? setup l).toList ++ g₁ ∧
            m₁.chronicle setup ls = g₁ ++ x :: g' := by
      rw [chronicle_cons_of_step hstep] at h
      cases hl : m.happening? setup l with
      | none => exact .inr ⟨g, rfl, by simpa [hl] using h⟩
      | some y =>
        rw [hl, Option.toList_some, List.singleton_append] at h
        cases g with
        | nil =>
          obtain ⟨rfl, hg'⟩ := List.cons.inj h
          exact .inl ⟨rfl, rfl, hg'⟩
        | cons z g =>
          obtain ⟨rfl, hlater⟩ := List.cons.inj h
          exact .inr ⟨g, rfl, hlater⟩
    · exact ⟨[], l, ls, m, m₁, rfl, rfl, rfl, hstep, hx, hrest, hg'⟩
    · obtain ⟨ls₁, l', ls₂, m₂, m₃, rfl, hrun₁, hg₁, hstep', hx, hrun₂, hg₂⟩ := ih hrest hlater
      exact ⟨l :: ls₁, l', ls₂, m₂, m₃, rfl, (run_cons_of_step hstep).trans hrun₁,
        by rw [chronicle_cons_of_step hstep, hg₁], hstep', hx, hrun₂, hg₂⟩

/-- What every step keeps, of the machine and of what has happened so far, a run keeps. -/
theorem chronicle_induction {P : List Happening → Machine → Prop} {c : List Happening}
    (hstep : ∀ {c m l m'}, l ∈ ls → P c m → m.step setup l = some m' →
      P (c ++ (m.happening? setup l).toList) m')
    (hm : P c m) (h : m.run setup ls = some m') : P (c ++ m.chronicle setup ls) m' := by
  induction ls generalizing m c with
  | nil => cases h; simpa [chronicle] using hm
  | cons l ls ih =>
    obtain ⟨m₁, hfirst, hrun⟩ := Option.bind_eq_some_iff.mp h
    rw [chronicle_cons_of_step hfirst, ← List.append_assoc]
    exact ih (fun hl => hstep (.tail l hl)) (hstep (.head ls) hm hfirst) hrun

/-- A step publishes what its place in the chronicle says, and nothing else. -/
theorem state_of_step (h : m.step setup l = some m') :
    m'.state = ((m.happening? setup l).bind Happening.publishes?).getD m.state := by
  cases move_of_step h with
  | caller hc hmove =>
    cases hmove with
    | connect hmove =>
      simp only [happening?_connect hc, setCaller]
      cases hmove with
      | announce => exact state_publish ..
      | fail => exact state_publish ..
      | leave events => cases events <;> rfl
      | _ => rfl
    | disconnect hmove =>
      simp only [happening?_disconnect hc, setCaller]
      cases hmove with
      | announce => exact state_publish ..
      | _ => rfl
    | stop hmove =>
      simp only [happening?_stop hc, setCaller]
      cases hmove <;> rfl
    | answer => rfl
  | monitor ht hmove =>
    simp only [happening?_monitor ht, monitorHappening?, setMonitor]
    cases hmove with
    | handle e hphase => simp [hphase, Happening.publishes?]
    | _ => simp [*, Happening.publishes?]
  | connectivity ht hmove => cases hmove <;> rfl
  | emit e => simp only [happening?]; split <;> rfl
  | _ => rfl

/-- A step calls the engine for what its place in the chronicle says, and for nothing else. -/
theorem calls_of_step (h : m.step setup l = some m') :
    m'.calls = m.calls ++ (((m.happening? setup l).bind Happening.asks?).map fun call =>
      (⟨call, m.state, m.now⟩ : CallRecord)).toList := by
  cases move_of_step h with
  | caller hc hmove =>
    cases hmove with
    | connect hmove =>
      simp only [happening?_connect hc, setCaller]
      cases hmove with
      | announce => simp [connectHappening?, Happening.asks?]
      | fail => simp [connectHappening?, Happening.asks?]
      | raise => simp [connectHappening?, Happening.asks?, callEngine]
      | leave events =>
        cases events <;> simp [connectHappening?, unsubscribe, unlock]
      | _ => simp [connectHappening?, Happening.asks?, dismiss, spawn]
    | disconnect hmove =>
      simp only [happening?_disconnect hc, setCaller]
      cases hmove <;> simp [disconnectHappening?, Happening.asks?, callEngine]
    | stop hmove =>
      simp only [happening?_stop hc, setCaller]
      cases hmove <;> simp [stopHappening?, Happening.asks?, dismiss, unlock]
    | answer hmove => simp [happening?, Happening.asks?, setCaller]
  | monitor ht hmove =>
    simp only [happening?_monitor ht, monitorHappening?, setMonitor]
    cases hmove <;> simp [*, Happening.asks?]
  | connectivity ht hmove => cases hmove <;> simp [happening?, setMonitor]
  | emit e => simp only [happening?]; split <;> simp [Happening.asks?]
  | _ => simp [happening?, enlist]

/-- The published state is what was published last. -/
theorem state_of_run (h : m.run setup ls = some m') :
    m'.state = ((m.chronicle setup ls).filterMap Happening.publishes?).getLast?.getD m.state := by
  refine chronicle_induction (c := [])
    (P := fun c m' => m'.state = (c.filterMap Happening.publishes?).getLast?.getD m.state)
    (fun {c m₁ l m₂} _ hm hstep => ?_) rfl h
  rw [state_of_step hstep, hm]
  cases m₁.happening? setup l with
  | none => simp
  | some x => cases hx : x.publishes? <;> simp [hx]

/-- The engine has been called for what it was asked, in turn. -/
theorem calls_of_run (h : m.run setup ls = some m') :
    m'.calls.map CallRecord.call =
      m.calls.map CallRecord.call ++ (m.chronicle setup ls).filterMap Happening.asks? := by
  refine chronicle_induction (c := []) (P := fun c m' => m'.calls.map CallRecord.call =
    m.calls.map CallRecord.call ++ c.filterMap Happening.asks?)
    (fun {c m₁ l m₂} _ hm hstep => ?_) (by simp) h
  rw [calls_of_step hstep, List.map_append, hm, List.append_assoc, List.filterMap_append]
  congr 2
  cases m₁.happening? setup l with
  | none => rfl
  | some x => cases hx : x.asks? <;> simp [hx]

end Machine

end VpnTunnel
