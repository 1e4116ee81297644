import VpnTunnel.Proofs.Machine.Ending
import VpnTunnel.Proofs.Signal.Places

/-!
# Monitors do not lose their place

A monitor that has not ended listens to the engine, and nobody but itself moves its receiver. So
the events before it are those that were there, and those sent since.
-/

namespace VpnTunnel

/-- A call that has a receiver of the engine's events waits for no monitor. -/
theorem Caller.joins_of_events {c : Caller} {r : Nat} (h : c.holding.events = some r) :
    c.holding.joins = none := by
  cases c with
  | connect a p =>
    cases p with
    | joining => cases h
    | leaving events result => cases result <;> rfl
    | _ => rfl
  | disconnect p => cases h
  | stop p => cases p <;> cases h

def Happening.emits? : Happening → Option EngineReport
  | emitted _ e => some e
  | _ => none

def Label.emits? : Label → Option EngineReport
  | emit e => some e
  | _ => none

namespace Machine

variable {setup : Setup} {m m₁ m' : Machine} {i j : Nat} {c c' : Caller} {t : Monitor}
  {l : Label} {ls : List Label} {r : Nat}

/-- What the engine sends is in the chronicle if it reaches anybody. -/
theorem emits?_happening? :
    (m.happening? setup l).bind Happening.emits? =
      if m.events.audience = 0 then none else l.emits? := by
  cases l with
  | emit e => simp only [happening?]; split <;> rfl
  | _ =>
    simp only [Label.emits?, ite_self, Option.bind_eq_none_iff]
    intro x hx
    cases happens_of_happening? hx <;> rfl

/-- All that a step can do to the channel of the engine's events. -/
inductive ChannelMove (m : Machine) : Label → Broadcast EngineReport → Prop
  | keep {l : Label} (hemit : l.emits? = none) : ChannelMove m l m.events
  | subscribe {i : Nat} : ChannelMove m (.caller i) m.events.subscribe
  | drop {i : Nat} {c : Caller} {r : Nat} (hc : m.callers[i]? = some c)
    (hheld : c.holding.events = some r) : ChannelMove m (.caller i) (m.events.leave r)
  | receive {j : Nat} {t : Monitor} {d : Delivery EngineReport} {events : Broadcast EngineReport}
    (ht : m.monitors[j]? = some t) (hphase : t.phase = .receiving)
    (hd : m.events.receive? t.events = some (d, events)) : ChannelMove m (.monitor j) events
  | finish {j : Nat} {t : Monitor} (ht : m.monitors[j]? = some t) (hphase : t.phase = .joining) :
    ChannelMove m (.monitor j) (m.events.leave t.events)
  | emit (e : EngineReport) : ChannelMove m (.emit e) (m.events.send e)
  | close : ChannelMove m .closeEngine m.events.close

theorem channelMove_of_step (h : m.step setup l = some m') : ChannelMove m l m'.events := by
  cases move_of_step h with
  | caller hc hmove =>
    cases hmove with
    | connect hmove =>
      cases hmove with
      | listen => exact .subscribe
      | announce | fail => rw [setCaller, events_publish]; exact .keep rfl
      | leave events result =>
        cases events with
        | none => exact .keep rfl
        | some r => exact .drop hc (by cases result <;> rfl)
      | _ => exact .keep rfl
    | disconnect hmove =>
      cases hmove with
      | announce => rw [setCaller, events_publish]; exact .keep rfl
      | _ => exact .keep rfl
    | stop hmove => cases hmove <;> exact .keep rfl
    | answer => exact .keep rfl
  | monitor ht hmove =>
    cases hmove with
    | take e events hphase hd | skip missed events hphase hd | close events hphase hd =>
      exact .receive ht hphase hd
    | handle => rw [setMonitor, events_publish]; exact .keep rfl
    | finish hphase => exact .finish ht hphase
    | _ => exact .keep rfl
  | connectivity ht hmove => cases hmove <;> exact .keep rfl
  | emit e => exact .emit e
  | closeEngine => exact .close
  | _ => exact .keep rfl

theorem sound_of_step (hm : m.events.Sound) (h : m.step setup l = some m') : m'.events.Sound := by
  have hmove := channelMove_of_step h
  generalize m'.events = b at hmove ⊢
  cases hmove with
  | keep => exact hm
  | subscribe => exact hm.subscribe
  | drop | finish => exact hm.leave _
  | receive ht hphase hd => exact hm.receive hd
  | emit e => exact hm.send e
  | close => exact hm.close

theorem closed_of_step (h : m.step setup l = some m') (hclosed : m.events.closed = true) :
    m'.events.closed = true := by
  have hmove := channelMove_of_step h
  generalize m'.events = b at hmove ⊢
  cases hmove with
  | receive ht hphase hd => exact (Broadcast.closed_of_receive? hd).trans hclosed
  | emit e => exact Broadcast.closed_send.trans hclosed
  | close => rfl
  | _ => exact hclosed

theorem closed_of_run (h : m.run setup ls = some m') (hclosed : m.events.closed = true) :
    m'.events.closed = true :=
  run_induction (P := fun m => m.events.closed = true)
    (fun _ hclosed hstep => closed_of_step hstep hclosed) hclosed h

/-- Who is to listen does. -/
structure Listening (m : Machine) : Prop extends m.Custody where
  sound : m.events.Sound
  calls : ∀ {c r}, c ∈ m.callers → c.holding.events = some r → m.events.Listens r
  tasks : ∀ {t}, t ∈ m.monitors → t.IsAlive → m.events.Listens t.events
  /-- A call that has filled the slot has handed its receiver on. -/
  spent : ∀ {c}, c ∈ m.callers → c.holding.vacant = false → c.holding.events = none

theorem listening_idle (settings : Settings) (capacity : Nat) :
    (idle settings capacity).Listening where
  toCustody := custody_idle settings capacity
  sound := Broadcast.sound_ofCapacity capacity
  calls h := by simp [idle] at h
  tasks h := by simp [idle] at h
  spent h := by simp [idle] at h

namespace Listening

/-- While a call has a receiver, every monitor has ended. -/
theorem not_isAlive_of_events (hm : m.Listening) (hc : m.callers[i]? = some c)
    (hheld : c.holding.events = some r) : ∀ t ∈ m.monitors, ¬ t.IsAlive := by
  have hvacant : c.holding.vacant = true := by
    cases hv : c.holding.vacant with
    | true => rfl
    | false => cases (hm.spent (List.mem_of_getElem? hc) hv).symm.trans hheld
  exact hm.not_isAlive_of_vacant hc hvacant (Caller.joins_of_events hheld)

/-- A call may go on if its receivers, and those of the monitors, listen behind its step, and those
of the other calls do. -/
theorem setCaller (hm : m.Listening) (hcust : (m₁.setCaller i c').Custody)
    (hcallers : m₁.callers = m.callers) (hsound : m₁.events.Sound)
    (hown : ∀ r, c'.holding.events = some r → m₁.events.Listens r)
    (hspent : c'.holding.vacant = false → c'.holding.events = none)
    (hothers : ∀ k d r, k ≠ i → m.callers[k]? = some d → d.holding.events = some r →
      m₁.events.Listens r)
    (htasks : ∀ t ∈ m₁.monitors, t.IsAlive → m₁.events.Listens t.events) :
    (m₁.setCaller i c').Listening where
  toCustody := hcust
  sound := hsound
  calls {d r} hd hheld := by
    obtain ⟨k, hd⟩ := List.mem_iff_getElem?.mp hd
    rw [Machine.setCaller, hcallers] at hd
    obtain ⟨-, rfl⟩ | ⟨hk, hd⟩ := getElem?_set_eq_some hd
    · exact hown r hheld
    · exact hothers k d r hk hd hheld
  tasks ht halive := htasks _ ht halive
  spent {d} hd hvacant := by
    obtain hd | rfl := List.mem_or_eq_of_mem_set hd
    · exact hm.spent (hcallers ▸ hd) hvacant
    · exact hspent hvacant

/-- A call that changes what it holds leaves those listening who are to listen. -/
theorem handles (hm : m.Listening) (hcust : (m₁.setCaller i c').Custody)
    (hsound : m₁.events.Sound) (hc : m.callers[i]? = some c)
    (h : m.Handles i c.holding c'.holding m₁) : (m₁.setCaller i c').Listening := by
  have hcallers := h.callers_eq
  have hmem := List.mem_of_getElem? hc
  have hcalls := fun r => hm.calls (r := r) hmem
  have hspent := hm.spent hmem
  have hothers : ∀ k d r, k ≠ i → m.callers[k]? = some d → d.holding.events = some r →
      m.events.Listens r := fun k d r _ hd => hm.calls (List.mem_of_getElem? hd)
  have htasks : ∀ t ∈ m.monitors, t.IsAlive → m.events.Listens t.events := fun t => hm.tasks
  generalize hb : c.holding = b, hb' : c'.holding = b' at h hcalls hspent
  cases h with
  | keep b halike =>
    apply hm.setCaller hcust hcallers hsound
    · intro r hr
      exact (halike.events r).mpr (hcalls r (hb' ▸ hr))
    · rw [hb']
      exact hspent
    · intro k d r hk hd hr
      exact (halike.events r).mpr (hothers k d r hk hd hr)
    · rw [halike.monitors]
      exact fun t ht halive => (halike.events _).mpr (htasks t ht halive)
  | enter | joined =>
    apply hm.setCaller hcust hcallers hsound (by simp [hb']) (by simp [hb']) hothers htasks
  | supersede j =>
    apply hm.setCaller hcust hcallers hsound (by simp [hb']) (by simp [hb']) hothers
    intro u hu halive
    obtain ⟨k, hu⟩ := List.mem_iff_getElem?.mp hu
    obtain ⟨t, ht, hevents, hphase⟩ := exists_of_getElem?_dismiss hu
    rw [hevents]
    exact htasks t (List.mem_of_getElem? ht) fun hdone => halive (hphase.trans hdone)
  | listen =>
    have hgrows : ∀ r, m.events.Listens r → m.events.subscribe.Listens r :=
      fun r hr => Broadcast.listens_subscribe.mpr (.inl hr)
    apply hm.setCaller hcust hcallers hsound
    · intro r hr
      rw [hb'] at hr
      exact Broadcast.listens_subscribe.mpr (.inr (Option.some.inj hr).symm)
    · simp [hb']
    · exact fun k d r hk hd hr => hgrows r (hothers k d r hk hd hr)
    · exact fun t ht halive => hgrows _ (htasks t ht halive)
  | observe events =>
    apply hm.setCaller hcust hcallers hsound _ (by simp [hb']) hothers htasks
    intro r hr
    exact hcalls r (by simpa [hb'] using hr)
  | entrust events network =>
    apply hm.setCaller hcust hcallers hsound (by simp [hb']) (by simp [hb']) hothers
    intro t ht halive
    obtain ht | ht := List.mem_append.mp ht
    · exact htasks t ht halive
    · cases List.mem_singleton.mp ht
      exact hcalls events rfl
  | release vacant events =>
    -- nobody else has a receiver, and no monitor is left if the call has one
    apply hm.setCaller hcust hcallers hsound (by simp [hb']) (by simp [hb'])
    · intro k d r hk hd hr
      have hfree := hm.lock_eq_false hc (by rw [hb]) hk hd
      rw [Caller.holding_of_lock_eq_false hfree] at hr
      cases hr
    · cases events with
      | none => exact htasks
      | some r =>
        intro t ht halive
        exact absurd halive (hm.not_isAlive_of_events hc (by rw [hb]) t ht)

/-- Nothing is lost where the calls stay, the monitors keep their receivers, and all that listen go
on. -/
theorem keep (hm : m.Listening) (hcust : m₁.Custody) (hsound : m₁.events.Sound)
    (hcallers : m₁.callers = m.callers)
    (hmonitors : ∀ t ∈ m₁.monitors, t.IsAlive → ∃ u ∈ m.monitors, u.IsAlive ∧ u.events = t.events)
    (hevents : ∀ r, m.events.Listens r → m₁.events.Listens r) : m₁.Listening where
  toCustody := hcust
  sound := hsound
  calls hc hheld := hevents _ (hm.calls (hcallers ▸ hc) hheld)
  tasks {t} ht halive := by
    obtain ⟨u, hu, hualive, heq⟩ := hmonitors t ht halive
    exact hevents _ (heq ▸ hm.tasks hu hualive)
  spent hc := hm.spent (hcallers ▸ hc)

theorem of_alike (hm : m.Listening) (hsound : m₁.events.Sound) (h : m.Alike m₁) : m₁.Listening := by
  apply hm.keep (hm.toCustody.of_alike h) hsound h.callers
  · rw [h.monitors]
    exact fun t ht halive => ⟨t, ht, halive, rfl⟩
  · exact fun r => (h.events r).mpr

/-- A monitor that ends was the only one, and no call has a receiver while it is there. -/
theorem endMonitor (hm : m.Listening) (ht : m.monitors[j]? = some t) (halive : t.IsAlive)
    (hcust : m₁.Custody) (hsound : m₁.events.Sound) (hcallers : m₁.callers = m.callers)
    (hmonitors : m₁.monitors = m.monitors.set j { t with phase := .done }) : m₁.Listening where
  toCustody := hcust
  sound := hsound
  calls {c r} hc hheld := by
    obtain ⟨i, hc⟩ := List.mem_iff_getElem?.mp (hcallers ▸ hc)
    exact absurd halive (hm.not_isAlive_of_events hc hheld t (List.mem_of_getElem? ht))
  tasks {u} hu hualive := by
    obtain ⟨k, hu⟩ := List.mem_iff_getElem?.mp (hmonitors ▸ hu)
    obtain ⟨-, rfl⟩ | ⟨hk, hu⟩ := getElem?_set_eq_some hu
    · exact absurd rfl hualive
    · exact absurd (hm.atMostOne_isAlive k j u t hu ht hualive halive) hk
  spent hc := hm.spent (hcallers ▸ hc)

theorem step (hm : m.Listening) (h : m.step setup l = some m') : m'.Listening := by
  have hcust := hm.toCustody.step h
  have hsound := sound_of_step hm.sound h
  cases l with
  | call r =>
    cases h
    have hnew : ∀ {c}, c ∈ m.callers ++ [Caller.ofRequest r] → c ∈ m.callers ∨ c.holding = {} := by
      intro c hc
      obtain hc | hc := List.mem_append.mp hc
      · exact .inl hc
      · cases List.mem_singleton.mp hc
        exact .inr (Caller.holding_ofRequest r)
    refine ⟨hcust, hsound, fun {c r} hc hheld => ?_, hm.tasks, fun {c} hc hvacant => ?_⟩
    · obtain hc | hempty := hnew hc
      · exact hm.calls hc hheld
      · simp [hempty] at hheld
    · obtain hc | hempty := hnew hc
      · exact hm.spent hc hvacant
      · simp [hempty]
  | caller i =>
    obtain ⟨c, hc, h⟩ := Option.bind_eq_some_iff.mp h
    obtain ⟨c', m₁, hhandles, rfl, -⟩ := exists_handles_of_callerStep? h
    exact hm.handles hcust hsound hc hhandles
  | answer i x =>
    obtain ⟨c', hanswered, rfl⟩ := Option.map_eq_some_iff.mp h
    obtain ⟨c, hc, hanswered⟩ := Option.bind_eq_some_iff.mp hanswered
    obtain ⟨hholding, -⟩ := holding_of_answered? hanswered
    exact hm.handles hcust hsound hc (hholding ▸ .keep _ (.refl m))
  | monitor j =>
    obtain ⟨t, ht, h⟩ := Option.bind_eq_some_iff.mp h
    have halive : t.IsAlive := by
      intro hdone
      simp [monitorStep?, hdone] at h
    obtain ⟨t', m₁, rfl, halike, hcarries⟩ | ⟨-, rfl⟩ := exists_carries_or_done_of_monitorStep? h
    · apply hm.keep hcust hsound halike.callers
      · intro u hu hualive
        rw [setMonitor, halike.monitors] at hu
        obtain hu | rfl := List.mem_or_eq_of_mem_set hu
        · exact ⟨u, hu, hualive, rfl⟩
        · exact ⟨t, List.mem_of_getElem? ht, halive, hcarries.events.symm⟩
      · exact fun r => (halike.events r).mpr
    · exact hm.endMonitor ht halive hcust hsound rfl rfl
  | connectivity j =>
    obtain ⟨t, ht, h⟩ := Option.bind_eq_some_iff.mp h
    obtain halike | rfl := alike_or_done_of_connectivityStep? h
    · exact hm.of_alike hsound halike
    · apply hm.keep hcust hsound rfl
      · intro u hu hualive
        obtain hu | rfl := List.mem_or_eq_of_mem_set hu
        · exact ⟨u, hu, hualive, rfl⟩
        · exact ⟨t, List.mem_of_getElem? ht, hualive, rfl⟩
      · exact fun r => id
  | emit e =>
    cases h
    exact hm.keep hcust hsound rfl (fun t ht halive => ⟨t, ht, halive, rfl⟩)
      fun r => Broadcast.listens_send.mpr
  | _ =>
    cases h
    exact hm.keep hcust hsound rfl (fun t ht halive => ⟨t, ht, halive, rfl⟩) fun r => id

theorem run (hm : m.Listening) (h : m.run setup ls = some m') : m'.Listening :=
  run_induction (fun _ hm hstep => hm.step hstep) hm h

/-- Whoever else takes a step, a monitor that has not ended has before it what it had, and what is
sent by the step. -/
theorem ahead_of_step (hm : m.Listening) (ht : m.monitors[j]? = some t) (halive : t.IsAlive)
    (h : m.step setup l = some m') (hl : l ≠ .monitor j) :
    m'.events.ahead t.events =
      m.events.ahead t.events ++ ((m.happening? setup l).bind Happening.emits?).toList := by
  have hlistens := hm.tasks (List.mem_of_getElem? ht) halive
  rw [emits?_happening?]
  have hmove := channelMove_of_step h
  generalize m'.events = b at hmove ⊢
  cases hmove with
  | keep hemit => simp [hemit]
  | subscribe => simp [Label.emits?, Broadcast.ahead_subscribe hlistens]
  | drop hc hheld =>
    exact absurd halive (hm.not_isAlive_of_events hc hheld t (List.mem_of_getElem? ht))
  | @receive k u d events hu hphase | @finish k u hu hphase =>
    have hualive : u.IsAlive := by simp [Monitor.IsAlive, hphase]
    exact absurd (congrArg Label.monitor (hm.atMostOne_isAlive k j u t hu ht hualive halive)) hl
  | emit e =>
    by_cases haudience : m.events.audience = 0
    · simp [haudience, Broadcast.send_eq_self]
    · rw [Broadcast.ahead_send hm.sound hlistens haudience, if_neg haudience]
      rfl
  | close =>
    simp only [Label.emits?, ite_self, Option.toList_none, List.append_nil]
    rfl

end Listening

/-- Whatever a machine has been through, who is to listen does. -/
theorem listening_of_run {settings : Settings} {capacity : Nat}
    (h : (idle settings capacity).run setup ls = some m) : m.Listening :=
  (listening_idle settings capacity).run h

end Machine

end VpnTunnel
