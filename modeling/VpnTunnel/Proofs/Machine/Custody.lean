import VpnTunnel.Proofs.Machine.Holdings

/-!
# Who answers for what

Everything that a machine shares has someone to answer for it. Who is inside the lock is first in
the queue; a monitor that has not ended is in the slot, or a call waits for its end; a receiver that
listens belongs to a task that has not ended, or to a call. Each step of a machine keeps this.
-/

namespace VpnTunnel

section Lists

variable {α : Type} {l : List α} {i j : Nat} {x y : α} {P : α → Prop}

theorem getElem?_set_eq_some (h : (l.set i x)[j]? = some y) :
    j = i ∧ y = x ∨ j ≠ i ∧ l[j]? = some y := by
  rw [List.getElem?_set] at h
  split at h
  next hij =>
    split at h <;> cases h
    exact .inl ⟨hij.symm, rfl⟩
  next hij => exact .inr ⟨Ne.symm hij, h⟩

theorem eq_of_getElem?_set_self (h : (l.set i x)[i]? = some y) : y = x := by
  obtain ⟨-, h⟩ | ⟨hne, -⟩ := getElem?_set_eq_some h
  · exact h
  · exact absurd rfl hne

theorem getElem?_set_self_of_eq_some (hx : l[i]? = some x) : (l.set i y)[i]? = some y :=
  List.getElem?_set_self (List.getElem?_eq_some_iff.mp hx).1

theorem getElem?_append_of_eq_some {l' : List α} (hx : l[i]? = some x) :
    (l ++ l')[i]? = some x :=
  (List.getElem?_append_left (List.getElem?_eq_some_iff.mp hx).1).trans hx

theorem getElem?_append_singleton_eq_some (h : (l ++ [x])[i]? = some y) :
    i < l.length ∧ l[i]? = some y ∨ i = l.length ∧ y = x := by
  rw [List.getElem?_append] at h
  split at h
  next hi => exact .inl ⟨hi, h⟩
  next hi =>
    obtain ⟨hlt, rfl⟩ := List.getElem?_eq_some_iff.mp h
    rw [List.length_singleton] at hlt
    exact .inr ⟨by omega, by simp⟩

/-- What a list has in it stays there when one of its places is written over, but at that place. -/
theorem or_exists_mem_set (hx : l[i]? = some x) (h : ∃ a ∈ l, P a) :
    P x ∨ ∃ a ∈ l.set i y, P a := by
  obtain ⟨a, ha, hP⟩ := h
  obtain ⟨k, hk⟩ := List.mem_iff_getElem?.mp ha
  by_cases hki : i = k
  · subst hki
    cases hk.symm.trans hx
    exact .inl hP
  · exact .inr ⟨a, List.mem_of_getElem? ((List.getElem?_set_ne hki).trans hk), hP⟩

theorem exists_mem_set (hx : l[i]? = some x) (hP : P x → P y) (h : ∃ a ∈ l, P a) :
    ∃ a ∈ l.set i y, P a := by
  obtain ⟨hi, _⟩ := List.getElem?_eq_some_iff.mp hx
  exact (or_exists_mem_set hx h).elim (fun h => ⟨y, List.mem_set hi y, hP h⟩) id

theorem modify_eq_set_of_getElem? (f : α → α) (hx : l[i]? = some x) :
    l.modify i f = l.set i (f x) := by
  ext1 k
  rw [List.getElem?_modify, List.getElem?_set]
  split
  next hik =>
    subst hik
    obtain ⟨hi, hx⟩ := List.getElem?_eq_some_iff.mp hx
    simp [hi, hx]
  next => simp

end Lists

namespace Machine

/-- Whatever can be held has someone to answer for it. -/
structure Custody (m : Machine) : Prop where
  /-- Who is inside the lock is first in the queue. -/
  first : ∀ {i c}, m.callers[i]? = some c → c.holding.lock = true → m.queue.head? = some i
  /-- The slot is as the call inside the lock has left it. -/
  vacant : ∀ {c}, c ∈ m.callers → c.holding.vacant = true → m.slot = none
  /-- A monitor that has not ended is in the slot, or a call waits for its end. -/
  charge : ∀ {j t}, m.monitors[j]? = some t → t.phase ≠ .done →
    m.slot = some j ∨ ∃ c ∈ m.callers, c.holding.joins = some j
  /-- A monitor ends after its connectivity task. -/
  child : ∀ {t}, t ∈ m.monitors → t.phase = .done → t.connectivity = .done
  /-- Who listens to the engine is a monitor that has not ended, or a call. -/
  events : ∀ {r}, m.events.Listens r →
    (∃ t ∈ m.monitors, t.phase ≠ .done ∧ t.events = r) ∨
      ∃ c ∈ m.callers, c.holding.events = some r
  /-- Who listens to the network is a connectivity task that has not ended, or a call. -/
  network : ∀ {r}, m.network.Listens r →
    (∃ t ∈ m.monitors, t.connectivity ≠ .done ∧ t.network = r) ∨
      ∃ c ∈ m.callers, c.holding.network = some r

variable {setup : Setup} {m m₁ m' : Machine} {i j : Nat} {c c' : Caller} {t t' : Monitor}

theorem custody_idle (settings : Settings) (capacity : Nat) : (idle settings capacity).Custody where
  first h := by simp [idle] at h
  vacant h := by simp [idle] at h
  charge h := by simp [idle] at h
  child h := by simp [idle] at h
  events h := by simp [idle] at h
  network h := by simp [idle] at h

namespace Custody

theorem of_alike (hm : m.Custody) (h : m.Alike m₁) : m₁.Custody where
  first hc := by rw [h.callers] at hc; rw [h.queue]; exact hm.first hc
  vacant hc := by rw [h.callers] at hc; rw [h.slot]; exact hm.vacant hc
  charge ht := by rw [h.monitors] at ht; rw [h.slot, h.callers]; exact hm.charge ht
  child ht := by rw [h.monitors] at ht; exact hm.child ht
  events hr := by rw [h.events] at hr; rw [h.monitors, h.callers]; exact hm.events hr
  network hr := by rw [h.network] at hr; rw [h.monitors, h.callers]; exact hm.network hr

/-- A call may go on to hold something else, and empty the slot, if nothing is left that nobody
answers for. -/
theorem setCaller (hm : m.Custody) (hc : m.callers[i]? = some c) (c' : Caller)
    (slot : Option Nat)
    (hlock : c'.holding.lock = true → m.queue.head? = some i)
    (hslot : slot = none ∨ slot = m.slot)
    (hvacant : c'.holding.vacant = true → slot = none)
    (hcharge : ∀ {j t}, m.monitors[j]? = some t → t.phase ≠ .done →
      m.slot = some j ∨ c.holding.joins = some j → slot = some j ∨ c'.holding.joins = some j)
    (hevents : ∀ {r}, m.events.Listens r → c.holding.events = some r → c'.holding.events = some r)
    (hnetwork : ∀ {r}, m.network.Listens r → c.holding.network = some r →
      c'.holding.network = some r) : ({ m with slot }.setCaller i c').Custody where
  first hd hdlock := by
    obtain ⟨rfl, rfl⟩ | ⟨-, hd⟩ := getElem?_set_eq_some hd
    · exact hlock hdlock
    · exact hm.first hd hdlock
  vacant hd hdvacant := by
    obtain hd | rfl := List.mem_or_eq_of_mem_set hd
    · exact hslot.elim id fun h => h.trans (hm.vacant hd hdvacant)
    · exact hvacant hdvacant
  charge := by
    intro k u hu halive
    have hown : m.slot = some k ∨ c.holding.joins = some k →
        slot = some k ∨ ∃ d ∈ m.callers.set i c', d.holding.joins = some k := fun h =>
      (hcharge hu halive h).imp_right fun h =>
        ⟨c', List.mem_set (List.getElem?_eq_some_iff.mp hc).1 c', h⟩
    obtain h | h := hm.charge hu halive
    · exact hown (.inl h)
    · exact (or_exists_mem_set hc h).elim (fun h => hown (.inr h)) .inr
  child := hm.child
  events hr := (hm.events hr).imp_right (exists_mem_set hc (hevents hr))
  network hr := (hm.network hr).imp_right (exists_mem_set hc (hnetwork hr))

/-- A call that holds as much as before may be in another phase. -/
theorem keep (hm : m.Custody) (hc : m.callers[i]? = some c) (h : c'.holding = c.holding) :
    (m.setCaller i c').Custody :=
  hm.setCaller hc c' m.slot (by rw [h]; exact hm.first hc) (.inr rfl)
    (by rw [h]; exact hm.vacant (List.mem_of_getElem? hc)) (by rw [h]; exact fun _ _ => id)
    (by rw [h]; exact fun _ => id) (by rw [h]; exact fun _ => id)

/-- A task may change if what it ceases to hold is gone. -/
theorem setMonitor (hm : m.Custody) (ht : m.monitors[j]? = some t)
    (halive : t'.phase ≠ .done → t.phase ≠ .done)
    (hchild : t'.phase = .done → t'.connectivity = .done)
    (hevents : m.events.Listens t.events → t.phase ≠ .done →
      t'.phase ≠ .done ∧ t'.events = t.events)
    (hnetwork : m.network.Listens t.network → t.connectivity ≠ .done →
      t'.connectivity ≠ .done ∧ t'.network = t.network) : (m.setMonitor j t').Custody where
  first := hm.first
  vacant := hm.vacant
  charge hu hdone := by
    obtain ⟨rfl, rfl⟩ | ⟨-, hu⟩ := getElem?_set_eq_some hu
    · exact hm.charge ht (halive hdone)
    · exact hm.charge hu hdone
  child hu := by
    obtain hu | rfl := List.mem_or_eq_of_mem_set hu
    · exact hm.child hu
    · exact hchild
  events hr := by
    refine (hm.events hr).imp_left (exists_mem_set ht ?_)
    rintro ⟨hphase, rfl⟩
    exact hevents hr hphase
  network hr := by
    refine (hm.network hr).imp_left (exists_mem_set ht ?_)
    rintro ⟨hconn, rfl⟩
    exact hnetwork hr hconn

theorem leaveEvents (hm : m.Custody) (r : Nat) :
    { m with events := m.events.leave r }.Custody :=
  { hm with events := fun hr => hm.events (Broadcast.listens_leave.mp hr).1 }

theorem leaveNetwork (hm : m.Custody) (r : Nat) :
    { m with network := m.network.leave r }.Custody :=
  { hm with network := fun hr => hm.network (Broadcast.listens_leave.mp hr).1 }

theorem subscribeEvents (hm : m.Custody)
    (h : ∃ c ∈ m.callers, c.holding.events = some m.events.nextReceiver) :
    { m with events := m.events.subscribe }.Custody :=
  { hm with
    events := fun hr => (Broadcast.listens_subscribe.mp hr).elim hm.events
      fun hnew => .inr (hnew ▸ h) }

theorem subscribeNetwork (hm : m.Custody)
    (h : ∃ c ∈ m.callers, c.holding.network = some m.network.nextReceiver) :
    { m with network := m.network.subscribe }.Custody :=
  { hm with
    network := fun hr => (Broadcast.listens_subscribe.mp hr).elim hm.network
      fun hnew => .inr (hnew ▸ h) }

theorem unlock (hm : m.Custody) (h : ∀ c ∈ m.callers, c.holding.lock = false) :
    m.unlock.Custody :=
  { hm with
    first := fun hc hlock => by simp [h _ (List.mem_of_getElem? hc)] at hlock }

/-- Telling a monitor to stop ends nothing yet. -/
theorem tell (hm : m.Custody) (j : Nat) :
    { m with monitors := m.monitors.modify j fun t => { t with told := true } }.Custody := by
  cases ht : m.monitors[j]? with
  | none => rw [List.modify_eq_self (List.getElem?_eq_none_iff.mp ht)]; exact hm
  | some t =>
    rw [modify_eq_set_of_getElem? _ ht]
    have hchild := hm.child (List.mem_of_getElem? ht)
    exact hm.setMonitor ht id hchild (fun _ h => ⟨h, rfl⟩) fun _ h => ⟨h, rfl⟩

/-- Only one call is inside the lock. -/
theorem eq_of_lock (hm : m.Custody) (hc : m.callers[i]? = some c) (hlock : c.holding.lock = true)
    {k : Nat} {d : Caller} (hd : m.callers[k]? = some d) (hdlock : d.holding.lock = true) :
    k = i := by
  have hfirst := hm.first hc hlock
  rw [hm.first hd hdlock] at hfirst
  exact Option.some.inj hfirst

/-- While one call has the lock, no other has it. -/
theorem lock_eq_false (hm : m.Custody) (hc : m.callers[i]? = some c)
    (hlock : c.holding.lock = true) {k : Nat} {d : Caller} (hk : k ≠ i)
    (hd : m.callers[k]? = some d) : d.holding.lock = false :=
  Bool.eq_false_iff.mpr fun hdlock => hk (hm.eq_of_lock hc hlock hd hdlock)

/-- A call that is alone inside the lock hands its receivers to a monitor that it starts. -/
theorem entrust (hm : m.Custody) (hc : m.callers[i]? = some c) {events network : Nat}
    (hb : c.holding =
      { lock := true, vacant := true, events := some events, network := some network })
    (hb' : c'.holding = { lock := true }) :
    ((m.spawn events network).setCaller i c').Custody := by
  have hslot : m.slot = none := hm.vacant (List.mem_of_getElem? hc) (by rw [hb])
  have hnew : _ ∈ (m.spawn events network).monitors := List.mem_append_right _ (.head _)
  refine ⟨?first, ?vacant, ?charge, ?child, ?events, ?network⟩
  case first =>
    intro k d hd hdlock
    obtain ⟨rfl, rfl⟩ | ⟨-, hd⟩ := getElem?_set_eq_some hd
    · exact hm.first hc (by rw [hb])
    · exact hm.first hd hdlock
  case vacant =>
    intro d hd hdvacant
    obtain ⟨k, hk⟩ := List.mem_iff_getElem?.mp hd
    obtain ⟨rfl, rfl⟩ | ⟨hki, hk⟩ := getElem?_set_eq_some hk
    · simp [hb'] at hdvacant
    · -- nobody else is inside the lock, so nobody else relies on an empty slot
      have hfree := hm.lock_eq_false hc (by rw [hb]) hki hk
      cases hfree.symm.trans (Caller.lock_of_vacant hdvacant)
  case charge =>
    intro k t ht halive
    obtain hk | hk := Nat.lt_or_ge k m.monitors.length
    · have ht : m.monitors[k]? = some t := (List.getElem?_append_left hk).symm.trans ht
      obtain h | h := hm.charge ht halive
      · cases hslot.symm.trans h
      · exact .inr (exists_mem_set hc (by simp [hb]) h)
    · have hlast : k < (m.monitors ++ [_]).length := (List.getElem?_eq_some_iff.mp ht).1
      rw [List.length_append, List.length_singleton] at hlast
      exact .inl (congrArg some (Nat.le_antisymm hk (Nat.le_of_lt_succ hlast)))
  case child =>
    intro t ht hdone
    obtain ht | ht := List.mem_append.mp ht
    · exact hm.child ht hdone
    · cases List.mem_singleton.mp ht
      cases hdone
  case events =>
    intro r hr
    obtain ⟨t, ht, h⟩ | h := hm.events hr
    · exact .inl ⟨t, List.mem_append_left _ ht, h⟩
    · refine (or_exists_mem_set hc h).imp_left fun h => ⟨_, hnew, nofun, ?_⟩
      exact Option.some.inj ((congrArg Holding.events hb).symm.trans h)
  case network =>
    intro r hr
    obtain ⟨t, ht, h⟩ | h := hm.network hr
    · exact .inl ⟨t, List.mem_append_left _ ht, h⟩
    · refine (or_exists_mem_set hc h).imp_left fun h => ⟨_, hnew, nofun, ?_⟩
      exact Option.some.inj ((congrArg Holding.network hb).symm.trans h)

/-- A call drops its receiver and the lock. -/
theorem release (hm : m.Custody) (hc : m.callers[i]? = some c) {vacant : Bool}
    {events : Option Nat} (hb : c.holding = { lock := true, vacant, events })
    (hb' : c'.holding = {}) : ((m.unsubscribe events).unlock.setCaller i c').Custody := by
  have hleft : (m.unsubscribe events).Custody := by
    cases events with
    | none => exact hm
    | some r => exact hm.leaveEvents r
  have hcallers : (m.unsubscribe events).callers = m.callers := by cases events <;> rfl
  have hgone : ∀ {r}, (m.unsubscribe events).events.Listens r → events ≠ some r := by
    cases events with
    | none => nofun
    | some s => exact fun hr h => (Broadcast.listens_leave.mp hr).2 (Option.some.inj h).symm
  -- the receiver goes before the call forgets it, the lock after the call is out of it
  have hset : ((m.unsubscribe events).setCaller i c').Custody :=
    hleft.setCaller (hcallers ▸ hc) c' (m.unsubscribe events).slot (by simp [hb']) (.inr rfl)
      (by simp [hb']) (by simp +contextual [hb])
      (fun hr h => absurd (by simpa [hb] using h) (hgone hr)) (by simp [hb])
  refine hset.unlock fun d hd => ?_
  obtain ⟨k, hk⟩ := List.mem_iff_getElem?.mp hd
  obtain ⟨rfl, rfl⟩ | ⟨hki, hk⟩ := getElem?_set_eq_some hk
  · rw [hb']
  · exact hm.lock_eq_false hc (by rw [hb]) hki (hcallers ▸ hk)

/-- When a call hands on what it holds, or takes more, there is still someone to answer for all of
it. -/
theorem handles (hm : m.Custody) (hc : m.callers[i]? = some c)
    (h : m.Handles i c.holding c'.holding m₁) : (m₁.setCaller i c').Custody := by
  generalize hb : c.holding = b, hb' : c'.holding = b' at h
  have hmem : c' ∈ m.callers.set i c' := List.mem_set (List.getElem?_eq_some_iff.mp hc).1 c'
  have hfirst := hm.first hc
  have hvacant := hm.vacant (List.mem_of_getElem? hc)
  cases h with
  | keep h halike =>
    have hc₁ : m₁.callers[i]? = some c := by rw [halike.callers]; exact hc
    exact (hm.of_alike halike).keep hc₁ (hb'.trans hb.symm)
  | enter hlock hslot =>
    exact hm.setCaller hc c' m.slot (fun _ => hlock) (.inr rfl) (fun _ => hslot)
      (by simp [hb, hslot]) (by simp [hb]) (by simp [hb])
  | supersede j hlock hslot =>
    -- the monitor passes from the slot to the call that waits for it
    have hempty := hm.setCaller hc c' none (fun _ => hlock) (.inl rfl) (fun _ => rfl)
      (by simp [hb, hb', hslot]) (by simp [hb]) (by simp [hb])
    exact hempty.tell j
  | joined j hended =>
    refine hm.setCaller hc c' m.slot (fun _ => hfirst (by rw [hb])) (.inr rfl)
      (fun _ => hvacant (by rw [hb])) ?_ (by simp [hb]) (by simp [hb])
    rintro k t ht halive (h | h)
    · exact .inl h
    · cases (congrArg Holding.joins hb).symm.trans h
      exact absurd (by simpa [hasEnded, ht] using hended) halive
  | listen =>
    -- the call answers for the receiver before the channel has it
    have hheld := hm.setCaller hc c' m.slot (fun _ => hfirst (by rw [hb])) (.inr rfl)
      (fun _ => hvacant (by rw [hb])) (by simp +contextual [hb]) (by simp [hb]) (by simp [hb])
    exact hheld.subscribeEvents ⟨c', hmem, by rw [hb']; rfl⟩
  | observe events =>
    have hheld := hm.setCaller hc c' m.slot (fun _ => hfirst (by rw [hb])) (.inr rfl)
      (fun _ => hvacant (by rw [hb])) (by simp +contextual [hb]) (by simp [hb, hb']) (by simp [hb])
    exact hheld.subscribeNetwork ⟨c', hmem, by rw [hb']; rfl⟩
  | entrust events network => exact hm.entrust hc hb hb'
  | release vacant events => exact hm.release hc hb hb'

/-- A new call waits at the end of the queue, or outside of it, and holds nothing. -/
theorem call (hm : m.Custody) (r : Request) (waiting : List Nat) :
    { m with
      callers := m.callers ++ [Caller.ofRequest r]
      queue := m.queue ++ waiting }.Custody := by
  have hold : ∀ {P : Caller → Prop}, (∃ c ∈ m.callers, P c) →
      ∃ c ∈ m.callers ++ [Caller.ofRequest r], P c :=
    fun ⟨c, hc, hP⟩ => ⟨c, List.mem_append_left _ hc, hP⟩
  refine ⟨?first, ?vacant, fun ht halive => (hm.charge ht halive).imp_right hold, hm.child,
    fun hr => (hm.events hr).imp_right hold, fun hr => (hm.network hr).imp_right hold⟩
  case first =>
    intro k c hc hlock
    rw [List.getElem?_append] at hc
    split at hc
    · simp [List.head?_append, hm.first hc hlock]
    · cases List.mem_singleton.mp (List.mem_of_getElem? hc)
      simp [Caller.holding_ofRequest] at hlock
  case vacant =>
    intro c hc hvacant
    obtain hc | hc := List.mem_append.mp hc
    · exact hm.vacant hc hvacant
    · cases List.mem_singleton.mp hc
      simp [Caller.holding_ofRequest] at hvacant

theorem effect {l : Label} (hm : m.Custody) (h : m.Effect l m') : m'.Custody := by
  cases h with
  | call r waiting => exact hm.call r waiting
  | caller hc hhandles => exact hm.handles hc hhandles
  | carry ht halike hcarries =>
    refine (hm.of_alike halike).setMonitor (halike.monitors ▸ ht) (fun _ => hcarries.before)
      (fun hdone => absurd hdone hcarries.after) (fun _ _ => ⟨hcarries.after, hcarries.events⟩)
      fun _ hconn => ⟨fun hdone => hconn (hcarries.connectivity hdone), hcarries.network⟩
  | endMonitor ht hended =>
    exact (hm.leaveEvents _).setMonitor ht (fun h => absurd rfl h) (fun _ => hended)
      (fun hr => absurd rfl (Broadcast.listens_leave.mp hr).2) fun _ hconn => ⟨hconn, rfl⟩
  | endConnectivity ht =>
    exact (hm.leaveNetwork _).setMonitor ht id (fun _ => rfl) (fun _ halive => ⟨halive, rfl⟩)
      fun hr => absurd rfl (Broadcast.listens_leave.mp hr).2
  | none halike => exact hm.of_alike halike

/-- Every step keeps everything in custody. -/
theorem step {l : Label} (hm : m.Custody) (h : m.step setup l = some m') : m'.Custody :=
  hm.effect (effect_of_step h)

theorem run {ls : List Label} (hm : m.Custody) (h : m.run setup ls = some m') : m'.Custody :=
  run_induction (fun _ hm hstep => hm.step hstep) hm h

end Custody

/-- Whatever a machine has been through, everything is in custody. -/
theorem custody_of_run {settings : Settings} {capacity : Nat} {ls : List Label}
    (h : (idle settings capacity).run setup ls = some m) : m.Custody :=
  (custody_idle settings capacity).run h

end Machine

end VpnTunnel
