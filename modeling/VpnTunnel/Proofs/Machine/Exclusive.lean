import VpnTunnel.Proofs.Client.ReadBack
import VpnTunnel.Proofs.Machine.Custody

/-!
# One at a time

However the calls on a machine and its tasks take turns, one connecting call at most has turned to
the engine, one monitor at most has not ended, and never both at once. When a call that stops the
monitor returns and nobody is connecting, nothing of the machine is left that listens or runs, and
it stays so until the next call to connect.
-/

namespace VpnTunnel

def AtMostOne {α : Type} (P : α → Prop) (l : List α) : Prop :=
  ∀ (i j : Nat) (x y : α), l[i]? = some x → l[j]? = some y → P x → P y → i = j

namespace Monitor

def IsAlive (t : Monitor) : Prop := t.phase ≠ .done

def HasConnectivity (t : Monitor) : Prop := ∃ told, t.connectivity = .running told

end Monitor

namespace Machine

/-- What a machine never does twice at a time. -/
structure Exclusive (m : Machine) : Prop where
  bringUp : AtMostOne Caller.BringsUp m.callers
  monitor : AtMostOne Monitor.IsAlive m.monitors
  apart : (∃ c ∈ m.callers, c.BringsUp) → ∀ t ∈ m.monitors, ¬ t.IsAlive
  nested : ∀ t ∈ m.monitors, t.HasConnectivity → t.IsAlive
  connectivity : AtMostOne Monitor.HasConnectivity m.monitors

/-- Nothing of a machine runs by itself or listens. -/
structure Quiet (m : Machine) : Prop where
  slot : m.slot = none
  monitors : ∀ t ∈ m.monitors, ¬ t.IsAlive
  connectivity : ∀ t ∈ m.monitors, ¬ t.HasConnectivity
  events : m.events.listenerCount = 0
  network : m.network.listenerCount = 0

variable {setup : Setup} {m m₁ m' : Machine} {i j k : Nat} {c d : Caller} {t u : Monitor}
  {l : Label} {ls : List Label}

namespace Custody

/-- What a call waits for is no longer in the slot. -/
theorem slot_of_joins (hm : m.Custody) (hc : c ∈ m.callers) (hjoin : c.holding.joins = some j) :
    m.slot = none :=
  hm.vacant hc (Caller.vacant_of_joins hjoin)

/-- Only one call waits for a monitor, and no other is inside the lock then. -/
theorem eq_of_joins (hm : m.Custody) (hc : m.callers[i]? = some c) (hlock : c.holding.lock = true)
    (hd : d ∈ m.callers) (hjoin : d.holding.joins = some j) : d = c := by
  obtain ⟨k, hd⟩ := List.mem_iff_getElem?.mp hd
  obtain rfl := hm.eq_of_lock hc hlock hd (Caller.lock_of_vacant (Caller.vacant_of_joins hjoin))
  exact Option.some.inj (hd.symm.trans hc)

/-- While a call that waits for no monitor has left the slot empty, every monitor has ended. -/
theorem not_isAlive_of_vacant (hm : m.Custody) (hc : m.callers[i]? = some c)
    (hvacant : c.holding.vacant = true) (hjoins : c.holding.joins = none) :
    ∀ t ∈ m.monitors, ¬ t.IsAlive := by
  intro t ht halive
  obtain ⟨j, ht⟩ := List.mem_iff_getElem?.mp ht
  obtain hslot | ⟨d, hd, hjoin⟩ := hm.charge ht halive
  · cases (hm.vacant (List.mem_of_getElem? hc) hvacant).symm.trans hslot
  · obtain rfl := hm.eq_of_joins hc (Caller.lock_of_vacant hvacant) hd hjoin
    cases hjoins.symm.trans hjoin

theorem atMostOne_bringsUp (hm : m.Custody) : AtMostOne Caller.BringsUp m.callers := by
  intro i k c d hc hd hcup hdup
  obtain ⟨_, hcheld⟩ := Caller.exists_holding_of_bringsUp hcup
  obtain ⟨_, hdheld⟩ := Caller.exists_holding_of_bringsUp hdup
  exact hm.eq_of_lock hd (by rw [hdheld]) hc (by rw [hcheld])

/-- There is one monitor at most that has not ended. -/
theorem atMostOne_isAlive (hm : m.Custody) : AtMostOne Monitor.IsAlive m.monitors := by
  intro j k t u ht hu htalive hualive
  obtain hj | ⟨c, hc, hcj⟩ := hm.charge ht htalive <;>
    obtain hk | ⟨d, hd, hdk⟩ := hm.charge hu hualive
  · exact Option.some.inj (hj.symm.trans hk)
  · cases (hm.slot_of_joins hd hdk).symm.trans hj
  · cases (hm.slot_of_joins hc hcj).symm.trans hk
  · obtain ⟨i, hc⟩ := List.mem_iff_getElem?.mp hc
    obtain rfl := hm.eq_of_joins hc (Caller.lock_of_vacant (Caller.vacant_of_joins hcj)) hd hdk
    exact Option.some.inj (hcj.symm.trans hdk)

theorem isAlive_of_hasConnectivity (hm : m.Custody) (ht : t ∈ m.monitors)
    (h : t.HasConnectivity) : t.IsAlive := by
  obtain ⟨told, h⟩ := h
  intro hdone
  cases h.symm.trans (hm.child ht hdone)

/-- With everything in custody, nothing is done twice at a time. -/
theorem exclusive (hm : m.Custody) : m.Exclusive where
  bringUp := hm.atMostOne_bringsUp
  monitor := hm.atMostOne_isAlive
  apart := by
    rintro ⟨c, hc, hup⟩
    obtain ⟨i, hc⟩ := List.mem_iff_getElem?.mp hc
    obtain ⟨_, hheld⟩ := Caller.exists_holding_of_bringsUp hup
    exact hm.not_isAlive_of_vacant hc (by rw [hheld]) (by rw [hheld])
  nested _ ht h := hm.isAlive_of_hasConnectivity ht h
  connectivity j k t u ht hu htconn huconn :=
    hm.atMostOne_isAlive j k t u ht hu
      (hm.isAlive_of_hasConnectivity (List.mem_of_getElem? ht) htconn)
      (hm.isAlive_of_hasConnectivity (List.mem_of_getElem? hu) huconn)

end Custody

/-- No call is connecting, and all that earlier ones have started has ended. -/
structure Settled (m : Machine) : Prop where
  slot : m.slot = none
  callers : ∀ c ∈ m.callers, ¬ c.IsConnecting
  monitors : ∀ t ∈ m.monitors, t.phase = .done

/-- A call that stops the monitor returns with the step that drops the lock. -/
theorem leaving_of_returned (h : m.callerStep? setup i c = some m₁)
    (hreturned : m₁.callers[i]? = some (.stop .finished)) :
    c = .stop .leaving ∧ m₁ = m.unlock.setCaller i (.stop .finished) := by
  cases c with
  | connect a p =>
    obtain ⟨p', -, rfl⟩ := Option.map_eq_some_iff.mp h
    cases eq_of_getElem?_set_self hreturned
  | disconnect p =>
    obtain ⟨p', -, rfl⟩ := Option.map_eq_some_iff.mp h
    cases eq_of_getElem?_set_self hreturned
  | stop p =>
    obtain ⟨⟨p', m'⟩, hstep, rfl⟩ := Option.map_eq_some_iff.mp h
    cases eq_of_getElem?_set_self hreturned
    cases p with
    | leaving => cases hstep; exact ⟨rfl, rfl⟩
    | finished => cases hstep
    | waiting =>
      simp only [stopStep?] at hstep
      split at hstep
      · split at hstep <;> cases hstep
      · cases hstep
    | joining j =>
      simp only [stopStep?] at hstep
      split at hstep <;> cases hstep

/-- A call that stops the monitor returns with the machine settled, while no other connects. -/
theorem Custody.settled (hm : m.Custody) (h : m.step setup (.caller i) = some m₁)
    (hreturned : m₁.callers[i]? = some (.stop .finished))
    (hcallers : ∀ c ∈ m₁.callers, ¬ c.IsConnecting) : m₁.Settled := by
  obtain ⟨c, hc, h⟩ := Option.bind_eq_some_iff.mp h
  obtain ⟨rfl, rfl⟩ := leaving_of_returned h hreturned
  refine ⟨hm.vacant (List.mem_of_getElem? hc) rfl, hcallers, fun t ht => ?_⟩
  exact Decidable.not_not.mp (hm.not_isAlive_of_vacant hc rfl rfl t ht)

namespace Settled

theorem effect (hm : m.Settled) (h : m.Effect l m') (hl : ∀ a, l ≠ .call (.connect a)) :
    m'.Settled := by
  cases h with
  | call r waiting =>
    refine ⟨hm.slot, fun c hc => ?_, hm.monitors⟩
    obtain hc | hc := List.mem_append.mp hc
    · exact hm.callers c hc
    · cases List.mem_singleton.mp hc
      cases r with
      | connect a => exact absurd rfl (hl a)
      | disconnect | stop => exact id
  | caller hc hhandles hconnecting =>
    -- only a connecting call could start a monitor
    have hidle := hm.callers _ (List.mem_of_getElem? hc)
    obtain ⟨hslot, hmonitors⟩ :=
      hhandles.slot_and_monitors hm.slot (Caller.receivers_eq_none hidle).2
    refine ⟨hslot, fun d hd => ?_, hmonitors ▸ hm.monitors⟩
    obtain hd | rfl := List.mem_or_eq_of_mem_set hd
    · exact hm.callers d (hhandles.callers_eq ▸ hd)
    · exact fun hd => hidle (hconnecting hd)
  | carry ht _ hcarries => exact absurd (hm.monitors _ (List.mem_of_getElem? ht)) hcarries.before
  | endMonitor ht hended =>
    refine ⟨hm.slot, hm.callers, fun u hu => ?_⟩
    obtain hu | rfl := List.mem_or_eq_of_mem_set hu
    · exact hm.monitors u hu
    · rfl
  | endConnectivity ht =>
    refine ⟨hm.slot, hm.callers, fun u hu => ?_⟩
    have hdone := hm.monitors _ (List.mem_of_getElem? ht)
    obtain hu | rfl := List.mem_or_eq_of_mem_set hu
    · exact hm.monitors u hu
    · exact hdone
  | none halike =>
    exact ⟨halike.slot.trans hm.slot, halike.callers ▸ hm.callers, halike.monitors ▸ hm.monitors⟩

/-- A settled machine stays so until a new call connects. -/
theorem run (hm : m.Settled) (h : m.run setup ls = some m') (hls : ∀ a, .call (.connect a) ∉ ls) :
    m'.Settled := by
  refine run_induction (fun hl hm hstep => ?_) hm h
  exact hm.effect (effect_of_step hstep) fun a hconnect => hls a (hconnect ▸ hl)

/-- On a settled machine nothing runs by itself or listens. -/
theorem quiet (hs : m.Settled) (hm : m.Custody) : m.Quiet where
  slot := hs.slot
  monitors t ht halive := halive (hs.monitors t ht)
  connectivity t ht hconn := hm.isAlive_of_hasConnectivity ht hconn (hs.monitors t ht)
  events := by
    refine Broadcast.listenerCount_eq_zero_iff.mpr fun r hr => ?_
    obtain ⟨t, ht, halive, -⟩ | ⟨c, hc, hheld⟩ := hm.events hr
    · exact halive (hs.monitors t ht)
    · cases (Caller.receivers_eq_none (hs.callers c hc)).1.symm.trans hheld
  network := by
    refine Broadcast.listenerCount_eq_zero_iff.mpr fun r hr => ?_
    obtain ⟨t, ht, hconn, -⟩ | ⟨c, hc, hheld⟩ := hm.network hr
    · exact hconn (hm.child ht (hs.monitors t ht))
    · cases (Caller.receivers_eq_none (hs.callers c hc)).2.symm.trans hheld

end Settled

/-- In every machine that a run leads to, one connecting call at most is in its bring-up and one
monitor at most is alive, not both, and a connectivity task is alive only in a monitor that is.
Where a call that stops the monitor returns while no call is connecting, nothing is alive or listens
up to the next call to connect. -/
theorem exclusive_and_quiet_of_run {settings : Settings} {capacity : Nat}
    (h : (idle settings capacity).run setup ls = some m) :
    m.Exclusive ∧
      ∀ i m₁ ls' m₂, m.step setup (.caller i) = some m₁ →
        m₁.callers[i]? = some (.stop .finished) → (∀ c ∈ m₁.callers, ¬ c.IsConnecting) →
        (∀ a, .call (.connect a) ∉ ls') → m₁.run setup ls' = some m₂ → m₂.Quiet := by
  have hm := custody_of_run h
  refine ⟨hm.exclusive, ?_⟩
  intro i m₁ ls' m₂ hstep hreturned hcallers hls hrun
  have hs := hm.settled hstep hreturned hcallers
  exact (hs.run hrun hls).quiet ((hm.step hstep).run hrun)

def sampleSetup : Setup := ⟨defaultTunnel, .standard, Client.sampleKeys.keySource⟩

/-- A call to connect, whose bring-up is tried again, and the start of the tasks. -/
def sampleConnecting : List Label :=
  [.call (.connect Client.sampleAttempt), .caller 0, .caller 0, .caller 0, .caller 0, .caller 0,
    .caller 0, .answer 0 (.error .timedOut), .caller 0, .answer 0 (.ok ()), .caller 0, .caller 0,
    .caller 0, .monitor 0]

def sampleStopping : List Label :=
  [.call .stop, .caller 1, .monitor 0, .connectivity 0, .monitor 0, .caller 1]

theorem exclusive_and_quiet_sample :
    (∃ m, (idle Client.sampleSettings 16).run sampleSetup sampleConnecting = some m ∧
      (∃ t ∈ m.monitors, t.HasConnectivity) ∧ m.Exclusive) ∧
    ∃ m m₁ m₂,
      (idle Client.sampleSettings 16).run sampleSetup (sampleConnecting ++ sampleStopping) =
        some m ∧
      m.step sampleSetup (.caller 1) = some m₁ ∧ m₁.callers[1]? = some (.stop .finished) ∧
      m₁.run sampleSetup [.report .available, .emit (.state .down), .call .stop, .caller 2] =
        some m₂ ∧ m₂.Quiet := by
  constructor
  · obtain ⟨m, hrun, hmonitors⟩ : ∃ m : Machine,
        (idle Client.sampleSettings 16).run sampleSetup sampleConnecting = some m ∧
          m.monitors = [⟨0, 0, false, .polling, .running false⟩] := ⟨_, rfl, rfl⟩
    have hnested : ∃ t ∈ m.monitors, t.HasConnectivity := by
      simp [hmonitors, Monitor.HasConnectivity]
    exact ⟨m, hrun, hnested, (exclusive_and_quiet_of_run hrun).1⟩
  · obtain ⟨m, m₁, m₂, r, hrun, hstep, hcallers, hlater⟩ : ∃ (m m₁ m₂ : Machine) (r : Outcome),
        (idle Client.sampleSettings 16).run sampleSetup (sampleConnecting ++ sampleStopping) =
            some m ∧
          m.step sampleSetup (.caller 1) = some m₁ ∧
          m₁.callers = [.connect Client.sampleAttempt (.finished r), .stop .finished] ∧
          m₁.run sampleSetup [.report .available, .emit (.state .down), .call .stop, .caller 2] =
            some m₂ := ⟨_, _, _, _, rfl, rfl, rfl, rfl⟩
    have hreturned : m₁.callers[1]? = some (.stop .finished) := by rw [hcallers]; rfl
    have hidle : ∀ c ∈ m₁.callers, ¬ c.IsConnecting := by
      simp [hcallers, Caller.IsConnecting]
    exact ⟨m, m₁, m₂, hrun, hstep, hreturned, hlater,
      (exclusive_and_quiet_of_run hrun).2 1 m₁ _ m₂ hstep hreturned hidle (by simp) hlater⟩

end Machine

end VpnTunnel
