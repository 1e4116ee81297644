import VpnTunnel.Proofs.Machine.Chronicle
import VpnTunnel.Proofs.Machine.Exclusive

/-!
# Monitors that are told to stop

A call waits for a monitor only after it has told it to stop, and such a monitor can always go on to
its end, whatever is in its channels: it never waits for an event again, nor its connectivity task
for a report. A monitor on its way leaves the calls alone.
-/

namespace VpnTunnel

namespace Monitor

/-- The connectivity task is there once the monitor has run, and is told to stop before its end is
waited for. -/
structure Sound (t : Monitor) : Prop where
  born : t.phase ≠ .spawned → t.connectivity ≠ .unborn
  wound : t.phase = .joining → t.connectivity ≠ .running false

def stepsLeft (t : Monitor) : Nat :=
  match t.phase with
  | .done => 0
  | .joining => if t.connectivity = .done then 1 else 2
  | .polling => 3
  | .handling _ | .spawned => 4
  | .receiving => 5

variable {t t' : Monitor}

theorem sound_windDown (h : t.Sound) (hphase : t.phase ≠ .spawned) :
    (Machine.windDown t).Sound := by
  have hborn := h.born hphase
  constructor <;> intro <;> simp only [Machine.windDown] <;> split <;> simp_all

theorem stepsLeft_windDown (t : Monitor) : (Machine.windDown t).stepsLeft ≤ 2 := by
  change (if (Machine.windDown t).connectivity = .done then 1 else 2) ≤ 2
  split <;> omega

end Monitor

def Label.OfMonitor (j : Nat) (l : Label) : Prop := l = .monitor j ∨ l = .connectivity j

namespace Machine

variable {setup : Setup} {m m₁ m' : Machine} {i j : Nat} {c c' : Caller} {t t' : Monitor}
  {l : Label} {ls : List Label}

theorem MonitorMove.sound (h : MonitorMove m t t' m₁) (hs : t.Sound) : t'.Sound := by
  cases h with
  | start => exact ⟨fun _ => nofun, nofun⟩
  | heed hphase => exact Monitor.sound_windDown hs (by simp [hphase])
  | close events hphase => exact Monitor.sound_windDown hs (by simp [hphase])
  | notice hphase | take e events hphase | skip missed events hphase | miss hphase
  | handle e hphase => exact ⟨fun _ => hs.born (by simp [hphase]), nofun⟩
  | finish hphase hended => exact ⟨fun _ => by simp [hended], nofun⟩

theorem MonitorMove.told_eq (h : MonitorMove m t t' m₁) : t'.told = t.told := by
  cases h <;> rfl

/-- Who is waited for has been told to stop, and can. -/
structure Attended (m : Machine) : Prop where
  sound : ∀ t ∈ m.monitors, t.Sound
  slot : ∀ {j}, m.slot = some j → j < m.monitors.length
  told : ∀ {c j}, c ∈ m.callers → c.holding.joins = some j →
    ∃ t, m.monitors[j]? = some t ∧ t.told = true

theorem attended_idle (settings : Settings) (capacity : Nat) :
    (idle settings capacity).Attended where
  sound := by simp [idle]
  slot := by simp [idle]
  told := by simp [idle]

theorem getElem?_dismiss (ht : m.monitors[j]? = some t) (k : Nat) :
    (m.dismiss k).monitors[j]? = some { t with told := t.told || (k = j) } := by
  simp only [dismiss, List.getElem?_modify, ht]
  split <;> simp_all

/-- Telling a monitor to stop changes nothing else of any. -/
theorem exists_of_getElem?_dismiss {k : Nat} (h : (m.dismiss k).monitors[j]? = some t') :
    ∃ t, m.monitors[j]? = some t ∧ t'.events = t.events ∧ t'.phase = t.phase := by
  simp only [dismiss, List.getElem?_modify] at h
  obtain ⟨t, ht, rfl⟩ := Option.map_eq_some_iff.mp h
  refine ⟨t, ht, ?_⟩
  split <;> exact ⟨rfl, rfl⟩

namespace Attended

theorem of_eq (hm : m.Attended) (hcallers : m₁.callers = m.callers) (hslot : m₁.slot = m.slot)
    (hmonitors : m₁.monitors = m.monitors) : m₁.Attended where
  sound := by rw [hmonitors]; exact hm.sound
  slot := by rw [hslot, hmonitors]; exact hm.slot
  told := by rw [hcallers, hmonitors]; exact hm.told

theorem setCaller (hm : m.Attended)
    (h : ∀ {j}, c'.holding.joins = some j → ∃ t, m.monitors[j]? = some t ∧ t.told = true) :
    (m.setCaller i c').Attended where
  sound := hm.sound
  slot := hm.slot
  told hc hjoin := by
    obtain hc | rfl := List.mem_or_eq_of_mem_set hc
    · exact hm.told hc hjoin
    · exact h hjoin

/-- A call that waits for no monitor may step, whatever else its step changes. -/
theorem keep (hm : m.Attended) (hcallers : m₁.callers = m.callers) (hslot : m₁.slot = m.slot)
    (hmonitors : m₁.monitors = m.monitors) (hjoins : c'.holding.joins = none) :
    (m₁.setCaller i c').Attended :=
  (hm.of_eq hcallers hslot hmonitors).setCaller fun h => by cases hjoins.symm.trans h

theorem setMonitor (hm : m.Attended) (ht : m.monitors[j]? = some t) (htold : t'.told = t.told)
    (hs : t'.Sound) : (m.setMonitor j t').Attended where
  sound u hu := by
    obtain hu | rfl := List.mem_or_eq_of_mem_set hu
    · exact hm.sound u hu
    · exact hs
  slot := by rw [Machine.setMonitor, List.length_set]; exact hm.slot
  told {_ k} hc hjoin := by
    obtain ⟨u, hu, hutold⟩ := hm.told hc hjoin
    by_cases hkj : j = k
    · subst hkj
      cases hu.symm.trans ht
      obtain ⟨hk, _⟩ := List.getElem?_eq_some_iff.mp ht
      exact ⟨t', List.getElem?_set_self hk, htold.trans hutold⟩
    · exact ⟨u, (List.getElem?_set_ne hkj).trans hu, hutold⟩

theorem dismiss (hm : m.Attended) (j : Nat) : (m.dismiss j).Attended where
  sound t ht := by
    obtain ⟨k, hk⟩ := List.mem_iff_getElem?.mp ht
    simp only [Machine.dismiss, List.getElem?_modify] at hk
    obtain ⟨u, hu, rfl⟩ := Option.map_eq_some_iff.mp hk
    have hs := hm.sound u (List.mem_of_getElem? hu)
    split
    · exact ⟨hs.born, hs.wound⟩
    · exact hs
  slot := nofun
  told hc hjoin := by
    obtain ⟨t, ht, htold⟩ := hm.told hc hjoin
    exact ⟨_, getElem?_dismiss ht j, by simp [htold]⟩

theorem spawn (hm : m.Attended) (events network : Nat) : (m.spawn events network).Attended where
  sound t ht := by
    obtain ht | ht := List.mem_append.mp ht
    · exact hm.sound t ht
    · cases List.mem_singleton.mp ht
      exact ⟨fun h => absurd rfl h, nofun⟩
  slot h := by
    cases h
    simp [Machine.spawn]
  told hc hjoin := by
    obtain ⟨t, ht, htold⟩ := hm.told hc hjoin
    exact ⟨t, getElem?_append_of_eq_some ht, htold⟩

/-- A call that takes a monitor out of the slot waits for one that it has told. -/
theorem supersede (hm : m.Attended) (hslot : m.slot = some j) (hjoin : c'.holding.joins = some j) :
    ((m.dismiss j).setCaller i c').Attended := by
  refine (hm.dismiss j).setCaller fun {k} hk => ?_
  obtain rfl := Option.some.inj (hjoin.symm.trans hk)
  have ht := List.getElem?_eq_getElem (hm.slot hslot)
  exact ⟨_, getElem?_dismiss ht j, by simp⟩

/-- Every step keeps to it that who is waited for has been told to stop. -/
theorem step (hm : m.Attended) (h : m.step setup l = some m') : m'.Attended := by
  cases move_of_step h with
  | call r =>
    refine ⟨hm.sound, hm.slot, fun {c k} hc hjoin => ?_⟩
    obtain hc | hc := List.mem_append.mp hc
    · exact hm.told hc hjoin
    · cases List.mem_singleton.mp hc
      rw [Caller.holding_ofRequest] at hjoin
      cases hjoin
  | caller hc hmove =>
    cases hmove with
    | connect hmove =>
      cases hmove with
      | supersede j hlock hslot => exact hm.supersede hslot rfl
      | announce | fail =>
        exact hm.keep (callers_publish ..) (slot_publish ..) (monitors_publish ..) rfl
      | spawn events network => exact (hm.spawn events network).keep rfl rfl rfl rfl
      | leave events result =>
        exact hm.keep (callers_unsubscribe ..) (slot_unsubscribe ..) (monitors_unsubscribe ..) rfl
      | _ => exact hm.keep rfl rfl rfl rfl
    | disconnect hmove =>
      exact hm.keep hmove.alike.callers hmove.alike.slot hmove.alike.monitors rfl
    | stop hmove =>
      cases hmove with
      | supersede j hlock hslot => exact hm.supersede hslot rfl
      | _ => exact hm.keep rfl rfl rfl rfl
    | answer hmove => cases hmove <;> exact hm.keep rfl rfl rfl rfl
  | monitor ht hmove =>
    have hs := hmove.sound (hm.sound _ (List.mem_of_getElem? ht))
    have hm₁ := hm.of_eq hmove.aside.callers hmove.aside.slot hmove.monitors_eq
    exact hm₁.setMonitor (hmove.monitors_eq ▸ ht) hmove.told_eq hs
  | connectivity ht hmove =>
    cases hmove with
    | finish told hrunning =>
      refine setMonitor (t := _) (hm.of_eq rfl rfl rfl) ht rfl ⟨fun _ => ?_, fun _ => ?_⟩ <;> nofun
    | receive => exact hm.of_eq rfl rfl rfl
  | _ => exact hm.of_eq rfl rfl rfl

theorem run {ls : List Label} (hm : m.Attended) (h : m.run setup ls = some m') : m'.Attended :=
  run_induction (fun _ hm hstep => hm.step hstep) hm h

end Attended

/-- A monitor that is told to stop gets nearer to its end by every step. -/
theorem MonitorMove.stepsLeft_lt (h : MonitorMove m t t' m₁) (htold : t.told = true) :
    t'.stepsLeft < t.stepsLeft := by
  cases h with
  | heed hphase | close events hphase =>
    have hle := t.stepsLeft_windDown
    have hlt : 2 < t.stepsLeft := by simp [Monitor.stepsLeft, hphase]
    omega
  | notice hphase hfree => cases htold.symm.trans hfree
  | _ => simp [Monitor.stepsLeft, *]

/-- A monitor that is told to stop can step, or its connectivity task can. -/
theorem exists_step_of_told (hs : t.Sound) (htold : t.told = true)
    (halive : t.phase ≠ .done) :
    (∃ m', m.monitorStep? j t = some m') ∨
      t.phase = .joining ∧ t.connectivity = .running true := by
  cases hphase : t.phase with
  | spawned | handling => exact .inl ⟨_, by simp only [monitorStep?, hphase]; rfl⟩
  | polling => exact .inl ⟨_, by simp only [monitorStep?, hphase, htold, if_true]; rfl⟩
  | receiving =>
    left
    simp only [monitorStep?, hphase]
    split <;> exact ⟨_, rfl⟩
  | joining =>
    cases hconn : t.connectivity with
    | unborn => exact absurd hconn (hs.born (by simp [hphase]))
    | running told =>
      cases told with
      | false => exact absurd hconn (hs.wound hphase)
      | true => exact .inr ⟨rfl, rfl⟩
    | done => exact .inl ⟨_, by simp only [monitorStep?, hphase, hconn, if_true]; rfl⟩
  | done => exact absurd hphase halive

/-- A monitor that is told to stop gets nearer to its end by a step of its own. -/
theorem exists_nearer_of_told (setup : Setup) (ht : m.monitors[j]? = some t) (hs : t.Sound)
    (htold : t.told = true) (halive : t.phase ≠ .done) :
    ∃ l m' t', l.OfMonitor j ∧ m.step setup l = some m' ∧ m'.monitors[j]? = some t' ∧
      t'.Sound ∧ t'.told = true ∧ t'.stepsLeft < t.stepsLeft := by
  obtain ⟨hj, -⟩ := List.getElem?_eq_some_iff.mp ht
  obtain ⟨m', h⟩ | ⟨hphase, hconn⟩ := exists_step_of_told (m := m) (j := j) hs htold halive
  · obtain ⟨t', m₁, hmove, rfl⟩ := monitorMove_of_monitorStep? h
    have ht' : (m₁.setMonitor j t').monitors[j]? = some t' :=
      List.getElem?_set_self (hmove.monitors_eq ▸ hj)
    exact ⟨.monitor j, _, t', .inl rfl, by rw [step, ht, Option.bind_some, h], ht',
      hmove.sound hs, hmove.told_eq.trans htold, hmove.stepsLeft_lt htold⟩
  · let t' := { t with connectivity := .done }
    let m' := { m with network := m.network.leave t.network }.setMonitor j t'
    have hstep : m.step setup (.connectivity j) = some m' := by
      rw [step, ht, Option.bind_some, connectivityStep?, hconn]
    have ht' : m'.monitors[j]? = some t' := List.getElem?_set_self hj
    refine ⟨.connectivity j, m', t', .inr rfl, hstep, ht', ⟨by simp [t'], by simp [t']⟩,
      htold, ?_⟩
    simp [t', Monitor.stepsLeft, hphase, hconn]

/-- A monitor that is told to stop can go on to its end. -/
theorem exists_run_hasEnded (setup : Setup) (ht : m.monitors[j]? = some t) (hs : t.Sound)
    (htold : t.told = true) :
    ∃ ls m', (∀ l ∈ ls, Label.OfMonitor j l) ∧ m.run setup ls = some m' ∧ m'.hasEnded j := by
  induction hn : t.stepsLeft using Nat.strongRecOn generalizing m t with
  | ind n ih =>
    by_cases hdone : t.phase = .done
    · exact ⟨[], m, List.forall_mem_nil _, rfl, by simp [hasEnded, ht, hdone]⟩
    · obtain ⟨l, m₁, t', hl, hstep, ht', hs', htold', hlt⟩ :=
        exists_nearer_of_told setup ht hs htold hdone
      obtain ⟨ls, m', hls, hrun, hended⟩ := ih _ (hn ▸ hlt) ht' hs' htold' rfl
      refine ⟨l :: ls, m', List.forall_mem_cons.mpr ⟨hl, hls⟩, ?_, hended⟩
      rw [run_cons_of_step hstep, hrun]

theorem aside_of_run (hls : ∀ l ∈ ls, Label.OfMonitor j l) (h : m.run setup ls = some m') :
    m.Aside m' := by
  refine run_induction (P := m.Aside) (fun hl hm hstep => hm.trans ?_)
    ⟨rfl, rfl, rfl, rfl, rfl, rfl⟩ h
  obtain rfl | rfl := hls _ hl
  · cases move_of_step hstep with
    | caller hc hmove => cases hmove
    | monitor ht hmove =>
      exact hmove.aside.trans ⟨rfl, rfl, rfl, rfl, rfl, rfl⟩
  · cases move_of_step hstep with
    | caller hc hmove => cases hmove
    | connectivity ht hmove => exact hmove.aside

/-- A step of a call ends no monitor. -/
theorem CallerMove.exists_monitor (hmove : CallerMove setup m i l c c' m₁)
    (ht : m.monitors[j]? = some t) :
    ∃ t', m₁.monitors[j]? = some t' ∧ t'.phase = t.phase ∧ t'.events = t.events := by
  have hdismiss : ∀ k, ∃ t', (m.dismiss k).monitors[j]? = some t' ∧ t'.phase = t.phase ∧
      t'.events = t.events :=
    fun k => ⟨_, getElem?_dismiss ht k, rfl, rfl⟩
  cases hmove with
  | connect hmove =>
    cases hmove with
    | supersede k => exact hdismiss k
    | announce | fail => exact ⟨t, (congrArg (·[j]?) (monitors_publish m _)).trans ht, rfl, rfl⟩
    | spawn =>
      exact ⟨t, getElem?_append_of_eq_some ht, rfl, rfl⟩
    | leave events =>
      exact ⟨t, (congrArg (·[j]?) (monitors_unsubscribe m events)).trans ht, rfl, rfl⟩
    | _ => exact ⟨t, ht, rfl, rfl⟩
  | disconnect hmove => exact ⟨t, (congrArg (·[j]?) hmove.alike.monitors).trans ht, rfl, rfl⟩
  | stop hmove =>
    cases hmove with
    | supersede k => exact hdismiss k
    | _ => exact ⟨t, ht, rfl, rfl⟩
  | answer => exact ⟨t, ht, rfl, rfl⟩

/-- Only a step of its own takes a monitor on. -/
theorem exists_monitor_of_step (hstep : m.step setup l = some m') (hl : l ≠ .monitor j)
    (ht : m.monitors[j]? = some t) :
    ∃ t', m'.monitors[j]? = some t' ∧ t'.phase = t.phase ∧ t'.events = t.events := by
  cases move_of_step hstep with
  | caller hc hmove => exact hmove.exists_monitor ht
  | @monitor k u u' m₁ hu hmove =>
    have hkj : k ≠ j := fun h => hl (congrArg Label.monitor h)
    refine ⟨t, ?_, rfl, rfl⟩
    rw [setMonitor, hmove.monitors_eq, List.getElem?_set_ne hkj]
    exact ht
  | @connectivity k u m₁ hu hmove =>
    cases hmove with
    | receive => exact ⟨t, ht, rfl, rfl⟩
    | finish told =>
      by_cases hkj : k = j
      · subst hkj
        cases ht.symm.trans hu
        exact ⟨_, getElem?_set_self_of_eq_some ht, rfl, rfl⟩
      · exact ⟨t, (List.getElem?_set_ne hkj).trans ht, rfl, rfl⟩
  | _ => exact ⟨t, ht, rfl, rfl⟩

/-- A step of its own takes a monitor on. -/
theorem exists_of_step_monitor (hstep : m.step setup (.monitor j) = some m')
    (ht : m.monitors[j]? = some t) :
    ∃ t' m₁, MonitorMove m t t' m₁ ∧ m' = m₁.setMonitor j t' ∧ m'.monitors[j]? = some t' := by
  cases move_of_step hstep with
  | caller hc hmove => cases hmove
  | @monitor _ u t' m₁ hu hmove =>
    cases ht.symm.trans hu
    refine ⟨t', m₁, hmove, rfl, ?_⟩
    rw [setMonitor, hmove.monitors_eq]
    exact getElem?_set_self_of_eq_some ht

end Machine

end VpnTunnel
