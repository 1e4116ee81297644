import VpnTunnel.Proofs.DryRun.Running

/-!
# How a dry run ends

Every run of a dry run that has ended has ended in the same way, which its configuration decides.
The run that takes the first possible step each time is one of them.
-/

namespace VpnTunnel

namespace DryRun

variable {setup : Setup} {settings : Settings} {a : Attempt} {s : Scene} {w : Watcher}
  {d d' : DryRun} {l : DryRunLabel} {ls : List DryRunLabel} {fuel ms : Nat}

/-- Every possible step besides waiting is among those that are tried. -/
theorem mem_ownLabels_of_step (hl : l.isWait = false) (hstep : d.step setup l = some d') :
    l ∈ d.ownLabels := by
  have hplace : ∀ {α : Type} {xs : List α} {x : α} {i : Nat}, xs[i]? = some x → i < xs.length :=
    fun hx => (List.getElem?_eq_some_iff.mp hx).1
  cases l with
  | main => simp [ownLabels]
  | caller i | monitor i | connectivity i =>
    obtain ⟨m', hm, -⟩ := exists_of_withStep? hstep
    obtain ⟨x, hx, -⟩ := Option.bind_eq_some_iff.mp hm
    simp [ownLabels, hplace hx]
  | report i =>
    simp only [step] at hstep
    split at hstep
    next target hawaits =>
      obtain ⟨x, hx, -⟩ := Option.bind_eq_some_iff.mp hawaits
      simp [ownLabels, hplace hx]
    next => cases hstep
  | answer i =>
    simp only [step] at hstep
    split at hstep
    next =>
      obtain ⟨m', hm, -⟩ := exists_of_withStep? hstep
      obtain ⟨c', hc', -⟩ := Option.map_eq_some_iff.mp hm
      obtain ⟨x, hx, -⟩ := Option.bind_eq_some_iff.mp hc'
      simp [ownLabels, hplace hx]
    next => cases hstep
  | wait => cases hl

theorem isWait_of_mem_ownLabels (h : l ∈ d.ownLabels) : l.isWait = false := by
  simp only [ownLabels, List.mem_append, List.mem_map, List.mem_singleton] at h
  obtain ((((⟨_, _, rfl⟩ | ⟨_, _, rfl⟩) | ⟨_, _, rfl⟩) | ⟨_, _, rfl⟩) | ⟨_, _, rfl⟩) | rfl := h <;>
    rfl

theorem findSome?_ownLabels_eq_none_iff :
    d.ownLabels.findSome? (d.step setup) = none ↔ ¬ d.CanStep setup := by
  rw [List.findSome?_eq_none_iff]
  constructor
  · rintro h ⟨l, hl, hstep⟩
    obtain ⟨d', hstep⟩ := Option.isSome_iff_exists.mp hstep
    cases hstep.symm.trans (h l (mem_ownLabels_of_step hl hstep))
  · intro h l hl
    by_contra hstep
    exact h ⟨l, isWait_of_mem_ownLabels hl, Option.isSome_iff_ne_none.mpr hstep⟩

/-- The step that is taken is one of the dry run's own; or it is to wait for a call to wake, and no
other is possible. -/
theorem cases_of_findSome?_labels (h : d.labels.findSome? (d.step setup) = some d') :
    (∃ l, l.isWait = false ∧ d.step setup l = some d') ∨
      ¬ d.CanStep setup ∧
        ∃ ms, d.machine.untilWake? = some ms ∧ d.step setup (.wait ms) = some d' := by
  rw [labels, List.findSome?_append, Option.or_eq_some_iff] at h
  obtain h | ⟨hnone, h⟩ := h
  · obtain ⟨l, hl, hstep⟩ := List.exists_of_findSome?_eq_some h
    exact .inl ⟨l, isWait_of_mem_ownLabels hl, hstep⟩
  · obtain ⟨l, hl, hstep⟩ := List.exists_of_findSome?_eq_some h
    obtain ⟨ms, hms, rfl⟩ := List.mem_map.mp hl
    exact .inr ⟨findSome?_ownLabels_eq_none_iff.mp hnone, ms, Option.mem_toList.mp hms, hstep⟩

/-- The run of first possible steps ends where no step is possible and no time is waited for. -/
theorem findSome?_labels_eq_none_iff : d.labels.findSome? (d.step setup) = none ↔
    ¬ d.CanStep setup ∧ d.machine.untilWake? = none := by
  rw [labels, List.findSome?_append, Option.or_eq_none_iff, findSome?_ownLabels_eq_none_iff]
  cases d.machine.untilWake? <;> simp [step, withStep?, Machine.step]

/-- The call that the scene waits for is the only one to sleep. -/
theorem filterMap_wakes? (s : Scene) (a : Attempt) :
    (s.callers a).filterMap Caller.wakes? = s.wakes?.toList := by
  cases s with
  | opening o => cases o <;> rfl
  | refusal e f => cases f <;> rfl
  | course c k => cases k <;> rfl

theorem Stands.untilWake?_eq (h : Stands setup settings a s w d) :
    d.machine.untilWake? = s.wakes?.map (· - d.machine.now) := by
  rw [Machine.untilWake?, h.callers, filterMap_wakes?]
  cases s.wakes? <;> rfl

theorem stage_now_of_withStep? {l : Label} (hl : ∀ ms, l ≠ .wait ms)
    (hstep : d.withStep? setup l = some d') :
    d'.stage = d.stage ∧ d'.machine.now = d.machine.now := by
  obtain ⟨m', hm, rfl⟩ := exists_of_withStep? hstep
  exact ⟨rfl, Machine.now_of_step hl hm⟩

/-- Only the dry run itself moves from stage to stage, and only a wait takes time. -/
theorem stage_now_of_step (hmain : l ≠ .main) (hl : l.isWait = false)
    (hstep : d.step setup l = some d') : d'.stage = d.stage ∧ d'.machine.now = d.machine.now := by
  cases l with
  | main => exact absurd rfl hmain
  | wait => cases hl
  | caller | monitor | connectivity =>
    exact stage_now_of_withStep? (by intro ms h; cases h) hstep
  | report i =>
    simp only [step] at hstep
    split at hstep
    next =>
      split at hstep
      next => cases hstep
      next =>
        obtain ⟨hstage, hnow⟩ := stage_now_of_withStep? (by intro ms h; cases h) hstep
        exact ⟨hstage, hnow⟩
    next => cases hstep
  | answer i =>
    simp only [step] at hstep
    split at hstep
    next =>
      obtain ⟨hstage, hnow⟩ := stage_now_of_withStep? (by intro ms h; cases h) hstep
      exact ⟨hstage, hnow⟩
    next => cases hstep

/-- While the monitor has nothing to do but to be told, this much is left to it. -/
theorem Watcher.Follows.six_le_left (h : w.Follows false [.state .up] 0) : 6 ≤ w.left := by
  cases h with
  | spawned => decide
  | @polling n _ hle => simp only [left, List.length_singleton] at hle ⊢; omega
  | @receiving n _ hlt => simp only [left, List.length_singleton] at hlt ⊢; omega
  | @handling n e _ he =>
    have hlt := (List.getElem?_eq_some_iff.mp he).1
    simp only [left, List.length_singleton] at hlt ⊢
    omega
  | joining _ htold | parting _ htold | done _ htold => cases htold

theorem Watcher.Follows.left_eq_six (h : w.Follows false [.state .up] 0) (hn : w.heard ≠ 0) :
    w.left = 6 := by
  cases h with
  | spawned => exact absurd rfl hn
  | @polling n _ hle =>
    simp only [heard, left, List.length_singleton] at hn hle ⊢
    omega
  | @receiving n _ hlt => exact absurd (Nat.lt_one_iff.mp hlt) hn
  | @handling n e _ he => exact absurd (Nat.lt_one_iff.mp (List.getElem?_eq_some_iff.mp he).1) hn
  | joining _ htold | parting _ htold | done _ htold => cases htold

theorem Stands.exists_of_watching {deadline : Nat} (h : Stands setup settings a s w d)
    (hstage : d.stage = .watching deadline) :
    ∃ c, s = .course c (.watching deadline) ∧ w.Follows false [.state .up] 0 := by
  have hs := h.stage.symm.trans hstage
  cases s with
  | opening o => cases hs
  | refusal e f => cases f <;> cases hs
  | course c k => cases k <;> cases hs; exact ⟨c, rfl, h.has⟩

/-- When the dry run starts to wait for news, it has time to do so. -/
theorem now_lt_of_mainStep? {deadline : Nat} (hstep : d.mainStep? setup = some d')
    (hstage : d'.stage = .watching deadline) : d'.machine.now < deadline := by
  have hpatience : 0 < dryRunPatience := by decide
  simp only [mainStep?] at hstep
  split at hstep
  next =>
    split at hstep <;> cases hstep <;> cases hstage
    exact Nat.lt_add_of_pos_right hpatience
  next =>
    split at hstep
    next => obtain ⟨m', -, rfl⟩ := exists_of_withStep? hstep; cases hstage
    next =>
      split at hstep <;> cases hstep
      cases hstage
  next =>
    split at hstep
    next => obtain ⟨m', -, rfl⟩ := exists_of_withStep? hstep; cases hstage
    next => cases hstep; cases hstage
    next => cases hstep
  next =>
    split at hstep <;> cases hstep
    cases hstage
  next => cases hstep

/-- A dry run stays in time as long as no time passes: it has time when it starts to wait for news,
and once the monitor has shown them it rests. -/
theorem Stands.timely_step (h : Stands setup settings a s w d) (htimely : d.Timely setup)
    (hl : l.isWait = false) (hstep : d.step setup l = some d') : d'.Timely setup := by
  intro deadline hstage hdue j
  by_cases hmain : l = .main
  · subst hmain
    exact absurd (now_lt_of_mainStep? hstep hstage) (Nat.not_lt_of_le hdue)
  · obtain ⟨hsame, hnow⟩ := stage_now_of_step hmain hl hstep
    have hbefore := hsame.symm.trans hstage
    have hrest := htimely deadline hbefore (hnow ▸ hdue)
    obtain ⟨c, rfl, hfollows⟩ := h.exists_of_watching hbefore
    have hn : w.heard ≠ 0 := fun hn => by
      have hcan := h.isSome_step_monitor_of_watching hn
      rw [hrest 0] at hcan
      cases hcan
    -- then nothing is left to do before the dry run goes on itself
    obtain ⟨s', w', h', hlt⟩ := h.step htimely hl hstep
    obtain ⟨c', rfl, hfollows'⟩ := h'.exists_of_watching hstage
    have hsix := hfollows'.six_le_left
    rw [hfollows.left_eq_six hn] at hlt
    simp only [Scene.left, Course.left] at hlt
    omega

theorem runAlong_cons {d₁ : DryRun} (hstep : d.step setup l = some d₁)
    (hrun : d₁.runAlong setup ls = some d') : d.runAlong setup (l :: ls) = some d' := by
  rw [runAlong, hstep, Option.bind_some, hrun]

theorem inTime_cons (htimely : d.Timely setup) (hstep : d.step setup l = some d')
    (htime : d'.InTime setup ls) : d.InTime setup (l :: ls) := by
  refine ⟨htimely, fun d₁ hstep₁ => ?_⟩
  cases hstep.symm.trans hstep₁
  exact htime

theorem timely_of_inTime (hrun : d.runAlong setup ls = some d') (htime : d.InTime setup ls) :
    d'.Timely setup := by
  induction ls generalizing d with
  | nil => cases hrun; exact htime
  | cons l ls ih =>
    obtain ⟨d₁, hstep, hrest⟩ := Option.bind_eq_some_iff.mp hrun
    exact ih hrest (htime.2 d₁ hstep)

theorem Scene.exists_of_wakes? {deadline : Nat} (h : s.wakes? = some deadline) :
    ∃ c, s = .course c (.sleeping deadline) := by
  cases s with
  | opening | refusal => cases h
  | course c k => cases k <;> cases h; exact ⟨c, rfl⟩

def need (s : Scene) (w : Watcher) (d : DryRun) : Nat :=
  2 * (s.left + w.left) + (s.wakes?.any fun deadline => d.machine.now < deadline).toNat

/-- A step other than waiting leaves less to do, even if the clock has to be waited for now. -/
theorem need_lt_of_left_lt {s' : Scene} {w' : Watcher} (hlt : s'.left + w'.left < s.left + w.left) :
    need s' w' d' < need s w d := by
  have hflag := Bool.toNat_le (s'.wakes?.any fun deadline => d'.machine.now < deadline)
  unfold need
  omega

/-- To wait until the call wakes takes the dry run no further, but it need not be done again. -/
theorem Stands.wake (h : Stands setup settings a s w d) (hstuck : ¬ d.CanStep setup)
    (hms : d.machine.untilWake? = some ms) (hstep : d.step setup (.wait ms) = some d') :
    d'.Timely setup ∧ need s w d' < need s w d := by
  rw [h.untilWake?_eq] at hms
  obtain ⟨deadline, hwakes, rfl⟩ := Option.map_eq_some_iff.mp hms
  obtain ⟨c, rfl⟩ := Scene.exists_of_wakes? hwakes
  have hlt : d.machine.now < deadline := by
    obtain ⟨failure, hended⟩ | hcan | ⟨deadline', hwakes', hlt⟩ := h.canStep_or
    · cases h.stage.symm.trans hended
    · exact absurd hcan hstuck
    · cases hwakes'; exact hlt
  cases hstep
  constructor
  · exact fun _ hstage => nomatch h.stage.symm.trans hstage
  · have hdue : ¬ d.machine.now + (deadline - d.machine.now) < deadline := by omega
    simp [need, hwakes, hlt, hdue]

/-- The first possible step keeps a dry run in time, and less is left behind it. -/
theorem Stands.first_step (h : Stands setup settings a s w d) (htimely : d.Timely setup)
    (hfirst : d.labels.findSome? (d.step setup) = some d') :
    ∃ l s' w', d.step setup l = some d' ∧ Stands setup settings a s' w' d' ∧ d'.Timely setup ∧
      need s' w' d' < need s w d := by
  obtain ⟨l, hl, hstep⟩ | ⟨hstuck, ms, hms, hstep⟩ := cases_of_findSome?_labels hfirst
  · obtain ⟨s', w', h', hlt⟩ := h.step htimely hl hstep
    exact ⟨l, s', w', hstep, h', h.timely_step htimely hl hstep, need_lt_of_left_lt hlt⟩
  · obtain ⟨htimely', hlt⟩ := h.wake hstuck hms hstep
    exact ⟨.wait ms, s, w, hstep, h.step_wait ms hstep, htimely', hlt⟩

/-- Where no step is possible, the dry run has ended. -/
theorem Stands.ended_of_stuck (h : Stands setup settings a s w d)
    (hnone : d.labels.findSome? (d.step setup) = none) : ∃ failure, d.stage = .ended failure := by
  obtain ⟨hstuck, hwake⟩ := findSome?_labels_eq_none_iff.mp hnone
  obtain hended | hcan | ⟨deadline, hwakes, hlt⟩ := h.canStep_or
  · exact hended
  · exact absurd hcan hstuck
  · rw [h.untilWake?_eq, hwakes] at hwake
    cases hwake

/-- The run of first possible steps, with steps enough, is in time and ends. -/
theorem Stands.runWithin (h : Stands setup settings a s w d) (htimely : d.Timely setup)
    (hfuel : need s w d ≤ fuel) :
    ∃ ls, d.runAlong setup ls = some (DryRun.runWithin setup fuel d) ∧ d.InTime setup ls ∧
      ∃ failure, (DryRun.runWithin setup fuel d).stage = .ended failure := by
  induction fuel generalizing d s w with
  | zero =>
    refine ⟨[], rfl, htimely, h.ended_of_stuck ?_⟩
    rw [Option.eq_none_iff_forall_ne_some]
    intro d' hfirst
    obtain ⟨l, s', w', -, -, -, hlt⟩ := h.first_step htimely hfirst
    omega
  | succ fuel ih =>
    rw [DryRun.runWithin]
    cases hfirst : d.labels.findSome? (d.step setup) with
    | none => exact ⟨[], rfl, htimely, h.ended_of_stuck hfirst⟩
    | some d' =>
      obtain ⟨l, s', w', hstep, h', htimely', hlt⟩ := h.first_step htimely hfirst
      obtain ⟨ls, hrun, htime, hended⟩ := ih h' htimely' (by omega)
      exact ⟨l :: ls, runAlong_cons hstep hrun, inTime_cons htimely hstep htime, hended⟩

/-- What becomes of the configuration decides how the dry run has ended. -/
def EndsWith (tunnel : String) (d : DryRun) : Except ConfigError Config → Prop
  | .ok c => d.stage = .ended none ∧ d.reports = [.connected, .disabled] ∧
      d.machine.calls.map CallRecord.call = [upCall tunnel c, downCall tunnel]
  | .error e => d.stage = .ended (some (.connect (.config e))) ∧ d.reports = [] ∧
      d.machine.calls.map CallRecord.call = []

def longest : Nat := 35

/-- Whatever the order of the steps, a run that has ended has ended as its configuration decides. -/
theorem endsWith_of_run {failure : Option DryRunFailure}
    (hrun : (start setup settings a).runAlong setup ls = some d)
    (htime : (start setup settings a).InTime setup ls) (hended : d.stage = .ended failure) :
    d.EndsWith setup.tunnel (setup.client.configFor a settings setup.keys) := by
  obtain ⟨s, w, h, -⟩ := (stands_start setup settings a).run hrun htime
  obtain ⟨c, rfl, rfl⟩ | ⟨e, rfl, rfl⟩ := h.ended hended
  · rw [show setup.client.configFor a settings setup.keys = .ok c from h.built]
    exact ⟨h.stage, h.reports, h.calls⟩
  · rw [show setup.client.configFor a settings setup.keys = .error e from h.built]
    exact ⟨h.stage, h.reports, h.calls⟩

/-- In time, a dry run takes no more steps than the longest. -/
theorem countP_le_of_run (hrun : (start setup settings a).runAlong setup ls = some d)
    (htime : (start setup settings a).InTime setup ls) : ls.countP (!·.isWait) ≤ longest := by
  obtain ⟨s, w, -, hle⟩ := (stands_start setup settings a).run hrun htime
  exact Nat.le_trans (Nat.le_add_right _ _) hle

/-- A run can be continued in time to an end, by the first possible step each time. -/
theorem runWithin_of_run (hrun : (start setup settings a).runAlong setup ls = some d)
    (htime : (start setup settings a).InTime setup ls) :
    ∃ ls', d.runAlong setup ls' = some (runWithin setup stepBound d) ∧ d.InTime setup ls' ∧
      ∃ failure, (runWithin setup stepBound d).stage = .ended failure := by
  obtain ⟨s, w, h, hle⟩ := (stands_start setup settings a).run hrun htime
  refine h.runWithin (timely_of_inTime hrun htime) ?_
  have hflag := Bool.toNat_le (s.wakes?.any fun deadline => d.machine.now < deadline)
  have hstart : (Scene.opening .entering).left + Watcher.absent.left = 35 := rfl
  unfold need stepBound
  omega

end DryRun

end VpnTunnel
