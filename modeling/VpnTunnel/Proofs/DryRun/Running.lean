import VpnTunnel.Proofs.DryRun.Acting
import VpnTunnel.Proofs.Machine.Returning

/-!
# Runs of a dry run

In whatever order the steps come, a dry run goes down its line of scenes to the end, as long as its
monitor has its turns before the time to wait for news is over. It never gets stuck, and apart from
waiting there is a bound on its steps.
-/

namespace VpnTunnel

def DryRunLabel.isWait : DryRunLabel → Bool
  | wait _ => true
  | _ => false

/-- No step of a machine takes time but a wait. -/
theorem Machine.now_of_step {setup : Setup} {m m' : Machine} {l : Label} (hl : ∀ ms, l ≠ .wait ms)
    (hstep : m.step setup l = some m') : m'.now = m.now := by
  have hpublish : ∀ s, (m.publish s).now = m.now := fun s => by
    obtain ⟨_, h⟩ := m.publish_eq s
    rw [h]
  cases move_of_step hstep with
  | caller hc hmove =>
    cases hmove with
    | connect hmove =>
      cases hmove with
      | announce | fail => exact hpublish _
      | leave events => cases events <;> rfl
      | _ => rfl
    | disconnect hmove =>
      cases hmove with
      | announce => exact hpublish _
      | _ => rfl
    | stop hmove => cases hmove <;> rfl
    | answer => rfl
  | monitor ht hmove =>
    cases hmove with
    | handle => exact hpublish _
    | _ => rfl
  | connectivity ht hmove => cases hmove <;> rfl
  | wait ms => exact absurd rfl (hl ms)
  | _ => rfl

namespace DryRun

variable {setup : Setup} {settings : Settings} {a : Attempt} {s : Scene} {w : Watcher}
  {d d' : DryRun} {l : DryRunLabel} {ls : List DryRunLabel} {i j : Nat} {c : Config} {k : Course}

def runAlong (setup : Setup) : DryRun → List DryRunLabel → Option DryRun
  | d, [] => some d
  | d, l :: ls => (d.step setup l).bind fun d' => runAlong setup d' ls

/-- In all the run the time to wait for news is not over before the monitor has had its turns. -/
def InTime (setup : Setup) : DryRun → List DryRunLabel → Prop
  | d, [] => d.Timely setup
  | d, l :: ls => d.Timely setup ∧ ∀ d', d.step setup l = some d' → InTime setup d' ls

/-- A dry run starts in the first scene. -/
theorem stands_start (setup : Setup) (settings : Settings) (a : Attempt) :
    Stands setup settings a (.opening .entering) .absent (start setup settings a) :=
  ⟨trivial, rfl, rfl, rfl, rfl, rfl, rfl, rfl, rfl, rfl, rfl, rfl, rfl, rfl⟩

theorem Stands.step_wait (h : Stands setup settings a s w d) (ms : Nat)
    (hstep : d.step setup (.wait ms) = some d') : Stands setup settings a s w d' := by
  cases hstep
  exact { h with }

/-- Every step but a wait brings the dry run on. -/
theorem Stands.step (h : Stands setup settings a s w d) (htimely : d.Timely setup)
    (hl : l.isWait = false) (hstep : d.step setup l = some d') :
    GoesOn setup settings a s w d' := by
  cases l with
  | main => exact h.step_main htimely hstep
  | report i => exact h.step_report hstep
  | answer i => exact h.step_answer hstep
  | caller i => exact h.step_caller hstep
  | monitor j =>
    obtain ⟨w', h', hlt⟩ := h.monitor hstep
    exact ⟨s, w', h', Nat.add_lt_add_left hlt _⟩
  | connectivity j =>
    obtain ⟨w', h', hlt⟩ := h.connectivity hstep
    exact ⟨s, w', h', Nat.add_lt_add_left hlt _⟩
  | wait ms => cases hl

/-- In time, a dry run goes from scene to scene, and each step besides waiting brings it nearer to
its end. -/
theorem Stands.run (h : Stands setup settings a s w d) (hrun : d.runAlong setup ls = some d')
    (htime : d.InTime setup ls) :
    ∃ s' w', Stands setup settings a s' w' d' ∧
      ls.countP (!·.isWait) + (s'.left + w'.left) ≤ s.left + w.left := by
  induction ls generalizing d s w with
  | nil =>
    cases hrun
    exact ⟨s, w, h, by simp⟩
  | cons l ls ih =>
    obtain ⟨d₁, hstep, hrest⟩ := Option.bind_eq_some_iff.mp hrun
    obtain ⟨htimely, htime⟩ := htime
    cases hl : l.isWait with
    | true =>
      obtain ⟨ms, rfl⟩ : ∃ ms, l = .wait ms := by cases l <;> first | exact ⟨_, rfl⟩ | cases hl
      obtain ⟨s', w', h', hle⟩ := ih (h.step_wait ms hstep) hrest (htime d₁ hstep)
      exact ⟨s', w', h', by simpa [DryRunLabel.isWait] using hle⟩
    | false =>
      obtain ⟨s₁, w₁, h₁, hlt⟩ := h.step htimely hl hstep
      obtain ⟨s', w', h', hle⟩ := ih h₁ hrest (htime d₁ hstep)
      refine ⟨s', w', h', ?_⟩
      rw [List.countP_cons_of_pos (by simp [hl])]
      omega

/-- A dry run that has ended is in the last scene of one of the two lines. -/
theorem Stands.ended {failure : Option DryRunFailure} (h : Stands setup settings a s w d)
    (hended : d.stage = .ended failure) :
    (∃ c, s = .course c .ended ∧ failure = none) ∨
      ∃ e, s = .refusal e .ended ∧ failure = some (.connect (.config e)) := by
  have hstage := h.stage.symm.trans hended
  cases s with
  | opening o => cases hstage
  | course c k => cases k <;> cases hstage; exact .inl ⟨c, rfl, rfl⟩
  | refusal e f => cases f <;> cases hstage; exact .inr ⟨e, rfl, rfl⟩

/-! ## Something is always possible -/

def CanStep (setup : Setup) (d : DryRun) : Prop :=
  ∃ l, l.isWait = false ∧ (d.step setup l).isSome = true

theorem Stands.canStep_caller (h : Stands setup settings a s w d)
    (hcan : ∃ m', d.machine.callerStep? setup (s.returned a).length (s.caller a) = some m') :
    d.CanStep setup := by
  obtain ⟨m', hm⟩ := hcan
  refine ⟨.caller (s.returned a).length, rfl, ?_⟩
  have hlast : d.machine.callers[(s.returned a).length]? = some (s.caller a) := by
    rw [h.callers, Scene.callers]
    simp
  rw [DryRun.step, withStep?, Machine.step, hlast, Option.bind_some, hm]
  rfl

/-- The last call can step, if it has the lock and waits neither for the monitor nor for the
engine. -/
theorem Stands.canStep_of_inLine (h : Stands setup settings a s w d) (hline : (s.caller a).InLine)
    (hhead : s.queue.head? = some (s.returned a).length) (hawaits : (s.caller a).awaits? = none)
    (hjoins : (s.caller a).holding.joins = none) : d.CanStep setup := by
  refine h.canStep_caller
    (Machine.exists_callerStep? setup hline (h.queue ▸ hhead) (fun j hj => ?_) hawaits)
  cases hjoins.symm.trans hj

theorem Stands.canStep_report {target : LinkState} (h : Stands setup settings a s w d) (i : Nat)
    (hawaits : (s.callers a)[i]?.bind Caller.awaits? = some target) (hnew : i ∉ s.reported) :
    d.CanStep setup := by
  rw [← h.callers] at hawaits
  rw [← h.reported] at hnew
  refine ⟨.report i, rfl, ?_⟩
  simp only [DryRun.step, hawaits, if_neg hnew]
  rfl

theorem Stands.canStep_answer {x x' : Caller} (h : Stands setup settings a s w d)
    (hi : i ∈ s.reported) (hx : (s.callers a)[i]? = some x)
    (hanswered : Machine.answered? (.ok ()) x = some x') : d.CanStep setup := by
  rw [← h.callers] at hx
  rw [← h.reported] at hi
  refine ⟨.answer i, rfl, ?_⟩
  simp only [DryRun.step, if_pos hi, withStep?, Machine.step, hx, Option.bind_some, hanswered]
  rfl

/-- A monitor that is told to stop can go on until it has ended, or its connectivity task can. -/
theorem Stands.canStep_or_hasEnded (h : Stands setup settings a (.course c .joining) w d) :
    d.CanStep setup ∨ d.machine.hasEnded 0 = true := by
  have hmonitors := h.monitors
  have hfollows : w.Follows true [.state .up, .state .down] 1 := h.has
  cases hfollows with
  | spawned hleast => cases hleast
  | polling | handling | parting =>
    exact .inl ⟨.monitor 0, rfl, h.isSome_step_monitor rfl rfl⟩
  | receiving =>
    refine .inl ⟨.monitor 0, rfl, h.isSome_step_monitor rfl ?_⟩
    simp only [Machine.monitorStep?]
    split <;> rfl
  | joining =>
    refine .inl ⟨.connectivity 0, rfl, ?_⟩
    simp only [DryRun.step, withStep?, Machine.step, hmonitors]
    rfl
  | done => exact .inr (by rw [Machine.hasEnded, hmonitors]; rfl)

/-- A dry run that has not ended can step, if it does not wait for the time to pass. -/
theorem Stands.canStep_or (h : Stands setup settings a s w d) :
    (∃ failure, d.stage = .ended failure) ∨ d.CanStep setup ∨
      ∃ deadline, s.wakes? = some deadline ∧ d.machine.now < deadline := by
  have hstage := h.stage
  have hcallers := h.callers
  cases s with
  | opening o =>
    refine .inr (.inl (h.canStep_of_inLine ?_ rfl ?_ ?_))
    · cases o <;> trivial
    · cases o <;> rfl
    · cases o <;> rfl
  | refusal e f =>
    cases f with
    | failing | clearing | leaving => exact .inr (.inl (h.canStep_of_inLine trivial rfl rfl rfl))
    | refused =>
      refine .inr (.inl ⟨.main, rfl, ?_⟩)
      simp only [DryRun.step, mainStep?, hstage, Scene.stage, resultOf?, hcallers]
      rfl
    | ended => exact .inl ⟨_, hstage⟩
  | course c k =>
    cases k with
    | listening | raising | observing | spawning | leaving | stopping | unlocking =>
      exact .inr (.inl (h.canStep_of_inLine trivial rfl rfl rfl))
    | raised => exact .inr (.inl (h.canStep_report 0 rfl List.not_mem_nil))
    | lowered => exact .inr (.inl (h.canStep_report 1 rfl List.not_mem_nil))
    | up | down => exact .inr (.inl (h.canStep_answer (.head _) rfl rfl))
    | connected | disconnected | stopped =>
      refine .inr (.inl ⟨.main, rfl, ?_⟩)
      simp only [DryRun.step, mainStep?, hstage, Scene.stage, Course.stage, resultOf?, hcallers]
      rfl
    | watching deadline =>
      by_cases hn : w.heard = 0
      · exact .inr (.inl ⟨.monitor 0, rfl, h.isSome_step_monitor_of_watching hn⟩)
      · have hstate : d.machine.state = .connected := h.state.trans (if_neg hn)
        refine .inr (.inl ⟨.main, rfl, ?_⟩)
        simp only [DryRun.step, mainStep?, hstage, Scene.stage, Course.stage, hstate]
        rfl
    | disabling | clearing | lowering => exact .inr (.inl (h.canStep_caller ⟨_, rfl⟩))
    | sleeping deadline =>
      by_cases hdue : deadline ≤ d.machine.now
      · have hwakes : ∃ m',
            d.machine.callerStep? setup 1 (.disconnect (.sleeping deadline)) = some m' :=
          ⟨_, by simp only [Machine.callerStep?, Machine.disconnectStep?, if_pos hdue]; rfl⟩
        exact .inr (.inl (h.canStep_caller hwakes))
      · exact .inr (.inr ⟨deadline, rfl, Nat.lt_of_not_le hdue⟩)
    | joining =>
      obtain hcan | hended := h.canStep_or_hasEnded
      · exact .inr (.inl hcan)
      · refine .inr (.inl (h.canStep_caller ?_))
        refine Machine.exists_callerStep? setup trivial (h.queue ▸ rfl) (fun j hj => ?_) rfl
        cases hj
        exact hended
    | ended => exact .inl ⟨_, hstage⟩

end DryRun

end VpnTunnel
