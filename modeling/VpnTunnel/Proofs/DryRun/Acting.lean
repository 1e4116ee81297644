import VpnTunnel.Proofs.DryRun.Watching
import VpnTunnel.Proofs.Machine.Turns

/-!
# From scene to scene

Every step but those of the monitor takes a dry run to the next scene of its line.
-/

namespace VpnTunnel

/-- A call that has returned waits for nothing. -/
theorem Caller.awaits?_of_hasReturned {x : Caller} (h : x.HasReturned) : x.awaits? = none := by
  cases x with
  | connect a p => cases p <;> first | rfl | cases h
  | disconnect p => cases p <;> first | rfl | cases h
  | stop p => rfl

namespace DryRun

variable {setup : Setup} {settings : Settings} {a : Attempt} {s : Scene} {w w' : Watcher}
  {d d' : DryRun} {i j n : Nat} {c : Config} {e : ConfigError} {k : Course} {m' : Machine}
  {told told' : Bool} {sent sent' : List EngineReport} {least least' : Nat}

/-- The dry run goes on in a scene, and it has less before it. -/
def GoesOn (setup : Setup) (settings : Settings) (a : Attempt) (s : Scene) (w : Watcher)
    (d' : DryRun) : Prop :=
  ∃ s' w', Stands setup settings a s' w' d' ∧ s'.left + w'.left < s.left + w.left

theorem GoesOn.intro (s' : Scene) (w' : Watcher) (h : Stands setup settings a s' w' d')
    (hs : s'.left < s.left) (hw : w'.left ≤ w.left) : GoesOn setup settings a s w d' :=
  ⟨s', w', h, Nat.add_lt_add_of_lt_of_le hs hw⟩

/-- The next scene, with the monitor as it is. -/
theorem GoesOn.next (s' : Scene) (h : Stands setup settings a s' w d')
    (hs : s'.left + 1 = s.left) : GoesOn setup settings a s w d' :=
  .intro s' w h (Nat.lt_of_succ_le (Nat.le_of_eq hs)) (Nat.le_refl _)

theorem Watcher.Follows.mono (h : w.Follows told sent least) (htold : told = true → told' = true)
    (hsent : sent <+: sent') (hleast : least' ≤ w.heard) : w.Follows told' sent' least' := by
  have hlength := hsent.length_le
  cases h with
  | spawned => exact .spawned (Nat.le_zero.mp hleast)
  | polling _ hle => exact .polling hleast (Nat.le_trans hle hlength)
  | receiving _ hlt => exact .receiving hleast (Nat.lt_of_lt_of_le hlt hlength)
  | handling _ he =>
    obtain ⟨rest, rfl⟩ := hsent
    exact .handling hleast (getElem?_append_of_eq_some he)
  | joining _ h => exact .joining hleast (htold h)
  | parting _ h => exact .parting hleast (htold h)
  | done _ h => exact .done hleast (htold h)

theorem Watcher.Follows.le_heard (h : w.Follows told sent least) : least ≤ w.heard := by
  cases h with
  | spawned h => exact Nat.le_of_eq h
  | _ h => exact h

/-- A monitor that nobody has told to stop listens. -/
theorem Watcher.Follows.exists_receivers_eq (h : w.Follows false sent least) :
    ∃ p, w.receivers = [some p] := by
  cases h with
  | joining _ h | parting _ h | done _ h => cases h
  | _ => exact ⟨_, rfl⟩

/-- To tell the monitor to stop changes nothing else of it. -/
theorem Watcher.modify_task? (w : Watcher) :
    (w.task? told).toList.modify 0 (fun t => { t with told := true }) = (w.task? true).toList := by
  cases w <;> rfl

theorem hasReturned_of_mem_returned {x : Caller} (h : x ∈ s.returned a) : x.HasReturned := by
  cases s with
  | opening | refusal => cases h
  | course c k =>
    have hmem : x = connectedCall a ∨ x = disconnectedCall := by
      cases k <;> simp_all [Scene.returned, Course.returned]
    obtain rfl | rfl := hmem <;> rfl

/-- Only the last call can step. -/
theorem Stands.exists_of_caller (h : Stands setup settings a s w d)
    (hm : d.machine.step setup (.caller i) = some m') :
    ∃ x m₁, Machine.CallerMove setup d.machine i (.caller i) (s.caller a) x m₁ ∧
      m' = { m₁ with callers := s.returned a ++ [x] } := by
  cases Machine.move_of_step hm with
  | @caller _ k x x' m₁ hx hmove =>
    cases hmove.caller?
    rw [h.callers, Scene.callers] at hx
    obtain ⟨-, hold⟩ | ⟨rfl, rfl⟩ := getElem?_append_singleton_eq_some hx
    · exact absurd (hasReturned_of_mem_returned (List.mem_of_getElem? hold)) hmove.not_hasReturned
    · refine ⟨x', m₁, hmove, ?_⟩
      rw [Machine.setCaller, hmove.callers_eq, h.callers, Scene.callers,
        List.set_append_right _ _ (Nat.le_refl _), Nat.sub_self]
      rfl

/-- Up to the building of the configuration, a step leads to the next scene. -/
theorem Stands.opening {o : Opening} (h : Stands setup settings a (.opening o) w d)
    (hstep : d.step setup (.caller i) = some d') : GoesOn setup settings a (.opening o) w d' := by
  obtain ⟨m', hm, rfl⟩ := exists_of_withStep? hstep
  obtain ⟨x, m₁, hmove, rfl⟩ := h.exists_of_caller hm
  obtain rfl : w = .absent := h.has
  cases o with
  | entering =>
    cases hmove with
    | connect hmove =>
      cases hmove with
      | supersede j _ hslot => cases h.slot.symm.trans hslot
      | enter =>
        exact .next (.opening .announcing) { h with callers := rfl } rfl
  | announcing =>
    cases hmove with
    | connect hmove =>
      cases hmove
      obtain ⟨changes, hpublish⟩ := d.machine.publish_eq .connecting
      rw [hpublish]
      exact .next (.opening .recording) { h with callers := rfl, state := rfl } rfl
  | recording =>
    cases hmove with
    | connect hmove =>
      cases hmove
      exact .next (.opening .building) { h with callers := rfl } rfl
  | building =>
    cases hmove with
    | connect hmove =>
      cases hmove with
      | build c hbuilt =>
        rw [h.settings] at hbuilt
        exact .next (.course c .listening) { h with built := hbuilt, callers := rfl } rfl
      | refuse e hbuilt =>
        rw [h.settings] at hbuilt
        exact .intro (.refusal e .failing) .absent { h with built := hbuilt, callers := rfl }
          (by simp [Scene.left]) (Nat.le_refl _)

/-- Without a configuration, a step leads to the next scene. -/
theorem Stands.refusal {f : Refusal} (h : Stands setup settings a (.refusal e f) w d)
    (hstep : d.step setup (.caller i) = some d') :
    GoesOn setup settings a (.refusal e f) w d' := by
  obtain ⟨m', hm, rfl⟩ := exists_of_withStep? hstep
  obtain ⟨x, m₁, hmove, rfl⟩ := h.exists_of_caller hm
  obtain rfl : w = .absent := h.has
  cases f with
  | failing =>
    cases hmove with
    | connect hmove =>
      cases hmove
      obtain ⟨changes, hpublish⟩ := d.machine.publish_eq (CallFailure.config e).state
      rw [hpublish]
      exact .next (.refusal e .clearing) { h with callers := rfl, state := rfl } rfl
  | clearing =>
    cases hmove with
    | connect hmove =>
      cases hmove
      exact .next (.refusal e .leaving) { h with callers := rfl } rfl
  | leaving =>
    cases hmove with
    | connect hmove =>
      cases hmove
      exact .next (.refusal e .refused) { h with
        callers := rfl
        queue := congrArg List.tail h.queue } rfl
  | refused | ended => cases hmove with | connect hmove => cases hmove

section Course

variable {m₁ : Machine} {a' : Attempt}

/-- With a configuration, a step of the call to connect leads to the next scene. -/
theorem Stands.connecting {p p' : ConnectPhase} (h : Stands setup settings a (.course c k) w d)
    (hk : k.caller a c = .connect a' p) (hmove : Machine.ConnectMove setup d.machine i a' p p' m₁) :
    GoesOn setup settings a (.course c k) w
      { d with machine := { m₁ with callers := k.returned a ++ [.connect a' p'] } } := by
  have hbuilt := h.built
  have hevents := h.events
  have hnetwork := h.network
  cases k with
  | listening =>
    cases hk
    cases hmove
    obtain rfl : w = .absent := h.has
    rw [hevents]
    exact .intro (.course c .raising) .subscribed { h with
        has := rfl
        callers := rfl
        events := rfl }
      (by simp [Scene.left, Course.left]) (Nat.le_refl _)
  | raising =>
    cases hk
    cases hmove
    exact .next (.course c .raised) { h with
      callers := rfl
      calls := by simp [Machine.callEngine, h.calls, Scene.calls, Course.calls, upCall] } rfl
  | observing =>
    cases hk
    cases hmove
    obtain rfl : w = .subscribed := h.has
    rw [hnetwork]
    exact .intro (.course c .spawning) .prepared { h with
        has := rfl
        callers := rfl
        network := rfl }
      (by simp [Scene.left, Course.left]) (Nat.le_refl _)
  | spawning =>
    cases hk
    cases hmove
    obtain rfl : w = .prepared := h.has
    have hmonitors := h.monitors
    exact .intro (.course c .leaving) .spawned { h with
        has := .spawned rfl
        callers := rfl
        slot := by simp [Machine.spawn, hmonitors, Watcher.task?, Scene.slot, Course.slot]
        monitors := by simp [Machine.spawn, hmonitors, Watcher.task?, Scene.told, Course.told] }
      (by simp [Scene.left, Course.left]) (by decide)
  | leaving =>
    cases hk
    cases hmove
    exact .next (.course c .connected) { h with
      callers := rfl
      queue := congrArg List.tail h.queue } rfl
  | raised | up | connected | watching => cases hk; cases hmove
  | _ => cases hk

theorem Stands.disconnecting {p p' : DisconnectPhase}
    (h : Stands setup settings a (.course c k) w d) (hk : k.caller a c = .disconnect p)
    (hmove : Machine.DisconnectMove setup d.machine p p' m₁) :
    GoesOn setup settings a (.course c k) w
      { d with machine := { m₁ with callers := k.returned a ++ [.disconnect p'] } } := by
  cases k with
  | disabling =>
    cases hk
    cases hmove
    obtain ⟨changes, hpublish⟩ := d.machine.publish_eq .disabled
    rw [hpublish]
    exact .next (.course c (.sleeping (d.machine.now + graceMilliseconds)))
      { h with callers := rfl, state := rfl } rfl
  | sleeping =>
    cases hk
    cases hmove
    exact .next (.course c .clearing) { h with callers := rfl } rfl
  | clearing =>
    cases hk
    cases hmove
    exact .next (.course c .lowering) { h with callers := rfl } rfl
  | lowering =>
    cases hk
    cases hmove
    exact .next (.course c .lowered) { h with
      callers := rfl
      calls := by simp [Machine.callEngine, h.calls, Scene.calls, Course.calls, downCall] } rfl
  | lowered | down | disconnected => cases hk; cases hmove
  | _ => cases hk

/-- A step of the call that stops the monitor leads to the next scene. -/
theorem Stands.stopping {p p' : StopPhase} (h : Stands setup settings a (.course c k) w d)
    (hk : k.caller a c = .stop p) (hmove : Machine.StopMove d.machine i p p' m₁) :
    GoesOn setup settings a (.course c k) w
      { d with machine := { m₁ with callers := k.returned a ++ [.stop p'] } } := by
  cases k with
  | stopping =>
    cases hk
    cases hmove with
    | enter _ hslot => cases h.slot.symm.trans hslot
    | supersede j _ hslot =>
      cases h.slot.symm.trans hslot
      have hfollows : w.Follows false [.state .up, .state .down] 1 := h.has
      exact .next (.course c .joining) { h with
        has := hfollows.mono (fun _ => rfl) (List.prefix_refl _) hfollows.le_heard
        callers := rfl
        slot := rfl
        monitors := (congrArg (List.modify · 0 _) h.monitors).trans w.modify_task? } rfl
  | joining =>
    cases hk
    cases hmove
    exact .next (.course c .unlocking) { h with callers := rfl } rfl
  | unlocking =>
    cases hk
    cases hmove
    exact .next (.course c .stopped) { h with
      callers := rfl
      queue := congrArg List.tail h.queue } rfl
  | stopped | ended => cases hk; cases hmove
  | _ => cases hk

end Course

/-- A step of a call. -/
theorem Stands.step_caller (h : Stands setup settings a s w d)
    (hstep : d.step setup (.caller i) = some d') : GoesOn setup settings a s w d' := by
  cases s with
  | opening => exact h.opening hstep
  | refusal => exact h.refusal hstep
  | course c k =>
    obtain ⟨m', hm, rfl⟩ := exists_of_withStep? hstep
    obtain ⟨x, m₁, hmove, rfl⟩ := h.exists_of_caller hm
    generalize hx : (Scene.course c k).caller a = y at hmove
    cases hmove with
    | connect hmove => exact h.connecting hx hmove
    | disconnect hmove => exact h.disconnecting hx hmove
    | stop hmove => exact h.stopping hx hmove

/-- The engine is asked for something in four scenes, and only by the last call. -/
theorem Stands.cases_of_awaits? {target : LinkState} (h : Stands setup settings a s w d)
    (hi : d.machine.callers[i]?.bind Caller.awaits? = some target) :
    ∃ c, (s = .course c .raised ∨ s = .course c .up) ∧ i = 0 ∧ target = .up ∨
      (s = .course c .lowered ∨ s = .course c .down) ∧ i = 1 ∧ target = .down := by
  obtain ⟨x, hx, hawaits⟩ := Option.bind_eq_some_iff.mp hi
  rw [h.callers, Scene.callers] at hx
  obtain ⟨-, hold⟩ | ⟨rfl, rfl⟩ := getElem?_append_singleton_eq_some hx
  · rw [Caller.awaits?_of_hasReturned (hasReturned_of_mem_returned (List.mem_of_getElem? hold))]
      at hawaits
    cases hawaits
  · cases s with
    | opening o => cases o <;> cases hawaits
    | refusal e f => cases f <;> cases hawaits
    | course c k =>
      cases k with
      | raised => cases hawaits; exact ⟨c, .inl ⟨.inl rfl, rfl, rfl⟩⟩
      | up => cases hawaits; exact ⟨c, .inl ⟨.inr rfl, rfl, rfl⟩⟩
      | lowered => cases hawaits; exact ⟨c, .inr ⟨.inl rfl, rfl, rfl⟩⟩
      | down => cases hawaits; exact ⟨c, .inr ⟨.inr rfl, rfl, rfl⟩⟩
      | _ => cases hawaits

/-- The engine carries out what it is asked for, and reports it. -/
theorem Stands.step_report (h : Stands setup settings a s w d)
    (hstep : d.step setup (.report i) = some d') : GoesOn setup settings a s w d' := by
  have hevents := h.events
  have hreported := h.reported
  simp only [step] at hstep
  split at hstep
  next target hawaits =>
    split at hstep
    next => cases hstep
    next hnew =>
      obtain ⟨m', hm, rfl⟩ := exists_of_withStep? hstep
      cases hm
      rw [hreported] at hnew
      obtain ⟨c, ⟨rfl | rfl, rfl, rfl⟩ | ⟨rfl | rfl, rfl, rfl⟩⟩ := h.cases_of_awaits? hawaits
      · obtain rfl : w = .subscribed := h.has
        refine .next (.course c .up) { h with
          reported := congrArg (0 :: ·) hreported
          events := ?_ } rfl
        rw [hevents, Broadcast.send_eq_append
          (Broadcast.audience_ne_zero (r := 0) rfl ⟨0, rfl⟩)]
        rfl
      · exact absurd (.head _) hnew
      · have hfollows : w.Follows false [.state .up] 1 := h.has
        obtain ⟨p, hp⟩ := hfollows.exists_receivers_eq
        refine .next (.course c .down) { h with
          has := hfollows.mono id (List.prefix_append _ _) hfollows.le_heard
          reported := congrArg (1 :: ·) hreported
          events := ?_ } rfl
        rw [hevents, Broadcast.send_eq_append
          (Broadcast.audience_ne_zero (r := 0) rfl ⟨p, congrArg (·[0]?) hp⟩)]
        rfl
      · exact absurd (.head _) hnew
  next => cases hstep

theorem Scene.exists_of_mem_reported (hi : i ∈ s.reported) :
    ∃ c, s = .course c .up ∧ i = 0 ∨ s = .course c .down ∧ i = 1 := by
  cases s with
  | opening | refusal => cases hi
  | course c k =>
    cases k with
    | up => exact ⟨c, .inl ⟨rfl, List.mem_singleton.mp hi⟩⟩
    | down => exact ⟨c, .inr ⟨rfl, List.mem_singleton.mp hi⟩⟩
    | _ => cases hi

/-- The engine answers. -/
theorem Stands.step_answer (h : Stands setup settings a s w d)
    (hstep : d.step setup (.answer i) = some d') : GoesOn setup settings a s w d' := by
  have hcallers := h.callers
  have hreported := h.reported
  simp only [step] at hstep
  split at hstep
  next hi =>
    obtain ⟨m', hm, rfl⟩ := exists_of_withStep? hstep
    rw [hreported] at hi
    obtain ⟨c, ⟨rfl, rfl⟩ | ⟨rfl, rfl⟩⟩ := Scene.exists_of_mem_reported hi
    · simp only [Machine.step, hcallers] at hm
      cases hm
      exact .next (.course c .observing) { h with
        reported := congrArg (List.erase · 0) hreported
        callers := congrArg (List.set · 0 _) hcallers } rfl
    · simp only [Machine.step, hcallers] at hm
      cases hm
      exact .next (.course c .disconnected) { h with
        reported := congrArg (List.erase · 1) hreported
        callers := congrArg (List.set · 1 _) hcallers } rfl
  next => cases hstep

/-- The time does not come to its limit before the monitor has done what it can. -/
def Timely (setup : Setup) (d : DryRun) : Prop :=
  ∀ deadline, d.stage = .watching deadline → deadline ≤ d.machine.now →
    ∀ j, d.step setup (.monitor j) = none

theorem Stands.isSome_step_monitor {t : Monitor} (h : Stands setup settings a (.course c k) w d)
    (ht : w.task? k.told = some t) (hcan : (d.machine.monitorStep? 0 t).isSome = true) :
    (d.step setup (.monitor 0)).isSome = true := by
  have hmember : d.machine.monitors[0]? = some t := by
    rw [h.monitors]
    exact congrArg (·.toList[0]?) ht
  rw [step, withStep?, Machine.step, hmember, Option.bind_some, Option.isSome_map]
  exact hcan

/-- While the dry run waits for news, the monitor can step as long as it has not shown any. -/
theorem Stands.isSome_step_monitor_of_watching {deadline : Nat}
    (h : Stands setup settings a (.course c (.watching deadline)) w d) (hn : w.heard = 0) :
    (d.step setup (.monitor 0)).isSome = true := by
  have hfollows : w.Follows false [.state .up] 0 := h.has
  cases hfollows with
  | spawned | handling => exact h.isSome_step_monitor rfl rfl
  | polling =>
    obtain rfl : _ = 0 := hn
    have hready : (d.machine.events.receive? 0).isSome = true := by
      rw [h.events]
      exact congrArg Option.isSome (receive?_sent (.watching deadline) 0)
    refine h.isSome_step_monitor rfl ?_
    simp only [Machine.monitorStep?, hready, if_true]
    rfl
  | receiving =>
    refine h.isSome_step_monitor rfl ?_
    simp only [Machine.monitorStep?]
    split <;> rfl
  | joining _ htold | parting _ htold | done _ htold => cases htold

/-- The dry run takes a step of its own. -/
theorem Stands.step_main (h : Stands setup settings a s w d) (htimely : d.Timely setup)
    (hstep : d.step setup .main = some d') : GoesOn setup settings a s w d' := by
  have hstage := h.stage
  have hcallers := h.callers
  have hqueue := h.queue
  have hreports := h.reports
  simp only [step, mainStep?, hstage] at hstep
  cases s with
  | opening o => cases o <;> simp only [Scene.stage, resultOf?, hcallers] at hstep <;> cases hstep
  | refusal e f =>
    cases f with
    | refused =>
      simp only [Scene.stage, resultOf?, hcallers] at hstep
      cases hstep
      exact .next (.refusal e .ended) { h with stage := rfl } rfl
    | ended => simp [Scene.stage] at hstep
    | _ => simp only [Scene.stage, resultOf?, hcallers] at hstep; cases hstep
  | course c k =>
    cases k with
    | connected =>
      simp only [Scene.stage, Course.stage, resultOf?, hcallers] at hstep
      cases hstep
      exact .next (.course c (.watching (d.machine.now + dryRunPatience)))
        { h with stage := rfl } rfl
    | watching deadline =>
      have hfollows : w.Follows false [.state .up] 0 := h.has
      have hstate : d.machine.state = if w.heard = 0 then .connecting else .connected := h.state
      by_cases hn : w.heard = 0
      · rw [if_pos hn] at hstate
        simp only [Scene.stage, Course.stage, hstate] at hstep
        split at hstep
        next hnews => cases hnews
        next =>
          split at hstep
          next hdue =>
            have hmonitor := h.isSome_step_monitor_of_watching hn
            rw [htimely deadline hstage hdue 0] at hmonitor
            cases hmonitor
          next => cases hstep
      · rw [if_neg hn] at hstate
        simp only [Scene.stage, Course.stage, hstate] at hstep
        obtain ⟨m', hm, rfl⟩ := exists_of_withStep? hstep
        cases hm
        exact .next (.course c .disabling) { h with
          has := hfollows.mono id (List.prefix_refl _) (Nat.one_le_iff_ne_zero.mpr hn)
          stage := rfl
          reports := congrArg (· ++ [_]) hreports
          callers := congrArg (· ++ [_]) hcallers } rfl
    | disconnected =>
      simp only [Scene.stage, Course.stage, resultOf?, hcallers] at hstep
      obtain ⟨m', hm, rfl⟩ := exists_of_withStep? hstep
      cases hm
      exact .next (.course c .stopping) { h with
        stage := rfl
        callers := congrArg (· ++ [_]) hcallers
        queue := by simp only [hqueue, hcallers]; rfl } rfl
    | stopped =>
      simp only [Scene.stage, Course.stage, resultOf?, hcallers] at hstep
      cases hstep
      exact .next (.course c .ended) { h with
        stage := rfl
        reports := by rw [hreports, h.state]; rfl } rfl
    | ended => simp [Scene.stage, Course.stage] at hstep
    | _ => simp only [Scene.stage, Course.stage, resultOf?, hcallers] at hstep; cases hstep

end DryRun

end VpnTunnel
