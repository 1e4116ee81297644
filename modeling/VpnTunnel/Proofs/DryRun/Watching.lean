import VpnTunnel.Proofs.DryRun.Scenes
import VpnTunnel.Proofs.Machine.Moves
import VpnTunnel.Proofs.Signal.Places

/-!
# The monitor of a dry run

Whatever the scene, a step of the monitor leaves it as it is, and brings the monitor nearer to its
end. What it publishes is what the scene says.
-/

namespace VpnTunnel

namespace DryRun

variable {setup : Setup} {settings : Settings} {a : Attempt} {s : Scene} {w w' : Watcher}
  {d d' : DryRun} {j n : Nat} {c : Config} {k : Course} {e : EngineReport} {t : Monitor}

theorem exists_of_withStep? {l : Label} (h : d.withStep? setup l = some d') :
    ∃ m, d.machine.step setup l = some m ∧ d' = { d with machine := m } := by
  obtain ⟨m, hm, rfl⟩ := Option.map_eq_some_iff.mp h
  exact ⟨m, hm, rfl⟩

theorem length_sent_le_two (k : Course) : k.sent.length ≤ 2 := by
  cases k <;> simp [Course.sent]

/-- No report of the engine is lost. -/
theorem length_sent_le (k : Course) : k.sent.length ≤ dryRunCapacity.nextPowerOfTwo := by
  have hcapacity : 2 ≤ dryRunCapacity.nextPowerOfTwo := by decide +kernel
  exact Nat.le_trans (length_sent_le_two k) hcapacity

/-- The monitor gets what the engine has sent, in order. -/
theorem receive?_sent (k : Course) (n : Nat) :
    (⟨dryRunCapacity.nextPowerOfTwo, k.sent, [some n], false⟩ : Broadcast EngineReport).receive? 0 =
      k.sent[n]?.map fun e =>
        (.item e, ⟨dryRunCapacity.nextPowerOfTwo, k.sent, [some (n + 1)], false⟩) := by
  simp only [Broadcast.receive?, List.getElem?_cons_zero]
  rw [Broadcast.deliveryAt?_of_length_le rfl (length_sent_le k), Option.map_map]
  rfl

/-- Nothing is ever reported of the network. -/
theorem receive?_network : (⟨networkCapacity.nextPowerOfTwo, [], [some 0], false⟩ :
    Broadcast Reachability).receive? 0 = none := by
  simp only [Broadcast.receive?, List.getElem?_cons_zero]
  rw [Broadcast.deliveryAt?_of_length_le rfl (Nat.zero_le _)]
  rfl

/-- First the tunnel is reported up, and then down, when it has been said that it is disabled. -/
theorem Course.report_of_sent (he : k.sent[n]? = some e) :
    n = 0 ∧ e = .state .up ∨ n = 1 ∧ e = .state .down ∧ k.isDisabled = true := by
  match n with
  | 0 => cases k <;> cases he <;> exact .inl ⟨rfl, rfl⟩
  | 1 => cases k <;> cases he <;> exact .inr ⟨rfl, rfl, rfl⟩
  | n + 2 => cases k <;> cases he

theorem Course.heard_of_isDisabled (h : k.isDisabled = true) : k.heard = 1 := by
  cases k <;> cases h <;> rfl

/-- What is published after one more report is what that report means. -/
theorem Course.status_succ (hn : k.heard ≤ n) (he : k.sent[n]? = some e) :
    k.status (n + 1) = .ofReport e := by
  obtain ⟨rfl, rfl⟩ | ⟨rfl, rfl, hdisabled⟩ := Course.report_of_sent he
  · have hshown : ¬ k.isDisabled = true := fun hdisabled => by
      rw [Course.heard_of_isDisabled hdisabled] at hn
      exact Nat.not_succ_le_zero 0 hn
    rw [status, if_neg hshown]
    rfl
  · rw [status, if_pos hdisabled]
    rfl

/-- Where there is a monitor, all that a scene asks of it is that it follows. -/
theorem Course.has_iff_follows (h : k.Has w) (ht : w.task? k.told = some t) (w' : Watcher) :
    k.Has w' ↔ w'.Follows k.told k.sent k.heard := by
  cases k with
  | listening | raising | raised | up | observing | spawning => cases h; cases ht
  | _ => exact Iff.rfl

/-- There is one monitor at most, and it follows what the engine sends. -/
theorem Stands.exists_of_monitor (h : Stands setup settings a s w d)
    (ht : d.machine.monitors[j]? = some t) :
    ∃ c k, s = .course c k ∧ j = 0 ∧ w.task? k.told = some t ∧ w.Follows k.told k.sent k.heard ∧
      ∀ w', k.Has w' ↔ w'.Follows k.told k.sent k.heard := by
  have hhas := h.has
  rw [h.monitors] at ht
  cases s with
  | opening | refusal => cases hhas; simp [Watcher.task?] at ht
  | course c k =>
    cases htask : w.task? k.told with
    | none => simp [Scene.told, htask] at ht
    | some u =>
      simp only [Scene.told, htask, Option.toList_some] at ht
      obtain ⟨rfl, rfl⟩ : j = 0 ∧ u = t := by
        cases j with
        | zero => exact ⟨rfl, Option.some.inj ht⟩
        | succ j => cases ht
      have hiff := Course.has_iff_follows hhas htask
      exact ⟨c, k, rfl, rfl, htask, (hiff w).mp hhas, hiff⟩

/-- A step of the monitor. -/
theorem Stands.monitor (h : Stands setup settings a s w d)
    (hstep : d.step setup (.monitor j) = some d') :
    ∃ w', Stands setup settings a s w' d' ∧ w'.left < w.left := by
  obtain ⟨m', hm, rfl⟩ := exists_of_withStep? hstep
  obtain ⟨t, ht, hm⟩ := Option.bind_eq_some_iff.mp hm
  obtain ⟨c, k, rfl, rfl, htask, hfollows, hhas⟩ := h.exists_of_monitor ht
  have hevents := h.events
  -- the list of the monitors has one member, which is replaced
  have hset : ∀ t', d.machine.monitors.set 0 t' = [t'] := fun t' => by
    rw [h.monitors, Scene.told, htask]; rfl
  cases hfollows with
  | spawned hleast =>
    cases htask
    cases hm
    exact ⟨.polling 0, { h with
      has := (hhas _).mpr (.polling (Nat.le_of_eq hleast) (Nat.zero_le _))
      monitors := hset _ }, by decide⟩
  | @polling n hleast hle =>
    cases htask
    simp only [Machine.monitorStep?] at hm
    split at hm
    next htold =>
      cases hm
      exact ⟨.joining n, { h with
        has := (hhas _).mpr (.joining hleast htold)
        monitors := hset _ }, by simp [Watcher.left]⟩
    next =>
      split at hm <;> cases hm
      next hready =>
        rw [hevents, Scene.sent, Watcher.receivers, receive?_sent, Option.isSome_map] at hready
        have hlt : n < k.sent.length := by simpa using hready
        exact ⟨.receiving n, { h with
          has := (hhas _).mpr (.receiving hleast hlt)
          monitors := hset _ }, by simp [Watcher.left]⟩
  | @receiving n hleast hlt =>
    cases htask
    have he : k.sent[n]? = some k.sent[n] := List.getElem?_eq_getElem hlt
    simp only [Machine.monitorStep?] at hm
    rw [hevents, Scene.sent, Watcher.receivers, receive?_sent, he] at hm
    cases hm
    exact ⟨.handling n k.sent[n], { h with
      has := (hhas _).mpr (.handling hleast he)
      monitors := hset _
      events := rfl }, by simp [Watcher.left]⟩
  | @handling n e hleast he =>
    cases htask
    cases hm
    obtain ⟨hlt, -⟩ := List.getElem?_eq_some_iff.mp he
    obtain ⟨changes, hpublish⟩ := d.machine.publish_eq (.ofReport e)
    rw [hpublish]
    refine ⟨.polling (n + 1), { h with
      has := (hhas _).mpr (.polling (Nat.le_succ_of_le hleast) hlt)
      state := (Course.status_succ hleast he).symm
      monitors := hset _ }, ?_⟩
    have hn : n < 2 := Nat.lt_of_lt_of_le hlt (length_sent_le_two k)
    simp only [Watcher.left]
    omega
  | @joining n hleast htold => cases htask; cases hm
  | @parting n hleast htold =>
    cases htask
    cases hm
    refine ⟨.done n, { h with
      has := (hhas _).mpr (.done hleast htold)
      monitors := hset _
      events := ?_ }, Nat.zero_lt_one⟩
    simp only [Machine.setMonitor, Machine.unsubscribe, hevents]
    rfl
  | @done n hleast htold => cases htask; cases hm

/-- A step of its connectivity task. -/
theorem Stands.connectivity (h : Stands setup settings a s w d)
    (hstep : d.step setup (.connectivity j) = some d') :
    ∃ w', Stands setup settings a s w' d' ∧ w'.left < w.left := by
  obtain ⟨m', hm, rfl⟩ := exists_of_withStep? hstep
  obtain ⟨t, ht, hm⟩ := Option.bind_eq_some_iff.mp hm
  obtain ⟨c, k, rfl, rfl, htask, hfollows, hhas⟩ := h.exists_of_monitor ht
  have hnetwork := h.network
  have hset : ∀ t', d.machine.monitors.set 0 t' = [t'] := fun t' => by
    rw [h.monitors, Scene.told, htask]; rfl
  cases hfollows with
  | @joining n hleast htold =>
    cases htask
    cases hm
    refine ⟨.parting n, { h with
      has := (hhas _).mpr (.parting hleast htold)
      monitors := hset _
      network := ?_ }, Nat.lt_succ_self 1⟩
    simp only [Machine.setMonitor, hnetwork]
    rfl
  | spawned | parting | done => cases htask; cases hm
  | polling | receiving | handling =>
    cases htask
    have hnone : d.machine.network.receive? 0 = none := hnetwork ▸ receive?_network
    simp only [Machine.connectivityStep?, hnone] at hm
    cases hm

end DryRun

end VpnTunnel
