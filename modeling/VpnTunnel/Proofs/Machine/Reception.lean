import VpnTunnel.Proofs.Machine.Chronicle
import VpnTunnel.Proofs.Machine.Custody
import VpnTunnel.Proofs.Signal.Places

/-!
# What is received was sent

The engine's events reach a receiver in their order, none twice, and none from before it was
subscribed. So what a receiver gets is in the chronicle, after its subscription.
-/

namespace VpnTunnel

namespace Broadcast

variable {α : Type} {b b' : Broadcast α} {r : Nat} {d : Delivery α}

/-- A receiver goes forward; an item is the one at the place where it was. -/
theorem exists_of_receive? (h : b.receive? r = some (d, b')) :
    ∃ p p', b.receivers[r]? = some (some p) ∧ p ≤ p' ∧
      b' = { b with receivers := b.receivers.set r (some p') } ∧
      ∀ x, d = .item x → p' = p + 1 ∧ b.sent[p]? = some x := by
  obtain ⟨p, p', hp, hdelivery, heq, -⟩ := exists_delivery_of_receive? h
  obtain ⟨x, rfl, hx, rfl⟩ | ⟨n, rfl, hlt, -⟩ | ⟨rfl, -, -, rfl⟩ := deliveryAt?_cases hdelivery
  · exact ⟨p, p + 1, hp, Nat.le_succ p, heq, fun y hy => by cases hy; exact ⟨rfl, hx⟩⟩
  · exact ⟨p, p', hp, Nat.le_of_lt hlt, heq, nofun⟩
  · exact ⟨p', p', hp, Nat.le_refl p', heq, nofun⟩

/-- The receivers of the one are where they are in the other, and what is sent is sent. -/
structure Extends (b b' : Broadcast α) : Prop where
  receivers : ∀ {r p : Nat}, b.receivers[r]? = some (some p) → b'.receivers[r]? = some (some p)
  sent : ∀ {p : Nat} {x}, b.sent[p]? = some x → b'.sent[p]? = some x

theorem Extends.refl : b.Extends b := ⟨id, id⟩

theorem extends_close : b.Extends b.close := ⟨id, id⟩

theorem extends_send (x : α) : b.Extends (b.send x) := by
  unfold send
  split
  · exact .refl
  · exact ⟨id, fun h => getElem?_append_of_eq_some h⟩

end Broadcast

/-- The chronicle, or what is at its end, tells of the subscriptions to a channel in it, and of all
that has been sent since. -/
structure Tracked (g : List Happening) (b : Broadcast EngineReport) : Prop where
  known : ∀ {i r start}, .subscribed i r start ∈ g → r < b.receivers.length
  reached : ∀ {i r start p}, .subscribed i r start ∈ g → b.receivers[r]? = some (some p) → start ≤ p
  told : ∀ {i r start p e}, .subscribed i r start ∈ g → start ≤ p → b.sent[p]? = some e →
    [.subscribed i r start, .emitted p e].Sublist g

namespace Tracked

variable {g g' : List Happening} {b b' : Broadcast EngineReport} {i r : Nat} {e : EngineReport}

theorem nil (b : Broadcast EngineReport) : Tracked [] b := ⟨nofun, nofun, nofun⟩

/-- What is of another kind changes nothing. -/
theorem append (hb : Tracked g b) (hg' : ∀ i r start, .subscribed i r start ∉ g') :
    Tracked (g ++ g') b := by
  have hold : ∀ {i r start}, .subscribed i r start ∈ g ++ g' → .subscribed i r start ∈ g :=
    fun h => (List.mem_append.mp h).resolve_right (hg' _ _ _)
  exact ⟨fun h => hb.known (hold h), fun h => hb.reached (hold h),
    fun h hle he => (hb.told (hold h) hle he).trans (List.sublist_append_left g g')⟩

theorem subscribe (hb : Tracked g b) (i : Nat) :
    Tracked (g ++ [.subscribed i b.nextReceiver b.sent.length]) b.subscribe where
  known h := by
    simp only [Broadcast.subscribe, List.length_append, List.length_singleton]
    obtain h | h := List.mem_append.mp h
    · exact Nat.lt_succ_of_lt (hb.known h)
    · cases List.mem_singleton.mp h
      exact Nat.lt_succ_self _
  reached {_ r _ p} h hp := by
    simp only [Broadcast.subscribe, List.getElem?_append] at hp
    obtain h | h := List.mem_append.mp h
    · rw [if_pos (hb.known h)] at hp
      exact hb.reached h hp
    · cases List.mem_singleton.mp h
      simp only [Broadcast.nextReceiver, Nat.lt_irrefl, if_false, Nat.sub_self,
        List.getElem?_cons_zero, Option.some.injEq] at hp
      exact Nat.le_of_eq hp
  told h hle he := by
    obtain h | h := List.mem_append.mp h
    · exact (hb.told h hle he).trans (List.sublist_append_left g _)
    · cases List.mem_singleton.mp h
      exact absurd (List.getElem?_eq_some_iff.mp he).1 (Nat.not_lt_of_le hle)

/-- A report that is sent is told by the chronicle. -/
theorem send (hb : Tracked g b) (haudience : b.audience ≠ 0) :
    Tracked (g ++ [.emitted b.sent.length e]) (b.send e) := by
  have hsend : b.send e = { b with sent := b.sent ++ [e] } := if_neg haudience
  have hold : ∀ {i r start}, .subscribed i r start ∈ g ++ [.emitted b.sent.length e] →
      .subscribed i r start ∈ g := fun h => by simpa using h
  rw [hsend]
  refine ⟨fun h => hb.known (hold h), fun h => hb.reached (hold h), fun h hle he => ?_⟩
  rw [List.getElem?_append] at he
  split at he
  · exact (hb.told (hold h) hle he).trans (List.sublist_append_left g _)
  next hlast =>
    obtain ⟨hp, rfl⟩ := List.getElem?_eq_some_iff.mp he
    rw [List.length_singleton] at hp
    have hplace : _ = b.sent.length := Nat.le_antisymm (by omega) (Nat.le_of_not_lt hlast)
    rw [List.getElem_singleton, hplace]
    exact (List.singleton_sublist.mpr (hold h)).append (.refl _)

/-- A receiver may leave or go forward. -/
theorem set (hb : Tracked g b) {p' : Option Nat}
    (h : ∀ q, p' = some q → ∃ p, b.receivers[r]? = some (some p) ∧ p ≤ q) :
    Tracked g { b with receivers := b.receivers.set r p' } where
  known hs := by rw [List.length_set]; exact hb.known hs
  reached hs hp := by
    obtain ⟨rfl, rfl⟩ | ⟨-, hp⟩ := getElem?_set_eq_some hp
    · obtain ⟨q, hq, hle⟩ := h _ rfl
      exact Nat.le_trans (hb.reached hs hq) hle
    · exact hb.reached hs hp
  told := hb.told

theorem leave (hb : Tracked g b) (r : Nat) : Tracked g (b.leave r) := hb.set nofun

theorem receive {d : Delivery EngineReport} (hb : Tracked g b)
    (h : b.receive? r = some (d, b')) : Tracked g b' := by
  obtain ⟨p, p', hp, hle, rfl, -⟩ := Broadcast.exists_of_receive? h
  exact hb.set fun q hq => ⟨p, hp, Option.some.inj hq ▸ hle⟩

theorem close (hb : Tracked g b) : Tracked g b.close := ⟨hb.known, hb.reached, hb.told⟩

end Tracked

open Machine in
/-- Every step keeps track of the channel. -/
theorem Tracked.step {setup : Setup} {m m' : Machine} {g : List Happening} {l : Label}
    (hm : Tracked g m.events) (hstep : m.step setup l = some m') :
    Tracked (g ++ (m.happening? setup l).toList) m'.events := by
  cases move_of_step hstep with
  | caller hc hmove =>
    cases hmove with
    | connect hmove =>
      simp only [happening?_connect hc, setCaller]
      cases hmove with
      | listen => exact hm.subscribe _
      | announce | fail => rw [events_publish]; exact hm.append (by simp [connectHappening?])
      | leave events =>
        cases events with
        | none => exact hm.append fun _ _ _ => List.not_mem_nil
        | some r => exact (hm.leave r).append fun _ _ _ => List.not_mem_nil
      | _ => exact hm.append (by simp [connectHappening?])
    | disconnect hmove =>
      simp only [happening?_disconnect hc, setCaller]
      cases hmove with
      | announce => rw [events_publish]; exact hm.append (by simp [disconnectHappening?])
      | _ => exact hm.append (by simp [disconnectHappening?])
    | stop hmove =>
      simp only [happening?_stop hc, setCaller]
      cases hmove <;> exact hm.append (by simp [stopHappening?])
    | answer => exact hm.append (by simp [happening?])
  | monitor ht hmove =>
    simp only [happening?_monitor ht, monitorHappening?, setMonitor]
    refine Tracked.append ?_ fun i r start => ?_
    · cases hmove with
      | take e events hphase hd | skip missed events hphase hd | close events hphase hd =>
        exact hm.receive hd
      | handle => rw [events_publish]; exact hm
      | finish => exact hm.leave _
      | _ => exact hm
    · split <;> simp
  | connectivity ht hmove => cases hmove <;> exact hm.append fun _ _ _ => List.not_mem_nil
  | emit e =>
    simp only [happening?]
    split
    next hnone =>
      have hsame : m.events.send e = m.events := if_pos hnone
      rw [hsame]
      exact hm.append fun _ _ _ => List.not_mem_nil
    next hsome => exact hm.send hsome
  | closeEngine => exact hm.close.append fun _ _ _ => List.not_mem_nil
  | _ => exact hm.append fun _ _ _ => List.not_mem_nil

end VpnTunnel
