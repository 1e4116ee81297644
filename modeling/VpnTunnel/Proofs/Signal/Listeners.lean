import VpnTunnel.Signal.Broadcast

/-!
# Who listens to a channel

A receiver listens from when it is added until it leaves. Nothing else that happens to a channel
changes who listens to it.
-/

namespace VpnTunnel

namespace Broadcast

variable {α : Type} {b b' : Broadcast α} {r s : Nat}

def Listens (b : Broadcast α) (r : Nat) : Prop := ∃ position, b.receivers[r]? = some (some position)

theorem listenerCount_eq_zero_iff : b.listenerCount = 0 ↔ ∀ r, ¬ b.Listens r := by
  simp only [listenerCount, List.countP_eq_zero, Listens, not_exists]
  constructor
  · intro h r position hr
    exact h _ (List.mem_of_getElem? hr) rfl
  · rintro h (_ | position) hmem
    · simp
    · obtain ⟨r, hr⟩ := List.mem_iff_getElem?.mp hmem
      exact absurd hr (h r position)

@[simp] theorem not_listens_ofCapacity {n : Nat} : ¬ (ofCapacity n : Broadcast α).Listens r := by
  simp [Listens, ofCapacity]

@[simp] theorem listens_close : b.close.Listens r ↔ b.Listens r := Iff.rfl

@[simp] theorem listens_send {x : α} : (b.send x).Listens r ↔ b.Listens r := by
  unfold send
  split <;> rfl

theorem listens_subscribe : b.subscribe.Listens r ↔ b.Listens r ∨ r = b.nextReceiver := by
  simp only [Listens, subscribe, nextReceiver]
  rcases Nat.lt_trichotomy r b.receivers.length with hr | rfl | hr
  · simp [List.getElem?_append_left hr, Nat.ne_of_lt hr]
  · simp
  · have hnone : b.receivers[r]? = none := List.getElem?_eq_none (Nat.le_of_lt hr)
    have hrest : r - b.receivers.length ≠ 0 := Nat.sub_ne_zero_of_lt hr
    simp [List.getElem?_append_right (Nat.le_of_lt hr), hnone, hrest, Nat.ne_of_gt hr]

/-- Only the receiver that leaves stops listening. -/
theorem listens_leave : (b.leave s).Listens r ↔ b.Listens r ∧ r ≠ s := by
  by_cases hrs : r = s
  · subst hrs
    simp [Listens, leave, List.getElem?_set_self']
  · simp [Listens, leave, List.getElem?_set_ne (Ne.symm hrs), hrs]

/-- A receiver that gets something is where it was, or goes forward. -/
theorem exists_delivery_of_receive? {d : Delivery α} (h : b.receive? r = some (d, b')) :
    ∃ p p', b.receivers[r]? = some (some p) ∧ b.deliveryAt? p = some (d, p') ∧
      b' = { b with receivers := b.receivers.set r (some p') } ∧
      b'.receivers[r]? = some (some p') := by
  unfold receive? at h
  split at h
  next p hp =>
    obtain ⟨⟨d', p'⟩, hdelivery, heq⟩ := Option.map_eq_some_iff.mp h
    cases heq
    exact ⟨p, p', hp, hdelivery, rfl,
      List.getElem?_set_self (List.getElem?_eq_some_iff.mp hp).1⟩
  next => cases h

theorem listens_of_receive? {d : Delivery α} (h : b.receive? s = some (d, b')) :
    b'.Listens r ↔ b.Listens r := by
  obtain ⟨p, p', hp, -, rfl, hp'⟩ := exists_delivery_of_receive? h
  by_cases hsr : s = r
  · subst hsr
    exact iff_of_true ⟨p', hp'⟩ ⟨p, hp⟩
  · simp [Listens, List.getElem?_set_ne hsr]

end Broadcast

end VpnTunnel
