import VpnTunnel.Proofs.Signal.Listeners

/-!
# What a receiver has before it

A receiver takes the items before it in their order. One that has fallen behind loses the oldest of
them, but never the last: a channel keeps one item at least.
-/

namespace VpnTunnel

namespace Broadcast

variable {α : Type} {b b' : Broadcast α} {r s : Nat} {x : α} {d : Delivery α}

/-- The items that the receiver has before it, with those that are no longer kept. -/
def ahead (b : Broadcast α) (r : Nat) : List α :=
  match b.receivers[r]? with
  | some (some position) => b.sent.drop position
  | _ => []

structure Sound (b : Broadcast α) : Prop where
  capacity : 0 < b.capacity
  behind : ∀ {r position : Nat}, b.receivers[r]? = some (some position) → position ≤ b.sent.length

theorem ahead_of_getElem? {position : Nat} (h : b.receivers[r]? = some (some position)) :
    b.ahead r = b.sent.drop position := by
  rw [ahead, h]

theorem sound_ofCapacity (n : Nat) : (ofCapacity n : Broadcast α).Sound where
  capacity := Nat.pos_of_isPowerOfTwo (Nat.isPowerOfTwo_nextPowerOfTwo n)
  behind h := by simp [ofCapacity] at h

theorem getElem?_receivers_subscribe (h : b.Listens r) :
    b.subscribe.receivers[r]? = b.receivers[r]? := by
  obtain ⟨position, hr⟩ := h
  exact List.getElem?_append_left (List.getElem?_eq_some_iff.mp hr).1

theorem send_eq_self (h : b.audience = 0) : b.send x = b := if_pos h

theorem send_eq_append (h : b.audience ≠ 0) : b.send x = { b with sent := b.sent ++ [x] } :=
  if_neg h

theorem audience_ne_zero (hopen : b.closed = false) (hr : b.Listens r) : b.audience ≠ 0 := by
  rw [audience, hopen]
  exact fun hnone => listenerCount_eq_zero_iff.mp hnone r hr

theorem audience_eq_zero (hclosed : b.closed = true) : b.audience = 0 := by
  rw [audience, if_pos hclosed]

theorem closed_send : (b.send x).closed = b.closed := by
  unfold send
  split <;> rfl

theorem ahead_subscribe (h : b.Listens r) : b.subscribe.ahead r = b.ahead r := by
  rw [ahead, ahead, getElem?_receivers_subscribe h]
  rfl

/-- What is sent comes behind all that a receiver has before it. -/
theorem ahead_send (hb : b.Sound) (hr : b.Listens r) (haudience : b.audience ≠ 0) :
    (b.send x).ahead r = b.ahead r ++ [x] := by
  obtain ⟨position, hr⟩ := hr
  have hsent : (b.send x).ahead r = (b.sent ++ [x]).drop position := by
    rw [send_eq_append haudience]
    exact ahead_of_getElem? hr
  rw [hsent, ahead_of_getElem? hr]
  exact List.drop_append_of_le_length (hb.behind hr)

/-- A receiver goes one place forward for an item, and up to the first item that is kept where it
has lost some. -/
theorem deliveryAt?_cases {p p' : Nat} (h : b.deliveryAt? p = some (d, p')) :
    (∃ x, d = .item x ∧ b.sent[p]? = some x ∧ p' = p + 1) ∨
      (∃ n, d = .lagged n ∧ p < p' ∧ p' = b.dropped) ∨
      d = .closed ∧ b.closed = true ∧ b.sent.length ≤ p ∧ p' = p := by
  unfold deliveryAt? at h
  split at h
  next hbehind =>
    cases h
    exact .inr (.inl ⟨_, rfl, hbehind, rfl⟩)
  next =>
    split at h
    next x hx =>
      cases h
      exact .inl ⟨x, rfl, hx, rfl⟩
    next hnone =>
      split at h <;> cases h
      next hclosed =>
        exact .inr (.inr ⟨rfl, hclosed, List.getElem?_eq_none_iff.mp hnone, rfl⟩)

/-- As long as no item is lost, a receiver gets the item at its place. -/
theorem deliveryAt?_of_length_le {p : Nat} (hopen : b.closed = false)
    (h : b.sent.length ≤ b.capacity) :
    b.deliveryAt? p = b.sent[p]?.map fun x => (.item x, p + 1) := by
  have hkept : ¬ p < b.dropped := by simp [dropped, h]
  rw [deliveryAt?, if_neg hkept, hopen]
  cases b.sent[p]? <;> rfl

/-- The last item is kept. -/
theorem dropped_lt_length (hb : b.Sound) {p : Nat} (h : p < b.dropped) :
    b.dropped < b.sent.length := by
  have hpos := hb.capacity
  unfold dropped at h ⊢
  omega

theorem sent_of_receive? (h : b.receive? r = some (d, b')) : b'.sent = b.sent := by
  obtain ⟨p, p', -, -, rfl, -⟩ := exists_delivery_of_receive? h
  rfl

theorem closed_of_receive? (h : b.receive? r = some (d, b')) : b'.closed = b.closed := by
  obtain ⟨p, p', -, -, rfl, -⟩ := exists_delivery_of_receive? h
  rfl

/-- A receiver gets the first item before it; or it is told that it has lost the first ones, and
the last of them is not lost; or nothing is left and the channel is closed. -/
theorem ahead_of_receive? (hb : b.Sound) (h : b.receive? r = some (d, b')) :
    (∃ x, d = .item x ∧ b.ahead r = x :: b'.ahead r) ∨
      (∃ n lost, d = .lagged n ∧ lost ≠ [] ∧ b'.ahead r ≠ [] ∧ b.ahead r = lost ++ b'.ahead r) ∨
      d = .closed ∧ b.closed = true ∧ b.ahead r = [] ∧ b'.ahead r = [] := by
  have hsent := sent_of_receive? h
  obtain ⟨p, p', hp, hdelivery, -, hp'⟩ := exists_delivery_of_receive? h
  rw [ahead_of_getElem? hp, ahead_of_getElem? hp', hsent]
  obtain ⟨x, rfl, hx, rfl⟩ | ⟨n, rfl, hlt, rfl⟩ | ⟨rfl, hclosed, hle, rfl⟩ :=
    deliveryAt?_cases hdelivery
  · obtain ⟨hlt, rfl⟩ := List.getElem?_eq_some_iff.mp hx
    exact .inl ⟨_, rfl, List.drop_eq_getElem_cons hlt⟩
  · have hlast := dropped_lt_length hb hlt
    have hlost : ((b.sent.drop p).take (b.dropped - p)).length = b.dropped - p := by
      rw [List.length_take, List.length_drop]
      omega
    have hrest : (b.sent.drop p).drop (b.dropped - p) = b.sent.drop b.dropped := by
      rw [List.drop_drop, Nat.add_sub_cancel' (Nat.le_of_lt hlt)]
    refine .inr (.inl ⟨n, (b.sent.drop p).take (b.dropped - p), rfl, ?_, ?_, ?_⟩)
    · apply List.ne_nil_of_length_pos
      omega
    · apply List.ne_nil_of_length_pos
      rw [List.length_drop]
      omega
    · rw [← hrest, List.take_append_drop]
  · have hnone := List.drop_eq_nil_of_le hle
    exact .inr (.inr ⟨rfl, hclosed, hnone, hnone⟩)

/-- Whoever has something before it has less before it when it gets what is next. -/
theorem length_ahead_lt (hb : b.Sound) (hahead : b.ahead r ≠ [])
    (h : b.receive? r = some (d, b')) :
    d ≠ .closed ∧ (b'.ahead r).length < (b.ahead r).length := by
  obtain ⟨x, rfl, hrest⟩ | ⟨n, lost, rfl, hlost, -, hrest⟩ | ⟨-, -, hnone, -⟩ :=
    ahead_of_receive? hb h
  · rw [hrest]
    exact ⟨nofun, Nat.lt_succ_self _⟩
  · have hpos := List.length_pos_iff.mpr hlost
    rw [hrest, List.length_append]
    exact ⟨nofun, by omega⟩
  · exact absurd hnone hahead

/-- Whoever has something before it gets something. -/
theorem isSome_receive? (h : b.ahead r ≠ []) : (b.receive? r).isSome := by
  unfold ahead at h
  unfold receive?
  split
  next p hp =>
    rw [hp] at h
    have hlt : p < b.sent.length :=
      Nat.lt_of_not_le fun hle => h (List.drop_eq_nil_of_le hle)
    unfold deliveryAt?
    split
    · rfl
    · rw [List.getElem?_eq_getElem hlt]
      rfl
  next hnone =>
    split at h
    next p hp => exact absurd hp (hnone p)
    next => exact absurd rfl h

namespace Sound

theorem subscribe (hb : b.Sound) : b.subscribe.Sound where
  capacity := hb.capacity
  behind {r position} h := by
    by_cases hr : r < b.receivers.length
    · exact hb.behind ((List.getElem?_append_left hr).symm.trans h)
    · rw [Broadcast.subscribe, List.getElem?_append_right (Nat.le_of_not_lt hr)] at h
      have hnew : some position = some b.sent.length :=
        List.mem_singleton.mp (List.mem_of_getElem? h)
      exact Nat.le_of_eq (Option.some.inj hnew)

theorem leave (hb : b.Sound) (s : Nat) : (b.leave s).Sound where
  capacity := hb.capacity
  behind {r position} h := by
    by_cases hrs : s = r
    · subst hrs
      have hgone : ∀ p, (b.leave s).receivers[s]? ≠ some (some p) := fun p hp =>
        (listens_leave.mp ⟨p, hp⟩).2 rfl
      exact absurd h (hgone position)
    · exact hb.behind ((List.getElem?_set_ne hrs).symm.trans h)

theorem send (hb : b.Sound) (x : α) : (b.send x).Sound := by
  by_cases h : b.audience = 0
  · rw [send_eq_self h]
    exact hb
  · rw [send_eq_append h]
    refine ⟨hb.capacity, fun {r position} hr => ?_⟩
    have hle := hb.behind (r := r) hr
    rw [List.length_append]
    omega

theorem close (hb : b.Sound) : b.close.Sound := ⟨hb.capacity, hb.behind⟩

/-- A receiver does not get beyond what has been sent. -/
theorem receive (hb : b.Sound) (h : b.receive? s = some (d, b')) : b'.Sound := by
  have hsent := sent_of_receive? h
  obtain ⟨p, p', hp, hdelivery, rfl, hp'⟩ := exists_delivery_of_receive? h
  have hle := hb.behind hp
  refine ⟨hb.capacity, fun {r position} hr => ?_⟩
  rw [hsent]
  by_cases hrs : s = r
  · subst hrs
    cases hr.symm.trans hp'
    obtain ⟨x, -, hx, rfl⟩ | ⟨n, -, hlt, rfl⟩ | ⟨-, -, -, rfl⟩ := deliveryAt?_cases hdelivery
    · exact (List.getElem?_eq_some_iff.mp hx).1
    · exact Nat.le_of_lt (dropped_lt_length hb hlt)
    · exact hle
  · exact hb.behind ((List.getElem?_set_ne hrs).symm.trans hr)

end Sound

end Broadcast

end VpnTunnel
