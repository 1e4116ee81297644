import VpnTunnel.Proofs.Session.Renewing

/-!
# When a session is renewed

A session is due from the renewal margin before its expiry on, and stays so. The margin is added to
the time in words of 64 bits, where the sum stops at the greatest word; no expiry is beyond that word,
so the comparison comes out as it does without a bound. Only a session that is due is renewed, and
the renewal calls at least once: what is handed back without a call has all of the margin left.
-/

namespace VpnTunnel

def Renewal.Asks (r : Renewal) : Prop := ∃ s, .call s ∈ r.steps

namespace Session

variable {renewer : Renewer} {s : Session} {call : Nat} {b : Backoff} {now later : UInt64}

/-- The time at which the margin ends, computed in words: a sum that wraps around is the end of
time. -/
def marginEnd (now : UInt64) : UInt64 :=
  if now + 300 < now then .ofNat endOfTime else now + 300

/-- The margin ends where the sum does, or at the end of time. -/
theorem toNat_marginEnd (now : UInt64) :
    (marginEnd now).toNat = min (now.toNat + renewalMargin) endOfTime := by
  have hnow := now.toNat_lt
  have hsum : (now + 300).toNat = (now.toNat + 300) % 2 ^ 64 := UInt64.toNat_add now 300
  have hend : (UInt64.ofNat endOfTime).toNat = 2 ^ 64 - 1 := by decide
  simp only [marginEnd, UInt64.lt_iff_toNat_lt, renewalMargin, endOfTime] at hend ⊢
  split
  · rw [hend]
    omega
  · omega

theorem hasExpiredAt_iff : s.hasExpiredAt now = true ↔ s.expiresAt.toNat ≤ now.toNat := by
  rw [hasExpiredAt, decide_eq_true_iff, UInt64.le_iff_toNat_le]

/-- In words the comparison says the same. -/
theorem isDueAt_iff_le_marginEnd : s.isDueAt now = true ↔ s.expiresAt ≤ marginEnd now := by
  rw [isDueAt, decide_eq_true_iff, UInt64.le_iff_toNat_le, toNat_marginEnd]

/-- No expiry lies beyond the end of time, so stopping there makes no difference. -/
theorem isDueAt_iff : s.isDueAt now = true ↔ s.expiresAt.toNat ≤ now.toNat + 300 := by
  have hexpiry := s.expiresAt.toNat_lt
  rw [isDueAt, decide_eq_true_iff, renewalMargin, endOfTime]
  omega

theorem isDueAt_of_hasExpiredAt (h : s.hasExpiredAt now = true) : s.isDueAt now = true := by
  rw [hasExpiredAt_iff] at h
  rw [isDueAt_iff]
  omega

theorem hasExpiredAt_of_le (hle : now ≤ later) (h : s.hasExpiredAt now = true) :
    s.hasExpiredAt later = true := by
  rw [UInt64.le_iff_toNat_le] at hle
  rw [hasExpiredAt_iff] at h ⊢
  omega

theorem isDueAt_of_le (hle : now ≤ later) (h : s.isDueAt now = true) : s.isDueAt later = true := by
  rw [UInt64.le_iff_toNat_le] at hle
  rw [isDueAt_iff] at h ⊢
  omega

/-- However it ends, a renewal begins with a call. -/
theorem asks_renewFrom : (renewFrom renewer s call b).Asks := by
  refine ⟨s, ?_⟩
  cases hsettles : settles (renewer call s) with
  | true =>
    rw [renewFrom_of_settles hsettles]
    exact List.mem_singleton_self _
  | false =>
    obtain ⟨reason, hx⟩ := exists_transient_of_settles hsettles
    rw [renewFrom, hx]
    by_cases hmore : b.advance.hasMore = true
    · simp only [dif_pos hmore]
      exact List.mem_cons_self
    · simp only [dif_neg hmore]
      exact List.mem_singleton_self _

theorem renewIfDue_of_le (h : s.expiresAt.toNat ≤ now.toNat + 300) :
    s.renewIfDue renewer b now = s.renew renewer b := by
  rw [renewIfDue, if_pos (isDueAt_iff.mpr h)]

theorem renewIfDue_of_lt (h : now.toNat + 300 < s.expiresAt.toNat) :
    s.renewIfDue renewer b now = ⟨[], .ok s⟩ := by
  rw [renewIfDue, if_neg]
  rw [isDueAt_iff]
  omega

/-- What is not due is neither renewed nor waited for; what is due is asked for. -/
theorem asks_renewIfDue_iff :
    (s.renewIfDue renewer b now).Asks ↔ s.expiresAt.toNat ≤ now.toNat + 300 := by
  rcases Nat.lt_or_ge (now.toNat + 300) s.expiresAt.toNat with hlt | hle
  · rw [renewIfDue_of_lt hlt]
    apply iff_of_false
    · rintro ⟨_, hmem⟩
      exact List.not_mem_nil hmem
    · omega
  · rw [renewIfDue_of_le hle]
    exact iff_of_true asks_renewFrom hle

/-- A session is due just when its expiry is at most the margin away, also near the end of time, in
words and without a bound. It is due when it has expired, and what is due or has expired stays so.
A session that is not due is handed back without a call; one that is due is renewed. So no session is
handed back without a call that is due. -/
theorem isDueAt_exact_and_renewIfDue (renewer : Renewer) (s : Session) (b : Backoff)
    (now : UInt64) :
    (s.isDueAt now = true ↔ s.expiresAt ≤ marginEnd now) ∧
    (s.isDueAt now = true ↔ now.toNat + 300 ≥ s.expiresAt.toNat) ∧
    (s.hasExpiredAt now = true → s.isDueAt now = true) ∧
    (∀ later, now ≤ later →
      (s.hasExpiredAt now = true → s.hasExpiredAt later = true) ∧
      (s.isDueAt now = true → s.isDueAt later = true)) ∧
    ((s.renewIfDue renewer b now).result = .ok s ∧ ¬(s.renewIfDue renewer b now).Asks ↔
      now.toNat + 300 < s.expiresAt.toNat) ∧
    (now.toNat + 300 ≥ s.expiresAt.toNat →
      s.renewIfDue renewer b now = s.renew renewer b) ∧
    ∀ t, (s.renewIfDue renewer b now).result = .ok t → ¬(s.renewIfDue renewer b now).Asks →
      t = s ∧ now.toNat + 300 < t.expiresAt.toNat := by
  have hleft (h : ¬(s.renewIfDue renewer b now).Asks) : now.toNat + 300 < s.expiresAt.toNat := by
    rw [asks_renewIfDue_iff] at h
    omega
  refine ⟨isDueAt_iff_le_marginEnd, isDueAt_iff, isDueAt_of_hasExpiredAt,
    fun later hle => ⟨hasExpiredAt_of_le hle, isDueAt_of_le hle⟩, ?_, renewIfDue_of_le, ?_⟩
  · constructor
    · exact fun h => hleft h.2
    · intro hlt
      refine ⟨by rw [renewIfDue_of_lt hlt], ?_⟩
      rw [asks_renewIfDue_iff]
      omega
  · intro t hresult hasks
    have hlt := hleft hasks
    rw [renewIfDue_of_lt hlt] at hresult
    obtain rfl := Except.ok.inj hresult
    exact ⟨rfl, hlt⟩

def expiringAt (expiresAt : UInt64) : Session := ⟨"s", "u", "a", "r", expiresAt, none⟩

/-- Two hundred seconds before the end of time the sum in words wraps around, and a session that
lasts to the end of time is due, is so at the end, where it has expired, and is renewed. A session
with a second more than the margin is handed back without a call. -/
theorem renewIfDue_near_end_of_time :
    let refusing : Renewer := fun _ _ => .error .tokenRejected
    let late := expiringAt 0xFFFFFFFFFFFFFFFF
    let early := expiringAt 301
    (late.expiresAt.toNat ≤ (0xFFFFFFFFFFFFFF37 : UInt64).toNat + 300 ∧
      late.renewIfDue refusing .default 0xFFFFFFFFFFFFFF37 = late.renew refusing .default) ∧
    ((0xFFFFFFFFFFFFFF37 : UInt64) ≤ 0xFFFFFFFFFFFFFFFF ∧
      late.isDueAt 0xFFFFFFFFFFFFFF37 = true ∧ late.isDueAt 0xFFFFFFFFFFFFFFFF = true) ∧
    (late.hasExpiredAt 0xFFFFFFFFFFFFFFFF = true ∧ late.isDueAt 0xFFFFFFFFFFFFFFFF = true) ∧
    ((early.renewIfDue refusing .default 0).result = .ok early ∧
      ¬(early.renewIfDue refusing .default 0).Asks ∧
      (0 : UInt64).toNat + 300 < early.expiresAt.toNat) := by
  intro refusing late early
  have hnear := isDueAt_exact_and_renewIfDue refusing late .default 0xFFFFFFFFFFFFFF37
  have hend := isDueAt_exact_and_renewIfDue refusing late .default 0xFFFFFFFFFFFFFFFF
  have hzero := isDueAt_exact_and_renewIfDue refusing early .default 0
  have hdue : late.isDueAt 0xFFFFFFFFFFFFFF37 = true := by decide
  have hexpired : late.hasExpiredAt 0xFFFFFFFFFFFFFFFF = true := by decide
  obtain ⟨-, -, -, hlater, -, hrenew, -⟩ := hnear
  obtain ⟨-, -, hsoon, -⟩ := hend
  obtain ⟨-, -, -, -, hkept, -, hleft⟩ := hzero
  have hearly := hkept.mpr (by decide)
  refine ⟨⟨by decide, hrenew (by decide)⟩, ⟨by decide, hdue, (hlater _ (by decide)).2 hdue⟩,
    ⟨hexpired, hsoon hexpired⟩, hearly.1, hearly.2, (hleft early hearly.1 hearly.2).2⟩

end Session

end VpnTunnel
