import VpnTunnel.Proofs.Machine.Chronicle
import VpnTunnel.Proofs.Machine.Custody

/-!
# Turns

Calls that need the lock get it in the order in which they were made: the queue holds, in ascending
order, those that have not returned, and who comes after one of them has not returned either. Only
the first of them can take a step, and all behind it wait.
-/

namespace VpnTunnel

namespace Caller

def HasReturned (c : Caller) : Prop := c.result?.isSome = true

def TakesLock : Caller → Prop
  | disconnect _ => False
  | _ => True

def request? : Caller → Option Request
  | connect a _ => some (.connect a)
  | stop _ => some .stop
  | disconnect _ => none

def InLine : Caller → Prop
  | connect _ (.finished _) => False
  | connect _ _ => True
  | stop .finished => False
  | stop _ => True
  | disconnect _ => False

def Waits : Caller → Prop
  | connect _ .waiting => True
  | stop .waiting => True
  | _ => False

variable {c c' : Caller}

theorem inLine_iff : c.InLine ↔ c.TakesLock ∧ ¬ c.HasReturned := by
  cases c with
  | connect a p => cases p <;> simp [InLine, TakesLock, HasReturned, result?]
  | disconnect p => simp [InLine, TakesLock]
  | stop p => cases p <;> simp [InLine, TakesLock, HasReturned, result?]

theorem takesLock_iff : c.TakesLock ↔ c.request? ≠ none := by
  cases c <;> simp [TakesLock, request?]

theorem inLine_ofRequest (r : Request) : (ofRequest r).InLine ↔ (ofRequest r).TakesLock := by
  cases r <;> simp [ofRequest, InLine, TakesLock]

theorem waits_of_inLine (h : c.InLine) (hlock : c.holding.lock = false) : c.Waits := by
  cases c with
  | connect a p =>
    cases p with
    | waiting => trivial
    | finished => cases h
    | leaving events result => cases result <;> cases hlock
    | _ => cases hlock
  | disconnect p => cases h
  | stop p =>
    cases p with
    | waiting => trivial
    | finished => cases h
    | _ => cases hlock

theorem exists_eq_finished {a : Attempt} (hrequest : c.request? = some (.connect a))
    (h : c.HasReturned) : ∃ r, c = connect a (.finished r) := by
  cases c with
  | connect b p =>
    cases hrequest
    cases p <;> first | exact ⟨_, rfl⟩ | cases h
  | disconnect | stop => cases hrequest

end Caller

namespace Machine

variable {setup : Setup} {m m₁ m' : Machine} {i j k : Nat} {a : Attempt} {c c' : Caller}
  {l : Label} {ls : List Label}

namespace CallerMove

theorem request?_eq (h : CallerMove setup m i l c c' m₁) : c'.request? = c.request? := by
  cases h with
  | answer h => cases h <;> rfl
  | _ => rfl

/-- Who has returned takes no step. -/
theorem not_hasReturned (h : CallerMove setup m i l c c' m₁) : ¬ c.HasReturned := by
  intro hreturned
  cases h with
  | connect h | disconnect h | stop h | answer h => cases h <;> cases hreturned

theorem takesLock_iff (h : CallerMove setup m i l c c' m₁) : c'.TakesLock ↔ c.TakesLock := by
  rw [Caller.takesLock_iff, Caller.takesLock_iff, h.request?_eq]

/-- A call that needs the lock steps when it is its own. -/
theorem head_eq (hm : m.Custody) (hc : m.callers[i]? = some c)
    (h : CallerMove setup m i l c c' m₁) (hkind : c.TakesLock) : m.queue.head? = some i := by
  have hfirst : c.holding.lock = true → m.queue.head? = some i := hm.first hc
  cases h with
  | connect h =>
    cases h with
    | supersede j hlock | enter hlock => exact hlock
    | leave events result => cases result <;> exact hfirst rfl
    | _ => exact hfirst rfl
  | disconnect => cases hkind
  | stop h =>
    cases h with
    | supersede j hlock | enter hlock => exact hlock
    | _ => exact hfirst rfl
  | answer h =>
    cases h with
    | lowered => cases hkind
    | _ => exact hfirst rfl

/-- A call is in line before and after, or it gives up the lock and is no longer. -/
theorem queue_eq_or (h : CallerMove setup m i l c c' m₁) :
    m₁.queue = m.queue ∧ (c'.InLine ↔ c.InLine) ∨
      m₁.queue = m.queue.tail ∧ c.TakesLock ∧ ¬ c'.InLine := by
  cases h with
  | connect h =>
    cases h with
    | leave => exact .inr ⟨by simp [unlock], trivial, id⟩
    | announce | fail => exact .inl ⟨queue_publish .., .rfl⟩
    | _ => exact .inl ⟨rfl, .rfl⟩
  | disconnect h => exact .inl ⟨h.alike.queue, .rfl⟩
  | stop h =>
    cases h with
    | leave => exact .inr ⟨rfl, trivial, id⟩
    | _ => exact .inl ⟨rfl, .rfl⟩
  | answer h => cases h <;> exact .inl ⟨rfl, .rfl⟩

end CallerMove

/-- The queue holds the calls in line, first come first served. -/
structure Orderly (m : Machine) : Prop where
  ascending : m.queue.Pairwise (· < ·)
  mem_iff : ∀ {k}, k ∈ m.queue ↔ ∃ c, m.callers[k]? = some c ∧ c.InLine
  /-- Who came after a call in line has not returned. -/
  behind : ∀ {i k c}, i ∈ m.queue → i < k → m.callers[k]? = some c → c.TakesLock → c.InLine

theorem orderly_idle (settings : Settings) (capacity : Nat) : (idle settings capacity).Orderly where
  ascending := .nil
  mem_iff := by simp [idle]
  behind h := by simp [idle] at h

namespace Orderly

/-- The lock goes to the earliest call in line. -/
theorem head_le (hm : m.Orderly) (hhead : m.queue.head? = some i) (hk : k ∈ m.queue) : i ≤ k := by
  obtain ⟨q, hq⟩ := List.head?_eq_some_iff.mp hhead
  have hasc := hm.ascending
  rw [hq] at hk hasc
  obtain rfl | hk := List.mem_cons.mp hk
  · exact Nat.le_refl _
  · exact Nat.le_of_lt ((List.pairwise_cons.mp hasc).1 k hk)

/-- A call may go on in line, or out of it. -/
theorem keep (hm : m.Orderly) (hc : m.callers[i]? = some c) (hq : m₁.queue = m.queue)
    (hcs : m₁.callers = m.callers) (hline : c'.InLine ↔ c.InLine)
    (hkind : c'.TakesLock ↔ c.TakesLock) : (m₁.setCaller i c').Orderly where
  ascending := by rw [setCaller, hq]; exact hm.ascending
  mem_iff := by
    intro k
    rw [setCaller, hq, hm.mem_iff, hcs]
    by_cases hki : k = i
    · subst hki
      obtain ⟨hk, hck⟩ := List.getElem?_eq_some_iff.mp hc
      simp [hck, hline, hk]
    · rw [List.getElem?_set_ne (Ne.symm hki)]
  behind := by
    intro i' k d hi' hlt hd hdkind
    rw [setCaller, hq] at hi'
    rw [setCaller, hcs] at hd
    obtain ⟨rfl, rfl⟩ | ⟨-, hd⟩ := getElem?_set_eq_some hd
    · exact hline.mpr (hm.behind hi' hlt hc (hkind.mp hdkind))
    · exact hm.behind hi' hlt hd hdkind

/-- The first call in line returns and makes room for the next. -/
theorem leave (hm : m.Orderly) (hhead : m.queue.head? = some i) (hq : m₁.queue = m.queue.tail)
    (hcs : m₁.callers = m.callers) (hout : ¬ c'.InLine) : (m₁.setCaller i c').Orderly := by
  obtain ⟨q, hqueue⟩ := List.head?_eq_some_iff.mp hhead
  have hasc := hm.ascending
  rw [hqueue] at hq hasc
  obtain ⟨hlt, hasc⟩ := List.pairwise_cons.mp hasc
  refine ⟨hq ▸ hasc, @fun k => ?_, @fun i' k d hi' hik hd hkind => ?_⟩
  · rw [setCaller, hq, hcs]
    by_cases hki : k = i
    · subst hki
      constructor
      · intro hk
        exact absurd (hlt k hk) (Nat.lt_irrefl k)
      · rintro ⟨d, hd, hline⟩
        rw [eq_of_getElem?_set_self hd] at hline
        exact absurd hline hout
    · rw [List.getElem?_set_ne (Ne.symm hki), ← hm.mem_iff, hqueue]
      simp [hki]
  · rw [setCaller, hq] at hi'
    rw [setCaller, hcs] at hd
    have hi'q : i' ∈ m.queue := by rw [hqueue]; exact .tail i hi'
    obtain ⟨rfl, -⟩ | ⟨-, hd⟩ := getElem?_set_eq_some hd
    · exact absurd hik (Nat.not_lt_of_lt (hlt i' hi'))
    · exact hm.behind hi'q hik hd hkind

theorem enlist (hm : m.Orderly) (r : Request) : (m.enlist r).Orderly := by
  have hlt : ∀ {k}, k ∈ m.queue → k < m.callers.length := fun hk =>
    let ⟨_, hc, _⟩ := hm.mem_iff.mp hk
    (List.getElem?_eq_some_iff.mp hc).1
  have hmem : ∀ {k}, (∃ c, (m.callers ++ [Caller.ofRequest r])[k]? = some c ∧ c.InLine) ↔
      k ∈ m.queue ∨ k = m.callers.length ∧ (Caller.ofRequest r).TakesLock := by
    intro k
    rw [hm.mem_iff, List.getElem?_append]
    split
    next hk => simp [Nat.ne_of_lt hk]
    next hk =>
      rw [List.getElem?_eq_none (Nat.le_of_not_lt hk), List.getElem?_singleton,
        ← Caller.inLine_ofRequest]
      have hrest : k - m.callers.length = 0 ↔ k = m.callers.length := by omega
      simp [hrest, and_assoc]
  refine ⟨?_, @fun k => ?_, @fun i k c hi hik hc hkind => ?_⟩
  · cases r with
    | disconnect => exact hm.ascending
    | connect | stop =>
      exact List.pairwise_append.mpr ⟨hm.ascending, List.pairwise_singleton _ _,
        fun i hi k hk => List.mem_singleton.mp hk ▸ hlt hi⟩
  · refine Iff.trans ?_ hmem.symm
    cases r <;> simp [Machine.enlist, Caller.ofRequest, Caller.TakesLock]
  · rw [callers_enlist, List.getElem?_append] at hc
    split at hc
    next hk =>
      refine hm.behind (i := i) ?_ hik hc hkind
      cases r with
      | disconnect => exact hi
      | connect | stop =>
        obtain hi | hi := List.mem_append.mp hi
        · exact hi
        · rw [List.mem_singleton.mp hi] at hik
          exact absurd hk (Nat.not_lt_of_lt hik)
    next =>
      cases List.mem_singleton.mp (List.mem_of_getElem? hc)
      exact (Caller.inLine_ofRequest r).mpr hkind

theorem of_alike (hm : m.Orderly) (hq : m'.queue = m.queue) (hcs : m'.callers = m.callers) :
    m'.Orderly where
  ascending := hq ▸ hm.ascending
  mem_iff := by rw [hq, hcs]; exact hm.mem_iff
  behind hi hlt hc := by rw [hq] at hi; rw [hcs] at hc; exact hm.behind hi hlt hc

/-- Every step keeps the queue in order. -/
theorem step (hm : m.Orderly) (hcust : m.Custody) (h : m.step setup l = some m') : m'.Orderly := by
  cases callMove_of_step h with
  | call r => exact hm.enlist r
  | go hc hmove =>
    obtain ⟨hq, hline⟩ | ⟨hq, hkind, hout⟩ := hmove.queue_eq_or
    · exact hm.keep hc hq hmove.callers_eq hline hmove.takesLock_iff
    · exact hm.leave (hmove.head_eq hcust hc hkind) hq hmove.callers_eq hout
  | apart hl hcallers hqueue => exact hm.of_alike hqueue hcallers

/-- Behind a call inside the lock every call waits that needs it. -/
theorem waits_behind (hm : m.Orderly) (hcust : m.Custody) (hhead : m.queue.head? = some i)
    (hik : i < k) (hc : m.callers[k]? = some c) (hkind : c.TakesLock) : c.Waits := by
  refine Caller.waits_of_inLine (hm.behind (List.mem_of_head? hhead) hik hc hkind) ?_
  refine Bool.eq_false_iff.mpr fun hlock => Nat.ne_of_gt hik ?_
  exact Option.some.inj ((hcust.first hc hlock).symm.trans hhead)

end Orderly

end Machine

end VpnTunnel
