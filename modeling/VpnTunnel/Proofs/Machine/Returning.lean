import VpnTunnel.Proofs.Machine.Ledger

/-!
# Calls return

The first call in line can always go on until it returns, by steps of its own, by those of the
monitor that it waits for, and by answers of the engine, whatever these are. Then the next is first.
-/

namespace VpnTunnel

def Label.answers? (i : Nat) : Label → Option (Except EngineFailure Unit)
  | .answer k x => if k = i then some x else none
  | _ => none

/-- The step is one of caller `i`, of the engine, or of a monitor. -/
def Label.Serves (i : Nat) (l : Label) : Prop :=
  l = .caller i ∨ (∃ x, l = .answer i x) ∨ ∃ j, l.OfMonitor j

/-- A bound on the steps of a call until it returns, those of others left out. -/
def ConnectPhase.stepsLeft : ConnectPhase → Nat
  | .finished _ => 0
  | .leaving _ _ => 1
  | .spawning _ _ | .clearing _ _ => 2
  | .observing _ | .failing _ _ => 3
  | .raised _ _ mayRetry => if mayRetry then 6 else 4
  | .raising _ _ mayRetry => if mayRetry then 7 else 5
  | .listening _ => 8
  | .building => 9
  | .recording => 10
  | .announcing => 11
  | .joining _ => 12
  | .waiting => 13

def StopPhase.stepsLeft : StopPhase → Nat
  | .finished => 0
  | .leaving => 1
  | .joining _ => 2
  | .waiting => 3

def Caller.stepsLeft : Caller → Nat
  | connect _ p => p.stepsLeft
  | disconnect _ => 0
  | stop p => p.stepsLeft

namespace Machine

variable {setup : Setup} {m m₁ m' : Machine} {i j k : Nat} {a : Attempt} {c c' : Caller}
  {h : List Happening} {l : Label} {ls : List Label}

theorem not_call_of_serves (hl : l.Serves i) (r : Request) : l ≠ .call r := by
  rintro rfl
  obtain h | ⟨x, h⟩ | ⟨j, h | h⟩ := hl <;> cases h

theorem not_configure_of_serves (hl : l.Serves i) (s : Settings) : l ≠ .configure s := by
  rintro rfl
  obtain h | ⟨x, h⟩ | ⟨j, h | h⟩ := hl <;> cases h

/-- What a caller hears in a step is the engine's answer to it. -/
theorem heard_of_step :
    (Account.of (deeds i (m.happening? setup l).toList)).heard = (l.answers? i).toList := by
  simp only [Account.of]
  cases hx : m.happening? setup l with
  | none =>
    cases l with
    | answer => cases hx
    | _ => rfl
  | some x =>
    cases happens_of_happening? hx with
    | answered k x =>
      by_cases hk : k = i <;>
        simp [deeds, Happening.caller?, Happening.answers?, Label.answers?, hk]
    | _ =>
      refine List.filterMap_eq_nil_iff.mpr fun y hy => ?_
      rw [List.mem_singleton.mp (List.mem_filter.mp hy).1]
      rfl

/-- What a caller hears in a run are the engine's answers to it. -/
theorem heard_of_run (hrun : m.run setup ls = some m') :
    (Account.of (deeds i (m.chronicle setup ls))).heard = ls.filterMap (Label.answers? i) := by
  induction ls generalizing m with
  | nil => rfl
  | cons l ls ih =>
    obtain ⟨m₁, hstep, hrest⟩ := Option.bind_eq_some_iff.mp hrun
    rw [chronicle_cons_of_step hstep, deeds_append, Account.of_append, heard_of_step, ih hrest,
      List.filterMap_cons]
    cases l.answers? i <;> rfl

theorem settings_of_step (hl : ∀ s, l ≠ .configure s) (hstep : m.step setup l = some m') :
    m'.settings = m.settings := by
  cases move_of_step hstep with
  | caller hc hmove =>
    cases hmove with
    | connect hmove =>
      cases hmove with
      | announce | fail => exact settings_publish ..
      | leave events => exact settings_unsubscribe ..
      | _ => rfl
    | disconnect hmove =>
      cases hmove with
      | announce => exact settings_publish ..
      | _ => rfl
    | stop hmove => cases hmove <;> rfl
    | answer => rfl
  | monitor ht hmove => exact hmove.aside.settings
  | connectivity ht hmove => exact hmove.aside.settings
  | configure s => exact absurd rfl (hl s)
  | _ => rfl

/-- A call reads the settings as they are when it builds the configuration. -/
theorem settings_of_reads? {s : Settings} {x : Happening} (hx : m.happening? setup l = some x)
    (hread : x.reads? = some s) : s = m.settings := by
  cases happens_of_happening? hx with
  | built hc => cases hread; rfl
  | _ => cases hread

/-- The settings that a call reads in a run are those at its start, or were set in it. -/
theorem read_of_run (hrun : m.run setup ls = some m') :
    ∀ s ∈ (Account.of (deeds i (m.chronicle setup ls))).read,
      s = m.settings ∨ .configure s ∈ ls := by
  refine (chronicle_induction (c := []) (P := fun c m' =>
    (m'.settings = m.settings ∨ .configure m'.settings ∈ ls) ∧
      ∀ s ∈ (Account.of (deeds i c)).read, s = m.settings ∨ .configure s ∈ ls)
    (fun {c m₁ l m₂} hl hm hstep => ?_) ⟨.inl rfl, List.forall_mem_nil _⟩ hrun).2
  obtain ⟨hsettings, hread⟩ := hm
  refine ⟨?_, fun s hs => ?_⟩
  · by_cases hconfigure : ∃ s, l = .configure s
    · obtain ⟨s, rfl⟩ := hconfigure
      cases hstep
      exact .inr hl
    · rw [settings_of_step (fun s hs => hconfigure ⟨s, hs⟩) hstep]
      exact hsettings
  · rw [deeds_append, Account.of_append] at hs
    obtain hs | hs := List.mem_append.mp hs
    · exact hread s hs
    · obtain ⟨x, hx, hread⟩ := List.mem_filterMap.mp hs
      have hx := Option.mem_toList.mp (List.mem_filter.mp hx).1
      exact settings_of_reads? hx hread ▸ hsettings

/-- A connecting call gets nearer to its return by every step of its own. -/
theorem ConnectMove.stepsLeft_lt {p p' : ConnectPhase} (hmove : ConnectMove setup m i a p p' m₁) :
    p'.stepsLeft < p.stepsLeft := by
  cases hmove with
  | raise config events mayRetry => cases mayRetry <;> simp [ConnectPhase.stepsLeft]
  | _ => simp [ConnectPhase.stepsLeft]

theorem StopMove.stepsLeft_lt {p p' : StopPhase} (hmove : StopMove m i p p' m₁) :
    p'.stepsLeft < p.stepsLeft := by
  cases hmove <;> simp [StopPhase.stepsLeft]

theorem AnswerMove.stepsLeft_lt {x : Except EngineFailure Unit} (hmove : AnswerMove x c c')
    (hc : c.TakesLock) : c'.stepsLeft < c.stepsLeft := by
  cases hmove with
  | raised u a config events mayRetry | fail e a config events mayRetry =>
    cases mayRetry <;> simp [Caller.stepsLeft, ConnectPhase.stepsLeft]
  | retry => simp [Caller.stepsLeft, ConnectPhase.stepsLeft]
  | lowered => cases hc

theorem Orderly.head?_eq (hm : m.Orderly) (hi : i ∈ m.queue) (hle : ∀ k ∈ m.queue, i ≤ k) :
    m.queue.head? = some i := by
  cases hq : m.queue with
  | nil => rw [hq] at hi; cases hi
  | cons k q =>
    have hk : k ∈ m.queue := by rw [hq]; exact .head q
    have hki := hm.head_le (i := k) (by rw [hq]; rfl) hi
    rw [List.head?_cons, Nat.le_antisymm hki (hle k hk)]

/-- The first call in line can take a step of its own, unless it waits for a monitor to end or for
the engine to answer. -/
theorem exists_callerStep? (setup : Setup) (hc : c.InLine) (hhead : m.queue.head? = some i)
    (hjoins : ∀ j, c.holding.joins = some j → m.hasEnded j) (hawaits : c.awaits? = none) :
    ∃ m', m.callerStep? setup i c = some m' := by
  have hlock : m.holdsLock i = true := by simp [holdsLock, hhead]
  cases c with
  | connect a p =>
    cases p with
    | waiting =>
      simp only [callerStep?, connectStep?, hlock, if_true]
      split <;> exact ⟨_, rfl⟩
    | joining j =>
      have hended : m.hasEnded j = true := hjoins j rfl
      simp only [callerStep?, connectStep?, hended, if_true]
      exact ⟨_, rfl⟩
    | building =>
      simp only [callerStep?, connectStep?]
      split <;> exact ⟨_, rfl⟩
    | raised => cases hawaits
    | finished => cases hc
    | _ => exact ⟨_, rfl⟩
  | disconnect p => cases hc
  | stop p =>
    cases p with
    | waiting =>
      simp only [callerStep?, stopStep?, hlock, if_true]
      split <;> exact ⟨_, rfl⟩
    | joining j =>
      have hended : m.hasEnded j = true := hjoins j rfl
      simp only [callerStep?, stopStep?, hended, if_true]
      exact ⟨_, rfl⟩
    | finished => cases hc
    | leaving => exact ⟨_, rfl⟩

/-- A step of a call in line brings it nearer to its end, and touches no other call. -/
theorem nearer_of_callerStep? (hc : m.callers[i]? = some c) (hline : c.InLine)
    (hstep : m.callerStep? setup i c = some m') :
    ∃ c', m'.callers = m.callers.set i c' ∧ c'.request? = c.request? ∧
      c'.stepsLeft < c.stepsLeft := by
  have hstep' : m.step setup (.caller i) = some m' := by rw [step, hc, Option.bind_some, hstep]
  cases move_of_step hstep' with
  | @caller _ k d c' m₁ hc' hmove =>
    obtain rfl : i = k := Option.some.inj hmove.caller?
    cases hc.symm.trans hc'
    refine ⟨c', congrArg (List.set · _ _) hmove.callers_eq, hmove.request?_eq, ?_⟩
    cases hmove with
    | connect hmove => exact hmove.stepsLeft_lt
    | disconnect => cases hline
    | stop hmove => exact hmove.stepsLeft_lt

namespace Kept

variable {r₁ r₂ : Except EngineFailure Unit}

/-- The next answer of an engine that gives `r₁`, and `r₂` if it is asked again. -/
theorem exists_answer (hk : Kept setup h m) (hc : m.callers[i]? = some c) (hline : c.InLine)
    (hawaits : c.awaits? ≠ none) (hheard : (Account.of (deeds i h)).heard <+: [r₁, r₂]) :
    ∃ x c', answered? x c = some c' ∧ (Account.of (deeds i h)).heard ++ [x] <+: [r₁, r₂] := by
  have hi := hk.accounted.own hc
  cases c with
  | connect a p =>
    cases p with
    | raised config events mayRetry =>
      have hpast : (Account.of (deeds i h)).heard = pastAnswers mayRetry := hi.2.1
      rw [hpast] at hheard ⊢
      have hanswered : ∀ x, ∃ c', answered? x (.connect a (.raised config events mayRetry)) =
          some c' := by
        rintro (e | u)
        · simp only [answered?]
          split <;> exact ⟨_, rfl⟩
        · exact ⟨_, rfl⟩
      cases mayRetry with
      | true =>
        obtain ⟨c', hc'⟩ := hanswered r₁
        exact ⟨r₁, c', hc', by simp [pastAnswers]⟩
      | false =>
        obtain ⟨c', hc'⟩ := hanswered r₂
        refine ⟨r₂, c', hc', ?_⟩
        simpa [pastAnswers] using hheard
    | _ => exact absurd rfl hawaits
  | disconnect p => cases hline
  | stop p => exact absurd rfl hawaits

/-- The first call in line can get nearer to its end, whatever the engine answers. -/
theorem exists_nearer (hk : Kept setup h m) (hc : m.callers[i]? = some c) (hline : c.InLine)
    (hhead : m.queue.head? = some i) (hheard : (Account.of (deeds i h)).heard <+: [r₁, r₂]) :
    ∃ ls m' c', (∀ l ∈ ls, Label.Serves i l) ∧ m.run setup ls = some m' ∧
      m'.callers = m.callers.set i c' ∧ c'.request? = c.request? ∧ c'.stepsLeft < c.stepsLeft ∧
      (Account.of (deeds i h)).heard ++ ls.filterMap (Label.answers? i) <+: [r₁, r₂] := by
  by_cases hawaits : c.awaits? = none
  · -- a monitor that the call waits for ends first
    obtain ⟨ls, m₁, hls, hrun, haside, hended⟩ : ∃ ls m₁, (∀ l ∈ ls, ∃ j, Label.OfMonitor j l) ∧
        m.run setup ls = some m₁ ∧ m.Aside m₁ ∧ ∀ j, c.holding.joins = some j → m₁.hasEnded j := by
      cases hjoins : c.holding.joins with
      | none => exact ⟨[], m, List.forall_mem_nil _, rfl, ⟨rfl, rfl, rfl, rfl, rfl, rfl⟩, nofun⟩
      | some j =>
        obtain ⟨t, ht, htold⟩ := hk.attended.told (List.mem_of_getElem? hc) hjoins
        have hs := hk.attended.sound t (List.mem_of_getElem? ht)
        obtain ⟨ls, m₁, hls, hrun, hended⟩ := exists_run_hasEnded setup ht hs htold
        exact ⟨ls, m₁, fun l hl => ⟨j, hls l hl⟩, hrun, aside_of_run hls hrun,
          fun k hk => Option.some.inj hk ▸ hended⟩
    have hc₁ : m₁.callers[i]? = some c := by rw [haside.callers]; exact hc
    obtain ⟨m', hstep⟩ := exists_callerStep? setup hline (haside.queue ▸ hhead) hended hawaits
    obtain ⟨c', hcs, hrequest, hlt⟩ := nearer_of_callerStep? hc₁ hline hstep
    have hown : m₁.step setup (.caller i) = some m' := by
      rw [Machine.step, hc₁, Option.bind_some, hstep]
    have hsilent : (ls ++ [Label.caller i]).filterMap (Label.answers? i) = [] := by
      refine List.filterMap_eq_nil_iff.mpr fun l hl => ?_
      obtain hl | hl := List.mem_append.mp hl
      · obtain ⟨j, rfl | rfl⟩ := hls l hl <;> rfl
      · cases List.mem_singleton.mp hl; rfl
    refine ⟨ls ++ [.caller i], m', c', fun l hl => ?_, ?_, haside.callers ▸ hcs, hrequest, hlt, ?_⟩
    · obtain hl | hl := List.mem_append.mp hl
      · exact .inr (.inr (hls l hl))
      · exact .inl (List.mem_singleton.mp hl)
    · exact (run_append_of_run hrun).trans (run_cons_of_step hown)
    · rw [hsilent, List.append_nil]; exact hheard
  · obtain ⟨x, c', hanswered, hheard'⟩ := hk.exists_answer hc hline hawaits hheard
    have hmove := answerMove_of_answered? hanswered
    have hcaller : CallerMove setup m i (.answer i x) c c' m := .answer hmove
    have hstep : m.step setup (.answer i x) = some (m.setCaller i c') := by
      rw [Machine.step, hc, Option.bind_some, hanswered, Option.map_some]
    refine ⟨[.answer i x], m.setCaller i c', c', ?_, run_cons_of_step hstep, rfl,
      hcaller.request?_eq, hmove.stepsLeft_lt (Caller.inLine_iff.mp hline).1, ?_⟩
    · intro l hl
      exact .inr (.inl ⟨x, List.mem_singleton.mp hl⟩)
    · simpa [Label.answers?] using hheard'

/-- The first call in line can go on until it returns, whatever the engine answers. -/
theorem exists_returned (hk : Kept setup h m) (hc : m.callers[i]? = some c) (hline : c.InLine)
    (hhead : m.queue.head? = some i) (hheard : (Account.of (deeds i h)).heard <+: [r₁, r₂]) :
    ∃ ls m' c', (∀ l ∈ ls, Label.Serves i l) ∧ m.run setup ls = some m' ∧
      m'.callers = m.callers.set i c' ∧ c'.request? = c.request? ∧ c'.HasReturned ∧
      (Account.of (deeds i (h ++ m.chronicle setup ls))).heard <+: [r₁, r₂] := by
  induction hn : c.stepsLeft using Nat.strongRecOn generalizing m c h with
  | ind n ih =>
    obtain ⟨ls, m₁, c₁, hls, hrun, hcs, hrequest, hlt, hheard₁⟩ :=
      hk.exists_nearer hc hline hhead hheard
    have hk₁ := hk.run hrun
    rw [← heard_of_run hrun] at hheard₁
    have hheard₁ : (Account.of (deeds i (h ++ m.chronicle setup ls))).heard <+: [r₁, r₂] := by
      rwa [deeds_append, Account.of_append]
    have hi : i < m.callers.length := (List.getElem?_eq_some_iff.mp hc).1
    have hc₁ : m₁.callers[i]? = some c₁ := by rw [hcs]; exact List.getElem?_set_self hi
    by_cases hreturned : c₁.HasReturned
    · exact ⟨ls, m₁, c₁, hls, hrun, hcs, hrequest, hreturned, hheard₁⟩
    · have hkind := Caller.takesLock_iff.mp (Caller.inLine_iff.mp hline).1
      have hline₁ : c₁.InLine :=
        Caller.inLine_iff.mpr ⟨Caller.takesLock_iff.mpr (hrequest ▸ hkind), hreturned⟩
      have hhead₁ : m₁.queue.head? = some i := by
        refine hk₁.orderly.head?_eq (hk₁.orderly.mem_iff.mpr ⟨c₁, hc₁, hline₁⟩) fun k hk' => ?_
        -- nobody has joined the line ahead of the call
        obtain ⟨d, hd, hdline⟩ := hk₁.orderly.mem_iff.mp hk'
        rw [hcs] at hd
        obtain ⟨rfl, -⟩ | ⟨-, hd⟩ := getElem?_set_eq_some hd
        · exact Nat.le_refl _
        · exact hk.orderly.head_le hhead (hk.orderly.mem_iff.mpr ⟨d, hd, hdline⟩)
      obtain ⟨ls', m', c', hls', hrun', hcs', hrequest', hreturned', hheard'⟩ :=
        ih _ (hn ▸ hlt) hk₁ hc₁ hline₁ hhead₁ hheard₁ rfl
      refine ⟨ls ++ ls', m', c', ?_, ?_, ?_, hrequest'.trans hrequest, hreturned', ?_⟩
      · exact fun l hl => (List.mem_append.mp hl).elim (hls l) (hls' l)
      · rw [run_append_of_run hrun, hrun']
      · rw [hcs', hcs, List.set_set]
      · rw [chronicle_append_of_run hrun, ← List.append_assoc]
        exact hheard'

/-- When all other calls have returned, the last one can go on until it returns as well. -/
theorem exists_last_returned {cs : List Caller} (hk : Kept setup h m) (hcs : m.callers = cs ++ [c])
    (hfree : ∀ d ∈ cs, d.HasReturned) (hkind : c.TakesLock)
    (hheard : (Account.of (deeds cs.length h)).heard <+: [r₁, r₂]) :
    ∃ ls m' c', (∀ l ∈ ls, Label.Serves cs.length l) ∧ m.run setup ls = some m' ∧
      m'.callers = cs ++ [c'] ∧ c'.request? = c.request? ∧ c'.HasReturned ∧
      (Account.of (deeds cs.length (h ++ m.chronicle setup ls))).heard <+: [r₁, r₂] := by
  by_cases hreturned : c.HasReturned
  · exact ⟨[], m, c, List.forall_mem_nil _, rfl, hcs, rfl, hreturned, by simpa [chronicle]⟩
  · have hline := Caller.inLine_iff.mpr ⟨hkind, hreturned⟩
    have hc : m.callers[cs.length]? = some c := by simp [hcs]
    have hhead : m.queue.head? = some cs.length := by
      refine hk.orderly.head?_eq (hk.orderly.mem_iff.mpr ⟨c, hc, hline⟩) fun k hk' => ?_
      obtain ⟨d, hd, hdline⟩ := hk.orderly.mem_iff.mp hk'
      rw [hcs] at hd
      obtain ⟨-, hd⟩ | ⟨rfl, -⟩ := getElem?_append_singleton_eq_some hd
      · exact absurd (hfree d (List.mem_of_getElem? hd)) (Caller.inLine_iff.mp hdline).2
      · exact Nat.le_refl _
    obtain ⟨ls, m', c', hls, hrun, hcs', hrequest, hreturned', hheard'⟩ :=
      hk.exists_returned hc hline hhead hheard
    refine ⟨ls, m', c', hls, hrun, ?_, hrequest, hreturned', hheard'⟩
    rw [hcs', hcs, List.set_append_right _ _ (Nat.le_refl _), Nat.sub_self]
    rfl

end Kept

end Machine

end VpnTunnel
