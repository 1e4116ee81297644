import Mathlib.Data.List.Induction
import VpnTunnel.Proofs.Machine.Authorship
import VpnTunnel.Proofs.Machine.Returning
import VpnTunnel.Proofs.Machine.Rounds

/-!
# One call after another

A run is serial if every call in it is made when those before it have returned. The calls of a round
come to what they come to in a serial run, in which they are made in the order in which they got the
lock, read the same settings and hear the same answers.
-/

namespace VpnTunnel

section Replay

variable {setup : Setup} {c c' : Caller} {s s' : Account} {x₁ x₂ : Except EngineFailure Unit}

/-- A call hears two answers at most. -/
theorem Caller.Accords.exists_heard (h : c.Accords setup s) (hkind : c.TakesLock) :
    ∃ x₁ x₂, s.heard <+: [x₁, x₂] := by
  have hpast : ∀ mayRetry, ∃ x₁ x₂, pastAnswers mayRetry <+: [x₁, x₂] := fun mayRetry =>
    ⟨.error .timedOut, .ok (), by cases mayRetry <;> simp [pastAnswers]⟩
  have hconcludes : ∀ {a r}, Concludes setup a s r → ∃ x₁ x₂, s.heard <+: [x₁, x₂] := by
    intro a r h
    cases h with
    | refused => exact ⟨.ok (), .ok (), List.nil_prefix⟩
    | once settings config x => exact ⟨x, .ok (), by simp⟩
    | twice settings config x => exact ⟨.error .timedOut, x, List.prefix_refl _⟩
  have hempty : s = {} → ∃ x₁ x₂, s.heard <+: [x₁, x₂] := by
    rintro rfl
    exact ⟨.ok (), .ok (), List.nil_prefix⟩
  cases c with
  | connect a p =>
    cases p with
    | waiting | joining | announcing | recording | building => exact hempty h
    | listening => exact ⟨.ok (), .ok (), by rw [h.2.1]; exact List.nil_prefix⟩
    | raising config events mayRetry | raised config events mayRetry => rw [h.2.1]; exact hpast _
    | _ => exact hconcludes h
  | disconnect => cases hkind
  | stop => exact hempty h

/-- The settings that were read and the answers that were heard decide what a call has returned, and
all else in its account. -/
theorem Caller.Accords.unique (h : c.Accords setup s) (h' : c'.Accords setup s')
    (hkind : c.TakesLock) (hrequest : c'.request? = c.request?) (hreturned : c.HasReturned)
    (hreturned' : c'.HasReturned) (hread : s.read ≠ [] → s'.read ⊆ s.read)
    (hheard : s.heard <+: [x₁, x₂]) (hheard' : s'.heard <+: [x₁, x₂]) : s = s' ∧ c = c' := by
  cases c with
  | connect a p =>
    obtain ⟨r', rfl⟩ := Caller.exists_eq_finished hrequest hreturned'
    obtain ⟨r, hr⟩ := Caller.exists_eq_finished (c := .connect a p) rfl hreturned
    cases hr
    have hsame : s.read = s'.read := by
      obtain ⟨x, hx⟩ : ∃ x, s.read = [x] := by cases h <;> exact ⟨_, rfl⟩
      obtain ⟨x', hx'⟩ : ∃ x', s'.read = [x'] := by cases h' <;> exact ⟨_, rfl⟩
      rw [hx, hx'] at hread
      simpa [hx, hx', eq_comm] using hread
    obtain ⟨hs, hr⟩ := Concludes.unique h h' hsame hheard hheard'
    exact ⟨hs, by rw [hr]⟩
  | disconnect => cases hkind
  | stop p =>
    cases c' with
    | stop p' =>
      refine ⟨h.trans h'.symm, ?_⟩
      cases p <;> cases hreturned
      cases p' <;> cases hreturned'
      rfl
    | _ => cases hrequest

end Replay

/-- What may be published after call `i` has announced that it is connecting and `g` has happened:
its own failure, or what its own monitor has been sent after the call subscribed. -/
inductive Owned (i : Nat) (g : List Happening) : Happening → Prop
  | failed (e : CallFailure) : Owned i g (.failed i e)
  | handled (j r start place : Nat) (e : EngineReport) (hstarted : .started i j r ∈ g)
    (hle : start ≤ place) (hsent : [.subscribed i r start, .emitted place e].Sublist g) :
    Owned i g (.handled j place e)

/-- After its announcement what is published is the call's own, or its monitor's. -/
theorem Warranted.owned {h g : List Happening} {i : Nat} {x : Happening}
    (hx : Warranted (h ++ .announced i :: g) x) (hg : ∀ y ∈ g, y.announces? = none)
    (hpublishes : x.publishes? ≠ none) (hnew : x.announces? = none)
    (hdisabled : ∀ k, x ≠ .disabled k) : Owned i g x := by
  have hlatest : announcer? (h ++ .announced i :: g) = some i := by
    rw [← List.singleton_append, ← List.append_assoc, announcer?_append hg, announcer?_announced]
  have hsince : sinceAnnounced (h ++ .announced i :: g) = g := by
    rw [← List.singleton_append, ← List.append_assoc, sinceAnnounced_append hg,
      sinceAnnounced_announced, List.nil_append]
  cases hx with
  | announced k => cases hnew
  | disabled k => exact absurd rfl (hdisabled k)
  | failed k e hk =>
    obtain rfl := Option.some.inj (hlatest.symm.trans hk)
    exact .failed e
  | handled k r start j place e hk hstarted hle hsent =>
    obtain rfl := Option.some.inj (hlatest.symm.trans hk)
    rw [hsince] at hstarted hsent
    exact .handled j r start place e hstarted hle hsent
  | silent _ hnone => exact absurd hnone hpublishes

namespace Machine

variable {setup : Setup} {m₀ m m₁ m' : Machine} {i k : Nat} {c : Caller} {s : Account}
  {h g g' : List Happening} {cs ds : List Caller} {ls ls' : List Label}

/-- No call is made in the run while another is in progress. -/
def Serial (setup : Setup) : Machine → List Label → Prop
  | _, [] => True
  | m, l :: ls => ((∃ r, l = .call r) → ∀ c ∈ m.callers, c.HasReturned) ∧
      ∀ m', m.step setup l = some m' → m'.Serial setup ls

theorem serial_append (h : m.Serial setup ls) (hrun : m.run setup ls = some m₁)
    (h' : m₁.Serial setup ls') : m.Serial setup (ls ++ ls') := by
  induction ls generalizing m with
  | nil => cases hrun; exact h'
  | cons l ls ih =>
    obtain ⟨m₂, hstep, hrest⟩ := Option.bind_eq_some_iff.mp hrun
    refine ⟨h.1, fun m₃ hstep' => ?_⟩
    cases hstep.symm.trans hstep'
    exact ih (h.2 m₂ hstep) hrest

theorem serial_of_forall_ne_call (hls : ∀ r, .call r ∉ ls) : m.Serial setup ls := by
  induction ls generalizing m with
  | nil => trivial
  | cons l ls ih =>
    refine ⟨?_, fun m' _ => ih fun r hr => hls r (.tail l hr)⟩
    rintro ⟨r, rfl⟩
    exact absurd (.head ls) (hls r)

theorem run_configure (m : Machine) (setup : Setup) (ss : List Settings) :
    m.run setup (ss.map .configure) = some { m with settings := ss.getLast?.getD m.settings } ∧
      m.chronicle setup (ss.map .configure) = [] := by
  induction ss generalizing m with
  | nil => exact ⟨rfl, rfl⟩
  | cons s ss ih =>
    obtain ⟨hrun, hchronicle⟩ := ih { m with settings := s }
    refine ⟨?_, hchronicle⟩
    rw [List.map_cons, run_cons_of_step rfl, hrun]
    cases ss <;> rfl

/-- When all calls have returned, one can be made, with the last of any settings. -/
theorem exists_run_call (setup : Setup) (hfree : ∀ d ∈ m.callers, d.HasReturned)
    (ss : List Settings) (r : Request) :
    ∃ ls m₁, m.Serial setup ls ∧ m.run setup ls = some m₁ ∧ m.chronicle setup ls = [] ∧
      (∀ r', .call r' ∈ ls → r' = r) ∧ m₁.settings = ss.getLast?.getD m.settings ∧
      m₁.callers = m.callers ++ [.ofRequest r] := by
  obtain ⟨hrun, hchron⟩ := m.run_configure setup ss
  refine ⟨ss.map .configure ++ [.call r], _, ?_, (run_append_of_run hrun).trans rfl, ?_, by simp,
    rfl, rfl⟩
  · refine serial_append (serial_of_forall_ne_call (by simp)) hrun ?_
    exact ⟨fun _ => hfree, fun _ _ => trivial⟩
  · rw [chronicle_append_of_run hrun, hchron]
    rfl

/-- Steps that serve a call do not add to the deeds of others. -/
theorem deeds_eq_nil_of_serves (hls : ∀ l ∈ ls, Label.Serves i l) (hk : k ≠ i)
    (hrun : m.run setup ls = some m') : deeds k (m.chronicle setup ls) = [] := by
  refine chronicle_induction (c := []) (P := fun g _ => deeds k g = [])
    (fun {g m l m'} hl hg _ => ?_) rfl hrun
  rw [deeds_of_ne, hg]
  obtain rfl | ⟨x, rfl⟩ | ⟨j, rfl | rfl⟩ := hls l hl <;> simp [Label.caller?, Ne.symm hk]

/-- A call that has returned can be made over again on its own, when all others have returned: it
reads the same settings, hears the same answers and returns the same. -/
theorem Kept.exists_replay (hk : Kept setup h m) (hfree : ∀ d ∈ m.callers, d.HasReturned)
    (hc : c.Accords setup s) (hkind : c.TakesLock) (hreturned : c.HasReturned) :
    ∃ ls m', m.Serial setup ls ∧ m.run setup ls = some m' ∧ m'.callers = m.callers ++ [c] ∧
      (∀ b, .call (.disconnect b) ∉ ls) ∧
      Account.of (deeds m.callers.length (m.chronicle setup ls)) = s ∧
      ∀ k, k ≠ m.callers.length → deeds k (m.chronicle setup ls) = [] := by
  obtain ⟨r, hr⟩ := Option.ne_none_iff_exists'.mp (Caller.takesLock_iff.mp hkind)
  have hrequest : (Caller.ofRequest r).request? = some r := by
    cases c <;> cases hr <;> rfl
  have hkind' : (Caller.ofRequest r).TakesLock := by rw [Caller.takesLock_iff, hrequest]; nofun
  obtain ⟨x₁, x₂, hheard⟩ := Caller.Accords.exists_heard hc hkind
  -- the call is made, and goes on until it returns
  obtain ⟨ls₁, m₁, hserial, hset, hchron₁, hmade, hsettings, hcs₁⟩ :=
    exists_run_call setup hfree s.read r
  have hk₁ := hk.run hset
  rw [hchron₁, List.append_nil] at hk₁
  obtain ⟨ls, m', c', hserves, hrun, hcs', hrequest', hreturned', hheard'⟩ :=
    hk₁.exists_last_returned hcs₁ hfree hkind'
      (by rw [hk.deeds_eq_nil (Nat.le_refl _)]; exact List.nil_prefix)
  have hc' : m'.callers[m.callers.length]? = some c' := by simp [hcs']
  have hown := (hk₁.run hrun).accounted.own hc'
  rw [hk.deeds_append_eq (Nat.le_refl _)] at hown hheard'
  have hread : s.read ≠ [] →
      (Account.of (deeds m.callers.length (m₁.chronicle setup ls))).read ⊆ s.read := by
    intro hne x hx
    obtain rfl | hconfigure := read_of_run hrun x hx
    · rw [hsettings, List.getLast?_eq_some_getLast hne]
      exact List.getLast_mem hne
    · exact absurd rfl (not_configure_of_serves (hserves _ hconfigure) x)
  obtain ⟨rfl, rfl⟩ := hc.unique hown hkind (by rw [hrequest', hrequest, hr]) hreturned hreturned'
    hread hheard hheard'
  have hnocall : ∀ r, .call r ∉ ls := fun r hr => not_call_of_serves (hserves _ hr) r rfl
  refine ⟨ls₁ ++ ls, m', ?_, (run_append_of_run hset).trans hrun, hcs', fun b hb => ?_, ?_, ?_⟩
  · exact serial_append hserial hset (serial_of_forall_ne_call hnocall)
  · obtain hb | hb := List.mem_append.mp hb
    · cases hmade _ hb
      cases hrequest
    · exact hnocall _ hb
  · rw [chronicle_append_of_run hset, hchron₁, List.nil_append]
  · intro k hk
    rw [chronicle_append_of_run hset, hchron₁, List.nil_append]
    exact deeds_eq_nil_of_serves hserves hk hrun

/-- Calls that have returned can be made over again one after another. -/
theorem Kept.exists_serial (hk₀ : Kept setup h m₀) (hfree : ∀ d ∈ m₀.callers, d.HasReturned)
    {accounts : Nat → Account} (hds : ∀ (k : Nat) (d : Caller), ds[k]? = some d →
      d.Accords setup (accounts k) ∧ d.TakesLock ∧ d.HasReturned) :
    ∃ ls m, m₀.Serial setup ls ∧ m₀.run setup ls = some m ∧ m.callers = m₀.callers ++ ds ∧
      (∀ b, .call (.disconnect b) ∉ ls) ∧
      ∀ k, k < ds.length →
        Account.of (deeds (m₀.callers.length + k) (m₀.chronicle setup ls)) = accounts k := by
  induction ds using List.reverseRecOn with
  | nil => exact ⟨[], m₀, trivial, rfl, by simp, by simp, by simp⟩
  | append_singleton ds d ih =>
    obtain ⟨ls, m, hserial, hrun, hcs, hdisconnect, haccounts⟩ := ih fun k e he =>
      hds k e (getElem?_append_of_eq_some he)
    obtain ⟨hd, hkind, hreturned⟩ := hds ds.length d (by simp)
    have hall : ∀ e ∈ m.callers, e.HasReturned := by
      rw [hcs]
      refine List.forall_mem_append.mpr ⟨hfree, fun e he => ?_⟩
      obtain ⟨k, hk⟩ := List.mem_iff_getElem?.mp he
      exact (hds k e (getElem?_append_of_eq_some hk)).2.2
    obtain ⟨ls', m', hserial', hrun', hcs', hdisconnect', haccount, hothers⟩ :=
      (hk₀.run hrun).exists_replay hall hd hkind hreturned
    refine ⟨ls ++ ls', m', serial_append hserial hrun hserial',
      (run_append_of_run hrun).trans hrun', by simp [hcs', hcs], fun b hb => ?_, fun k hk => ?_⟩
    · exact (List.mem_append.mp hb).elim (hdisconnect b) (hdisconnect' b)
    · rw [chronicle_append_of_run hrun, deeds_append]
      have hlength : m.callers.length = m₀.callers.length + ds.length := by simp [hcs]
      rw [hlength] at haccount hothers
      rw [List.length_append, List.length_singleton] at hk
      obtain hk | rfl := Nat.lt_or_eq_of_le (Nat.le_of_lt_succ hk)
      · rw [hothers _ (by omega), List.append_nil]
        exact haccounts k hk
      · -- the call was not there before
        have hnone := (hk₀.run hrun).deeds_eq_nil (Nat.le_of_eq hlength)
        rw [hk₀.deeds_append_eq (Nat.le_add_right ..)] at hnone
        rw [hnone, List.nil_append]
        exact haccount

/-- The calls since `m₀` are the same in both machines, made in the same order, and each has read
and heard the same in what has happened. -/
structure Replays (m₀ : Machine) (g g' : List Happening) (m m' : Machine) : Prop where
  requests : m'.callers.map Caller.request? = m.callers.map Caller.request?
  read : ∀ i, m₀.callers.length ≤ i → i < m.callers.length →
    (Account.of (deeds i g')).read = (Account.of (deeds i g)).read
  heard : ∀ i, m₀.callers.length ≤ i → i < m.callers.length →
    (Account.of (deeds i g')).heard = (Account.of (deeds i g)).heard

/-- The calls of a round can be made over again one after another. -/
theorem Round.exists_serial (hm : Round m₀ g ds m) (hk₀ : Kept setup h m₀)
    (hk : Kept setup (h ++ g) m) (hfree : ∀ c ∈ m₀.callers, c.HasReturned)
    (hall : ∀ c ∈ m.callers, c.HasReturned) :
    ∃ ls m', m₀.Serial setup ls ∧ m₀.run setup ls = some m' ∧
      (∀ b, .call (.disconnect b) ∉ ls) ∧ (∀ c ∈ m'.callers, c.HasReturned) ∧
      Replays m₀ g (m₀.chronicle setup ls) m m' := by
  have hds : ∀ (k : Nat) (d : Caller), ds[k]? = some d →
      d.Accords setup (Account.of (deeds (m₀.callers.length + k) g)) ∧ d.TakesLock ∧
        d.HasReturned := by
    intro k d hd
    have hkd := (hm.getElem?_eq k).trans hd
    have hown := hk.accounted.own hkd
    rw [hk₀.deeds_append_eq (Nat.le_add_right ..)] at hown
    exact ⟨hown, hm.lockers d (List.mem_of_getElem? hd), hall d (List.mem_of_getElem? hkd)⟩
  obtain ⟨ls, m', hserial, hrun, hcs', hdisconnect, haccounts⟩ := hk₀.exists_serial hfree hds
  have hcs : m'.callers = m.callers := hcs'.trans hm.callers.symm
  have haccount : ∀ i, m₀.callers.length ≤ i → i < m.callers.length →
      Account.of (deeds i (m₀.chronicle setup ls)) = Account.of (deeds i g) := by
    intro i hle hlt
    obtain ⟨k, rfl⟩ := Nat.exists_eq_add_of_le hle
    rw [hm.callers, List.length_append] at hlt
    exact haccounts k (by omega)
  exact ⟨ls, m', hserial, hrun, hdisconnect, hcs ▸ hall, congrArg _ hcs,
    fun i hle hlt => congrArg Account.read (haccount i hle hlt),
    fun i hle hlt => congrArg Account.heard (haccount i hle hlt)⟩

/-- What the calls of a round have returned and asked, and what they leave current, does not depend
on how they were interleaved. -/
theorem Round.eq_of_replays (hm : Round m₀ g ds m) (hm' : Round m₀ g' cs m')
    (hk₀ : Kept setup h m₀) (hk : Kept setup (h ++ g) m) (hk' : Kept setup (h ++ g') m')
    (hfree : ∀ d ∈ m.callers, d.HasReturned) (hfree' : ∀ d ∈ m'.callers, d.HasReturned)
    (hreplays : Replays m₀ g g' m m') : m'.callers = m.callers ∧
      g'.filterMap Happening.asks? = g.filterMap Happening.asks? ∧ m'.current = m.current := by
  have hrequests : cs.map Caller.request? = ds.map Caller.request? := by
    simpa [hm.callers, hm'.callers] using hreplays.requests
  have hlength : cs.length = ds.length := by simpa using congrArg List.length hrequests
  have hsame : ∀ k, k < ds.length →
      Account.of (deeds (m₀.callers.length + k) g') = Account.of (deeds (m₀.callers.length + k) g) ∧
        cs[k]? = ds[k]? := by
    intro k hlt
    obtain ⟨d, hd⟩ : ∃ d, ds[k]? = some d := ⟨_, List.getElem?_eq_getElem hlt⟩
    obtain ⟨c, hc⟩ : ∃ c, cs[k]? = some c := ⟨_, List.getElem?_eq_getElem (hlength ▸ hlt)⟩
    have hrequest : c.request? = d.request? := by
      have hk := congrArg (·[k]?) hrequests
      simpa [hd, hc] using hk
    have hkd := (hm.getElem?_eq k).trans hd
    have hkc := (hm'.getElem?_eq k).trans hc
    have hown := hk.accounted.own hkd
    have hown' := hk'.accounted.own hkc
    rw [hk₀.deeds_append_eq (Nat.le_add_right ..)] at hown hown'
    have hi : m₀.callers.length + k < m.callers.length := (List.getElem?_eq_some_iff.mp hkd).1
    have hread := hreplays.read _ (Nat.le_add_right ..) hi
    have hheard := hreplays.heard _ (Nat.le_add_right ..) hi
    have hkind := hm.lockers d (List.mem_of_getElem? hd)
    obtain ⟨x₁, x₂, hprefix⟩ := Caller.Accords.exists_heard hown hkind
    obtain ⟨haccount, rfl⟩ := Caller.Accords.unique hown hown' hkind hrequest
      (hfree d (List.mem_of_getElem? hkd)) (hfree' c (List.mem_of_getElem? hkc))
      (fun _ => hread ▸ List.Subset.refl _) hprefix (hheard ▸ hprefix)
    exact ⟨haccount.symm, hc.trans hd.symm⟩
  obtain rfl : cs = ds := List.ext_getElem? fun k => by
    obtain hlt | hle := Nat.lt_or_ge k ds.length
    · exact (hsame k hlt).2
    · rw [List.getElem?_eq_none hle, List.getElem?_eq_none (hlength ▸ hle)]
  refine ⟨hm'.callers.trans hm.callers.symm, ?_, hm'.current.trans hm.current.symm⟩
  rw [hm'.asks_eq, hm.asks_eq, List.flatMap_def, List.flatMap_def, List.map_congr_left]
  exact fun k hk => congrArg Account.asked (hsame k (List.mem_range.mp hk)).1

/-- When the first call in line has returned, the first in line is one behind it. -/
theorem Orderly.lt_of_head? (hm : m.Orderly) (hm₁ : m₁.Orderly) (hhead : m.queue.head? = some i)
    (hcs : m₁.callers = m.callers.set i c) (hreturned : c.HasReturned)
    (hhead₁ : m₁.queue.head? = some k) : i < k := by
  obtain ⟨d, hd, hline⟩ := hm₁.mem_iff.mp (List.mem_of_head? hhead₁)
  rw [hcs] at hd
  obtain ⟨-, rfl⟩ | ⟨hne, hd⟩ := getElem?_set_eq_some hd
  · exact absurd hreturned (Caller.inLine_iff.mp hline).2
  · exact Nat.lt_of_le_of_ne (hm.head_le hhead (hm.mem_iff.mpr ⟨d, hd, hline⟩)) (Ne.symm hne)

/-- Without further calls those in progress can all go on until they have returned. -/
theorem Kept.exists_all_returned (hk : Kept setup h m)
    (hkinds : ∀ c ∈ m.callers, c.TakesLock ∨ c.HasReturned) :
    ∃ ls m', (∀ r, .call r ∉ ls) ∧ m.run setup ls = some m' ∧
      ∀ c ∈ m'.callers, c.HasReturned := by
  -- when the first call in line has returned, only calls behind it are left
  induction hn : m.callers.length - m.queue.head?.getD m.callers.length using Nat.strongRecOn
    generalizing m h with
  | ind n ih =>
    cases hhead : m.queue.head? with
    | none =>
      refine ⟨[], m, by simp, rfl, fun c hc => Classical.byContradiction fun hreturned => ?_⟩
      obtain ⟨k, hk'⟩ := List.mem_iff_getElem?.mp hc
      have hline := Caller.inLine_iff.mpr ⟨(hkinds c hc).resolve_right hreturned, hreturned⟩
      have hmem := hk.orderly.mem_iff.mpr ⟨c, hk', hline⟩
      rw [List.head?_eq_none_iff.mp hhead] at hmem
      cases hmem
    | some i =>
      obtain ⟨c, hc, hline⟩ := hk.orderly.mem_iff.mp (List.mem_of_head? hhead)
      obtain ⟨x₁, x₂, hheard⟩ :=
        Caller.Accords.exists_heard (hk.accounted.own hc) (Caller.inLine_iff.mp hline).1
      obtain ⟨ls, m₁, c', hserves, hrun, hcs, -, hreturned, -⟩ :=
        hk.exists_returned hc hline hhead hheard
      have hk₁ := hk.run hrun
      have hi : i < m.callers.length := (List.getElem?_eq_some_iff.mp hc).1
      have hlength : m₁.callers.length = m.callers.length := by simp [hcs]
      have hbehind : i < m₁.queue.head?.getD m.callers.length := by
        cases hhead₁ : m₁.queue.head? with
        | none => exact hi
        | some k => exact hk.orderly.lt_of_head? hk₁.orderly hhead hcs hreturned hhead₁
      have hnearer : m₁.callers.length - m₁.queue.head?.getD m₁.callers.length < n := by
        rw [← hn, hhead, hlength, Option.getD_some]
        omega
      have hkinds₁ : ∀ d ∈ m₁.callers, d.TakesLock ∨ d.HasReturned := by
        intro d hd
        rw [hcs] at hd
        obtain hd | rfl := List.mem_or_eq_of_mem_set hd
        · exact hkinds d hd
        · exact .inr hreturned
      obtain ⟨ls', m', hls', hrun', hall⟩ := ih _ hnearer hk₁ hkinds₁ rfl
      refine ⟨ls ++ ls', m', fun r hr => ?_, (run_append_of_run hrun).trans hrun', hall⟩
      obtain hr | hr := List.mem_append.mp hr
      · exact not_call_of_serves (hserves _ hr) r rfl
      · exact hls' r hr

/-- In a round nobody disconnects. -/
theorem ne_disabled_of_round (hk₀ : Kept setup h m₀) (hfree : ∀ d ∈ m₀.callers, d.HasReturned)
    (hls : ∀ b, .call (.disconnect b) ∉ ls) (hrun : m₀.run setup ls = some m) {x : Happening}
    (hx : x ∈ m₀.chronicle setup ls) (k : Nat) : x ≠ .disabled k := by
  rintro rfl
  obtain ⟨g, g', hg⟩ := List.append_of_mem hx
  obtain ⟨ls₁, l, ls₂, m₁, m₂, rfl, hrun₁, -, -, hl, -⟩ := exists_of_chronicle_eq hrun hg
  obtain ⟨ds, hm₁⟩ := round_of_run hk₀ hfree
    (fun b hb => hls b (List.mem_append_left _ hb)) hrun₁
  cases happens_of_happening? hl with
  | disabled hc =>
    have hmem := List.mem_of_getElem? hc
    rw [hm₁.callers] at hmem
    obtain hmem | hmem := List.mem_append.mp hmem
    · cases hfree _ hmem
    · cases hm₁.lockers _ hmem

/-- When no call is in progress, any number of calls to connect and to stop the monitor may be made,
in any order of steps. They can all return; when they have, they have got the lock in the order in
which they were made, and have returned and asked of the engine, and left as the current attempt,
what they do one after another in that order, reading and hearing the same; indeed in any order of
steps. What is published after one of them has announced that it is connecting, up to the next
announcement, is its own, so what is shown is decided by it alone. -/
theorem serial_of_run {settings : Settings} {capacity : Nat} {ls₀ : List Label}
    (h₀ : (idle settings capacity).run setup ls₀ = some m₀)
    (hfree : ∀ c ∈ m₀.callers, c.HasReturned) (hls : ∀ b, .call (.disconnect b) ∉ ls)
    (hrun : m₀.run setup ls = some m) :
    (∃ ls' m', (∀ r, .call r ∉ ls') ∧ m.run setup ls' = some m' ∧
      ∀ c ∈ m'.callers, c.HasReturned) ∧
    ((∀ c ∈ m.callers, c.HasReturned) →
      (m₀.chronicle setup ls).filterMap Happening.admits? =
        List.range' m₀.callers.length (m.callers.length - m₀.callers.length) ∧
      (∃ ls' m', m₀.Serial setup ls' ∧ m₀.run setup ls' = some m' ∧
        (∀ b, .call (.disconnect b) ∉ ls') ∧ (∀ c ∈ m'.callers, c.HasReturned) ∧
        Replays m₀ (m₀.chronicle setup ls) (m₀.chronicle setup ls') m m') ∧
      ∀ ls' m', (∀ b, .call (.disconnect b) ∉ ls') → m₀.run setup ls' = some m' →
        (∀ c ∈ m'.callers, c.HasReturned) →
        Replays m₀ (m₀.chronicle setup ls) (m₀.chronicle setup ls') m m' →
        m'.callers = m.callers ∧
          m'.calls.map CallRecord.call = m.calls.map CallRecord.call ∧ m'.current = m.current) ∧
    ∀ g i g', m₀.chronicle setup ls = g ++ .announced i :: g' →
      (∀ g₁ x g₂, g' = g₁ ++ x :: g₂ → (∀ y ∈ g₁, y.announces? = none) →
        x.publishes? ≠ none → x.announces? = none → Owned i g₁ x) ∧
      ((∀ y ∈ g', y.announces? = none) →
        m.state = (g'.filterMap Happening.publishes?).getLast?.getD .connecting) := by
  have hk₀ := kept_of_run h₀
  have hk := hk₀.run hrun
  obtain ⟨ds, hm⟩ := round_of_run hk₀ hfree hls hrun
  refine ⟨hk.exists_all_returned ?_, fun hall => ⟨?_, ?_, ?_⟩, fun g i g' hg => ⟨?_, ?_⟩⟩
  · intro c hc
    rw [hm.callers] at hc
    exact (List.mem_append.mp hc).elim (fun hc => .inr (hfree c hc)) fun hc =>
      .inl (hm.lockers c hc)
  · have hlength : m.callers.length - m₀.callers.length = ds.length := by simp [hm.callers]
    rw [hlength]
    exact hm.admits_eq hk₀ hk fun d hd => hall d (hm.callers ▸ List.mem_append_right _ hd)
  · exact hm.exists_serial hk₀ hk hfree hall
  · intro ls' m' hls' hrun' hall' hreplays
    obtain ⟨cs, hm'⟩ := round_of_run hk₀ hfree hls' hrun'
    obtain ⟨hcallers, hasked, hcurrent⟩ :=
      hm.eq_of_replays hm' hk₀ hk (hk₀.run hrun') hall hall' hreplays
    exact ⟨hcallers, by rw [calls_of_run hrun', calls_of_run hrun, hasked], hcurrent⟩
  · rintro g₁ x g₂ rfl hquiet hpublishes hnew
    have hall : (idle settings capacity).run setup (ls₀ ++ ls) = some m :=
      (run_append_of_run h₀).trans hrun
    have hsplit : (idle settings capacity).chronicle setup (ls₀ ++ ls) =
        ((idle settings capacity).chronicle setup ls₀ ++ g ++ .announced i :: g₁) ++ x :: g₂ := by
      rw [chronicle_append_of_run h₀, hg]
      simp
    exact ((authored_of_run hall).warranted hsplit).owned hquiet hpublishes hnew
      (ne_disabled_of_round hk₀ hfree hls hrun (by simp [hg]))
  · intro hquiet
    rw [state_of_run hrun, hg, List.filterMap_append, List.filterMap_cons]
    cases hlast : (g'.filterMap Happening.publishes?).getLast? with
    | none => simp [Happening.publishes?, List.getLast?_eq_none_iff.mp hlast]
    | some s => simp [Happening.publishes?, hlast, List.getLast?_append, List.getLast?_cons]

/-- Three calls at once: the second takes the place of the first while a report for the first is
still to be taken up, and is turned away; the third stops the monitor. -/
def sampleCrowd : List Label :=
  [.call (.connect Client.sampleAttempt), .call (.connect Client.sampleAttempt), .call .stop,
    .caller 0, .caller 0, .caller 0, .caller 0, .caller 0, .caller 0, .answer 0 (.ok ()), .caller 0,
    .caller 0, .caller 0, .monitor 0, .emit (.state .up), .caller 1, .monitor 0, .connectivity 0,
    .monitor 0, .caller 1, .caller 1, .caller 1, .caller 1, .caller 1, .caller 1,
    .answer 1 (.error .otherUser), .caller 1, .caller 1, .caller 1, .caller 2, .caller 2]

theorem serial_sample :
    ∃ m, (idle Client.sampleSettings 16).run sampleSetup sampleCrowd = some m ∧
      (∀ c ∈ m.callers, c.HasReturned) ∧
      ∃ ls m', (idle Client.sampleSettings 16).Serial sampleSetup ls ∧
        (idle Client.sampleSettings 16).run sampleSetup ls = some m' ∧ m'.callers = m.callers ∧
        m'.calls.map CallRecord.call = m.calls.map CallRecord.call ∧ m'.current = m.current := by
  obtain ⟨m, r, r', hrun, hcallers⟩ : ∃ (m : Machine) (r r' : Outcome),
      (idle Client.sampleSettings 16).run sampleSetup sampleCrowd = some m ∧
        m.callers = [.connect Client.sampleAttempt (.finished r),
          .connect Client.sampleAttempt (.finished r'), .stop .finished] :=
    ⟨_, _, _, rfl, rfl⟩
  have hall : ∀ c ∈ m.callers, c.HasReturned := by
    simp [hcallers, Caller.HasReturned, Caller.result?]
  have hstart : (idle Client.sampleSettings 16).run sampleSetup [] =
      some (idle Client.sampleSettings 16) := rfl
  obtain ⟨-, ⟨ls, m', hserial, hrun', hls, hall', hreplays⟩, hequal⟩ :=
    (serial_of_run hstart (by simp [idle]) (by simp [sampleCrowd]) hrun).2.1 hall
  exact ⟨m, hrun, hall, ls, m', hserial, hrun', hequal ls m' hls hrun' hall' hreplays⟩

end Machine

end VpnTunnel
