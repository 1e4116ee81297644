import VpnTunnel.Proofs.Machine.Exclusive
import VpnTunnel.Proofs.Machine.Turns

/-!
# Calls that overlap

A call to connect makes its attempt the current one, and only later turns to the engine; a call to
disconnect gives the current attempt up, and only then turns to the engine. Nothing keeps the one
from coming between the two steps of the other, for disconnecting takes no lock. So the current
attempt and the interface may end up at odds, and do so just where one call is over and done with
between the two steps of the other.
-/

namespace VpnTunnel

/-- What a call does that is seen later. -/
inductive Touch where
  /-- Makes an attempt the current one, or gives the current one up. -/
  | sets (current : Option Attempt)
  | asks (target : LinkState)
deriving DecidableEq

namespace Touch

def sets? : Touch → Option (Option Attempt)
  | sets current => some current
  | asks _ => none

def asks? : Touch → Option LinkState
  | sets _ => none
  | asks target => some target

end Touch

namespace Caller

def touch? : Caller → Option Touch
  | connect a .recording => some (.sets (some a))
  | connect _ (.raising _ _ _) => some (.asks .up)
  | connect _ (.clearing _ _) => some (.sets none)
  | disconnect .clearing => some (.sets none)
  | disconnect .lowering => some (.asks .down)
  | _ => none

/-- What the call has done, if the engine has failed no call. -/
def touched : Caller → List Touch
  | connect a p =>
    match p with
    | .waiting | .joining _ | .announcing | .recording => []
    | .building | .listening _ | .raising _ _ _ | .failing _ _ | .clearing _ _ => [.sets (some a)]
    | .raised _ _ _ | .observing _ | .spawning _ _ | .leaving _ (.ok _) | .finished (.ok _) =>
      [.sets (some a), .asks .up]
    | .leaving _ (.error _) | .finished (.error _) => [.sets (some a), .sets none]
  | disconnect p =>
    match p with
    | .announcing | .sleeping _ | .clearing => []
    | .lowering => [.sets none]
    | .lowered | .finished _ => [.sets none, .asks .down]
  | stop _ => []

theorem touched_ofRequest (r : Request) : (ofRequest r).touched = [] := by
  cases r with
  | disconnect announce => cases announce <;> rfl
  | _ => rfl

end Caller

def Label.Succeeds (l : Label) : Prop := ∀ i e, l ≠ .answer i (.error e)

/-- The list is made of the two others, each in its order. -/
inductive Interleaves {α : Type} : List α → List α → List α → Prop
  | nil : Interleaves [] [] []
  | left (x : α) {l r s : List α} (h : Interleaves l r s) : Interleaves (x :: l) r (x :: s)
  | right (x : α) {l r s : List α} (h : Interleaves l r s) : Interleaves l (x :: r) (x :: s)

theorem Interleaves.eq_of_nil {α : Type} {l r s : List α} (h : Interleaves l r s) :
    (l = [] → s = r) ∧ (r = [] → s = l) := by
  induction h with
  | nil => exact ⟨fun _ => rfl, fun _ => rfl⟩
  | left x h ih => exact ⟨nofun, fun hr => by rw [ih.2 hr]⟩
  | right x h ih => exact ⟨fun hl => by rw [ih.1 hl], nofun⟩

/-- Two things and two others can come in six orders. -/
theorem Interleaves.pairs {α : Type} {x x' y y' : α} {s : List α}
    (h : Interleaves [x, x'] [y, y'] s) :
    s = [x, x', y, y'] ∨ s = [x, y, x', y'] ∨ s = [x, y, y', x'] ∨
      s = [y, x, x', y'] ∨ s = [y, x, y', x'] ∨ s = [y, y', x, x'] := by
  cases h with
  | left _ h =>
    cases h with
    | left _ h => simp [h.eq_of_nil.1 rfl]
    | right _ h =>
      cases h with
      | left _ h => simp [h.eq_of_nil.1 rfl]
      | right _ h => simp [h.eq_of_nil.2 rfl]
  | right _ h =>
    cases h with
    | left _ h =>
      cases h with
      | left _ h => simp [h.eq_of_nil.1 rfl]
      | right _ h => simp [h.eq_of_nil.2 rfl]
    | right _ h => simp [h.eq_of_nil.2 rfl]

def doneBy {α : Type} (i : Nat) (s : List (Nat × α)) : List α :=
  s.filterMap fun p => if p.1 = i then some p.2 else none

/-- What two calls have done in turn is an interleaving of what each has done. -/
theorem interleaves_doneBy {α : Type} {i k : Nat} (hik : i ≠ k) {s : List (Nat × α)}
    (h : ∀ p ∈ s, p.1 = i ∨ p.1 = k) :
    Interleaves (doneBy i s) (doneBy k s) (s.map Prod.snd) := by
  induction s with
  | nil => exact .nil
  | cons p s ih =>
    obtain ⟨hp, hs⟩ := List.forall_mem_cons.mp h
    obtain hp | hp := hp
    · have hk : p.1 ≠ k := hp ▸ hik
      simp only [doneBy, List.filterMap_cons, if_pos hp, if_neg hk, List.map_cons]
      exact .left _ (ih hs)
    · have hi : p.1 ≠ i := hp ▸ hik.symm
      simp only [doneBy, List.filterMap_cons, if_pos hp, if_neg hi, List.map_cons]
      exact .right _ (ih hs)

namespace Machine

def touch? (m : Machine) : Label → Option (Nat × Touch)
  | .caller i => (m.callers[i]?.bind Caller.touch?).map fun x => (i, x)
  | _ => none

def touches (setup : Setup) : Machine → List Label → List (Nat × Touch)
  | _, [] => []
  | m, l :: ls =>
    match m.step setup l with
    | some m' => (m.touch? l).toList ++ m'.touches setup ls
    | none => []

/-- What call `i` has done, if the engine has failed no call. -/
def touchedBy (m : Machine) (i : Nat) : List Touch := m.callers[i]?.elim [] Caller.touched

variable {setup : Setup} {m₀ m m₁ m' : Machine} {i k : Nat} {a : Attempt} {c c' : Caller}
  {l : Label} {ls : List Label}

theorem touches_cons_of_step (h : m.step setup l = some m') :
    m.touches setup (l :: ls) = (m.touch? l).toList ++ m'.touches setup ls := by
  rw [touches, h]

theorem touch?_of_caller (hc : m.callers[i]? = some c) :
    m.touch? (.caller i) = c.touch?.map fun x => (i, x) := by
  rw [touch?, hc, Option.bind_some]

/-- The current attempt, and what the engine is asked for, are changed as it is said. -/
theorem current_and_targets_of_step (h : m.step setup l = some m') :
    m'.current = ((m.touch? l).bind fun p => p.2.sets?).getD m.current ∧
      m'.calls.map (·.call.target) =
        m.calls.map (·.call.target) ++ ((m.touch? l).bind fun p => p.2.asks?).toList := by
  cases move_of_step h with
  | caller hc hmove =>
    cases hmove with
    | connect hmove =>
      rw [touch?_of_caller hc]
      cases hmove with
      | announce | fail => simp [Caller.touch?, setCaller]
      | leave events => cases events <;> simp [Caller.touch?, setCaller, unsubscribe, unlock]
      | raise | record | clear =>
        simp [Caller.touch?, Touch.sets?, Touch.asks?, setCaller, callEngine]
      | _ => simp [Caller.touch?, setCaller, dismiss, spawn]
    | disconnect hmove =>
      rw [touch?_of_caller hc]
      cases hmove with
      | announce => simp [Caller.touch?, setCaller]
      | _ => simp [Caller.touch?, Touch.sets?, Touch.asks?, setCaller, callEngine]
    | stop hmove =>
      rw [touch?_of_caller hc]
      cases hmove <;> simp [Caller.touch?, setCaller, dismiss, unlock]
    | answer => simp [touch?, setCaller]
  | monitor ht hmove => simp [touch?, setMonitor, hmove.aside.current, hmove.aside.calls]
  | connectivity ht hmove => simp [touch?, hmove.aside.current, hmove.aside.calls]
  | _ => simp [touch?, enlist]

/-- What calls have done decides the current attempt and what the engine was asked. -/
theorem current_and_targets_of_run (h : m.run setup ls = some m') :
    m'.current =
        (((m.touches setup ls).map Prod.snd).filterMap Touch.sets?).getLast?.getD m.current ∧
      m'.calls.map (·.call.target) = m.calls.map (·.call.target) ++
        ((m.touches setup ls).map Prod.snd).filterMap Touch.asks? := by
  induction ls generalizing m with
  | nil =>
    cases h
    simp [touches]
  | cons l ls ih =>
    obtain ⟨m₁, hstep, hrest⟩ := Option.bind_eq_some_iff.mp h
    obtain ⟨hcurrent, htargets⟩ := current_and_targets_of_step hstep
    obtain ⟨hcurrent', htargets'⟩ := ih hrest
    rw [touches_cons_of_step hstep, hcurrent', htargets', hcurrent, htargets]
    cases m.touch? l with
    | none => simp
    | some p => cases hs : p.2.sets? <;> cases ha : p.2.asks? <;> simp [hs, ha, List.getLast?_cons]

theorem touchedBy_of_getElem? (hc : m.callers[i]? = some c) : m.touchedBy i = c.touched := by
  rw [touchedBy, hc, Option.elim_some]

theorem touch?_eq_none (hl : l.caller? = none) : m.touch? l = none := by
  cases l with
  | caller i => cases hl
  | _ => rfl

/-- By its step a call does what it is about to do. -/
theorem CallerMove.touched_eq (h : CallerMove setup m i l c c' m₁) (hc : m.callers[i]? = some c)
    (hl : l.Succeeds) : c'.touched = c.touched ++ doneBy i (m.touch? l).toList := by
  cases h with
  | connect hmove =>
    rw [touch?_of_caller hc]
    cases hmove with
    | leave events result => cases result <;> simp [Caller.touched, Caller.touch?, doneBy]
    | _ => simp [Caller.touched, Caller.touch?, doneBy]
  | disconnect hmove =>
    rw [touch?_of_caller hc]
    cases hmove <;> simp [Caller.touched, Caller.touch?, doneBy]
  | stop hmove =>
    rw [touch?_of_caller hc]
    cases hmove <;> simp [Caller.touched, Caller.touch?, doneBy]
  | answer hmove =>
    cases hmove with
    | retry => exact absurd rfl (hl _ _)
    | fail => exact absurd rfl (hl _ _)
    | _ => simp [Caller.touched, touch?, doneBy]

theorem touchedBy_of_step (h : m.step setup l = some m') (hl : l.Succeeds) (k : Nat) :
    m'.touchedBy k = m.touchedBy k ++ doneBy k (m.touch? l).toList := by
  cases callMove_of_step h with
  | call r =>
    have hnone : doneBy k (m.touch? (.call r)).toList = [] := rfl
    rw [hnone, List.append_nil, touchedBy, touchedBy, callers_enlist, List.getElem?_append]
    split
    next => rfl
    next hk =>
      rw [List.getElem?_eq_none (Nat.le_of_not_lt hk)]
      cases hnew : [Caller.ofRequest r][k - m.callers.length]? with
      | none => rfl
      | some c =>
        cases List.mem_singleton.mp (List.mem_of_getElem? hnew)
        exact Caller.touched_ofRequest r
  | @go _ i c c' m₁ hc hmove =>
    have hcallers := hmove.callers_eq
    by_cases hik : i = k
    · subst hik
      have hc' : (m₁.setCaller i c').callers[i]? = some c' := by
        rw [setCaller, hcallers]
        exact getElem?_set_self_of_eq_some hc
      rw [touchedBy_of_getElem? hc', touchedBy_of_getElem? hc]
      exact hmove.touched_eq hc hl
    · have hother : (m₁.setCaller i c').touchedBy k = m.touchedBy k := by
        rw [touchedBy, touchedBy, setCaller, hcallers, List.getElem?_set_ne hik]
      have hnone : doneBy k (m.touch? l).toList = [] := by
        cases l with
        | caller i' =>
          obtain rfl := Option.some.inj hmove.caller?
          cases hx : c.touch? <;> simp [touch?_of_caller hc, hx, doneBy, hik]
        | _ => rfl
      rw [hother, hnone, List.append_nil]
  | apart hcaller hcallers =>
    rw [touchedBy, touchedBy, hcallers, touch?_eq_none hcaller]
    exact (List.append_nil _).symm

/-- A call that the engine does not fail has done what its phase says. -/
theorem touchedBy_of_run (h : m.run setup ls = some m') (hls : ∀ l ∈ ls, l.Succeeds) (k : Nat) :
    m'.touchedBy k = m.touchedBy k ++ doneBy k (m.touches setup ls) := by
  induction ls generalizing m with
  | nil =>
    cases h
    exact (List.append_nil _).symm
  | cons l ls ih =>
    obtain ⟨m₁, hstep, hrest⟩ := Option.bind_eq_some_iff.mp h
    obtain ⟨hl, hls⟩ := List.forall_mem_cons.mp hls
    rw [touches_cons_of_step hstep, ih hrest hls, touchedBy_of_step hstep hl k, doneBy, doneBy,
      doneBy, List.filterMap_append, List.append_assoc]

/-- A call that has returned stays as it is. -/
theorem getElem?_of_run_of_hasReturned (h : m.run setup ls = some m')
    (hc : m.callers[i]? = some c) (hreturned : c.HasReturned) : m'.callers[i]? = some c := by
  refine run_induction (P := fun m => m.callers[i]? = some c) (fun _ hc hstep => ?_) hc h
  cases callMove_of_step hstep with
  | call r => exact getElem?_append_of_eq_some hc
  | @go _ k d d' m₁ hd hmove =>
    have hki : k ≠ i := by
      rintro rfl
      cases hc.symm.trans hd
      exact hmove.not_hasReturned hreturned
    rw [setCaller, hmove.callers_eq, List.getElem?_set_ne hki]
    exact hc
  | apart hl hcallers => exact hcallers ▸ hc

/-- The attempt is the current one if the engine was asked last to bring the interface up, and none
is if it was asked last to bring it down. -/
def Agrees (m : Machine) (a : Attempt) : Prop :=
  (m.calls.getLast?.map (·.call.target) = some .up → m.current = some a) ∧
    (m.calls.getLast?.map (·.call.target) = some .down → m.current = none)

/-- Where just two calls are made, the others having returned before, all that is done is done by
them. -/
theorem interleaves_touches (hfree : ∀ c ∈ m₀.callers, c.HasReturned)
    (hrun : m₀.run setup ls = some m) (hls : ∀ l ∈ ls, l.Succeeds)
    (hlength : m.callers.length = m₀.callers.length + 2) (hik : i ≠ k)
    (hi : m.callers[i]? = some c) (hi₀ : m₀.callers.length ≤ i)
    (hk : m.callers[k]? = some c') (hk₀ : m₀.callers.length ≤ k) :
    Interleaves c.touched c'.touched ((m₀.touches setup ls).map Prod.snd) := by
  have hnew : ∀ {j}, m₀.callers.length ≤ j →
      m.touchedBy j = doneBy j (m₀.touches setup ls) := by
    intro j hj
    rw [touchedBy_of_run hrun hls j, touchedBy, List.getElem?_eq_none hj]
    rfl
  have hdone : ∀ p ∈ m₀.touches setup ls, doneBy p.1 (m₀.touches setup ls) ≠ [] := by
    intro p hp hnone
    have hown := List.filterMap_eq_nil_iff.mp hnone p hp
    rw [if_pos rfl] at hown
    cases hown
  rw [← touchedBy_of_getElem? hi, ← touchedBy_of_getElem? hk, hnew hi₀, hnew hk₀]
  refine interleaves_doneBy hik fun p hp => ?_
  have hi' := (List.getElem?_eq_some_iff.mp hi).1
  have hk' := (List.getElem?_eq_some_iff.mp hk).1
  by_cases hold : p.1 < m₀.callers.length
  · -- a call that had returned has done nothing since
    have hc := List.getElem?_eq_getElem hold
    have hkept := getElem?_of_run_of_hasReturned hrun hc (hfree _ (List.getElem_mem hold))
    have hsame := touchedBy_of_run hrun hls p.1
    rw [touchedBy_of_getElem? hkept, touchedBy_of_getElem? hc] at hsame
    exact absurd (List.append_cancel_left ((List.append_nil _).trans hsame)).symm (hdone p hp)
  · by_cases hp' : p.1 < m.callers.length
    · omega
    · refine absurd ?_ (hdone p hp)
      rw [← hnew (Nat.le_of_not_lt hold), touchedBy, List.getElem?_eq_none (Nat.le_of_not_lt hp')]
      rfl

/-- A call connects, another disconnects, and the engine does all that it is asked. When both have
returned, the current attempt agrees with the engine, unless one of the calls has set it and asked
the engine between the two steps of the other. -/
theorem agrees_iff_of_run {r : Outcome} (hfree : ∀ c ∈ m₀.callers, c.HasReturned)
    (hrun : m₀.run setup ls = some m) (hls : ∀ l ∈ ls, l.Succeeds)
    (hlength : m.callers.length = m₀.callers.length + 2)
    (hi : m.callers[i]? = some (.connect a (.finished (.ok ())))) (hi₀ : m₀.callers.length ≤ i)
    (hk : m.callers[k]? = some (.disconnect (.finished r))) (hk₀ : m₀.callers.length ≤ k) :
    m.Agrees a ↔
      (m₀.touches setup ls).map Prod.snd ≠
          [.sets (some a), .sets none, .asks .down, .asks .up] ∧
        (m₀.touches setup ls).map Prod.snd ≠
          [.sets none, .sets (some a), .asks .up, .asks .down] := by
  have hik : i ≠ k := by
    rintro rfl
    cases hi.symm.trans hk
  have hinterleaves := interleaves_touches hfree hrun hls hlength hik hi hi₀ hk hk₀
  obtain ⟨hcurrent, htargets⟩ := current_and_targets_of_run hrun
  have hlast : m.calls.getLast?.map (·.call.target) =
      (m.calls.map (·.call.target)).getLast? := List.getLast?_map.symm
  rw [Agrees, hlast, htargets, hcurrent]
  generalize (m₀.touches setup ls).map Prod.snd = s at hinterleaves ⊢
  obtain rfl | rfl | rfl | rfl | rfl | rfl := hinterleaves.pairs <;>
    simp [List.filterMap_cons, Touch.sets?, Touch.asks?]

/-- A call disconnects between the two steps of one that connects. -/
def sampleDisconnectWithin : List Label :=
  [.call (.connect Client.sampleAttempt), .call (.disconnect false), .caller 0, .caller 0,
    .caller 0, .caller 1, .caller 1, .answer 1 (.ok ()), .caller 0, .caller 0, .caller 0,
    .answer 0 (.ok ()), .caller 0, .caller 0, .caller 0]

/-- A call connects between the two steps of one that disconnects. -/
def sampleConnectWithin : List Label :=
  [.call (.connect Client.sampleAttempt), .call (.disconnect false), .caller 1, .caller 0,
    .caller 0, .caller 0, .caller 0, .caller 0, .caller 0, .answer 0 (.ok ()), .caller 0, .caller 0,
    .caller 0, .caller 1, .answer 1 (.ok ())]

/-- Both ways of ending at odds are possible: the interface is up and no attempt is current, or it
is down and one is. -/
theorem disagrees_sample :
    ((idle Client.sampleSettings 16).run sampleSetup sampleDisconnectWithin).map
        (fun m => (m.callers.all (·.result?.any (·.isOk)), m.calls.getLast?.map (·.call.target),
          m.current)) = some (true, some .up, none) ∧
      ((idle Client.sampleSettings 16).run sampleSetup sampleConnectWithin).map
        (fun m => (m.callers.all (·.result?.any (·.isOk)), m.calls.getLast?.map (·.call.target),
          m.current)) = some (true, some .down, some Client.sampleAttempt) := by
  constructor <;> decide +kernel

end Machine

end VpnTunnel
