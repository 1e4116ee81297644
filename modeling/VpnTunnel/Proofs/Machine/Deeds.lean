import VpnTunnel.Proofs.Machine.Chronicle
import VpnTunnel.Proofs.Machine.Turns

/-!
# Deeds

The deeds of a call are what it brings about. They are as the call's own phase says, whatever others
do in the meantime: with its steps the call adds to them, and no one else does.
-/

namespace VpnTunnel

namespace Happening

def starts? : Happening → Option Nat
  | started i _ _ => some i
  | _ => none

end Happening

/-- What the call has brought about. -/
def deeds (i : Nat) (h : List Happening) : List Happening := h.filter (·.caller? = some i)

section Lists

variable {i : Nat} {h g : List Happening} {x : Option Happening}

theorem deeds_append : deeds i (h ++ g) = deeds i h ++ deeds i g := List.filter_append ..

theorem deeds_eq_self (hx : ∀ y ∈ x, y.caller? = some i) : deeds i x.toList = x.toList :=
  List.filter_eq_self.mpr fun y hy => decide_eq_true (hx y (Option.mem_toList.mp hy))

theorem deeds_eq_nil (hx : ∀ y ∈ x, y.caller? ≠ some i) : deeds i x.toList = [] :=
  List.filter_eq_nil_iff.mpr fun y hy => by simpa using hx y (Option.mem_toList.mp hy)

end Lists

namespace Caller

/-- The call has connected: it is sure to return without a failure, or has. -/
def hasConnected : Caller → Bool
  | connect _ (.leaving _ (.ok _)) | connect _ (.finished (.ok _)) => true
  | _ => false

def isAdmitted : Caller → Bool
  | connect _ .waiting | stop .waiting | disconnect _ => false
  | _ => true

end Caller

namespace Machine

variable {setup : Setup} {m m₁ m' : Machine} {i k : Nat} {c c' : Caller} {h ds : List Happening}
  {l : Label} {ls : List Label} {Q : Nat → List Happening → Caller → Prop}

/-- What is true of the deeds of a new call, and stays true when the call goes on. -/
structure Local (setup : Setup) (Q : Nat → List Happening → Caller → Prop) : Prop where
  call : ∀ i r, Q i [] (.ofRequest r)
  go : ∀ {m l i c c' m₁ ds}, m.callers[i]? = some c → CallerMove setup m i l c c' m₁ → Q i ds c →
    Q i (ds ++ (m.happening? setup l).toList) c'

/-- The deeds of the calls are as their phases say, and there are no others. -/
structure Deeds (Q : Nat → List Happening → Caller → Prop) (h : List Happening) (m : Machine) :
    Prop where
  fresh : ∀ {i}, m.callers[i]? = none → deeds i h = []
  own : ∀ {i c}, m.callers[i]? = some c → Q i (deeds i h) c

theorem deeds_idle (Q : Nat → List Happening → Caller → Prop) (settings : Settings)
    (capacity : Nat) : Deeds Q [] (idle settings capacity) where
  fresh _ := rfl
  own h := by simp [idle] at h

/-- A step of one call leaves the deeds of another. -/
theorem deeds_of_ne (hi : l.caller? ≠ some i) :
    deeds i (h ++ (m.happening? setup l).toList) = deeds i h := by
  rw [deeds_append, deeds_eq_nil, List.append_nil]
  intro y hy
  rw [caller?_of_happening? hy]
  exact hi

/-- A step of the call adds to its deeds what is of note in it. -/
theorem deeds_of_eq (hi : l.caller? = some i) :
    deeds i (h ++ (m.happening? setup l).toList) =
      deeds i h ++ (m.happening? setup l).toList := by
  rw [deeds_append, deeds_eq_self]
  intro y hy
  rw [caller?_of_happening? hy, hi]

namespace Deeds

theorem of_eq (hm : Deeds Q h m) (hcs : m₁.callers = m.callers) (hl : l.caller? = none) :
    Deeds Q (h ++ (m.happening? setup l).toList) m₁ where
  fresh hi := by
    rw [deeds_of_ne (by rw [hl]; nofun)]
    exact hm.fresh (hcs ▸ hi)
  own hi := by
    rw [deeds_of_ne (by rw [hl]; nofun)]
    exact hm.own (hcs ▸ hi)

/-- What each call keeps in its own steps, every step keeps for all calls. -/
theorem step (hQ : Local setup Q) (hm : Deeds Q h m) (hstep : m.step setup l = some m') :
    Deeds Q (h ++ (m.happening? setup l).toList) m' := by
  cases callMove_of_step hstep with
  | call r =>
    simp only [happening?, Option.toList_none, List.append_nil]
    refine ⟨fun {i} hi => ?_, fun {i c} hi => ?_⟩
    · rw [callers_enlist, List.getElem?_append] at hi
      split at hi
      · exact hm.fresh hi
      next hle => exact hm.fresh (List.getElem?_eq_none (Nat.le_of_not_lt hle))
    · obtain ⟨-, hi⟩ | ⟨rfl, rfl⟩ := getElem?_append_singleton_eq_some hi
      · exact hm.own hi
      · rw [hm.fresh (List.getElem?_eq_none (Nat.le_refl _))]
        exact hQ.call _ r
  | @go _ k c c' m₁ hc hmove =>
    simp only [setCaller, hmove.callers_eq]
    refine ⟨fun {i} hi => ?_, fun {i d} hi => ?_⟩
    · have hik : i ≠ k := by
        rintro rfl
        simp [getElem?_set_self_of_eq_some hc] at hi
      rw [List.getElem?_set_ne (Ne.symm hik)] at hi
      rw [deeds_of_ne (by rw [hmove.caller?]; simpa using Ne.symm hik)]
      exact hm.fresh hi
    · obtain ⟨rfl, rfl⟩ | ⟨hik, hi⟩ := getElem?_set_eq_some hi
      · rw [deeds_of_eq hmove.caller?]
        exact hQ.go hc hmove (hm.own hc)
      · rw [deeds_of_ne (by rw [hmove.caller?]; simpa using Ne.symm hik)]
        exact hm.own hi
  | apart hl hcallers => exact hm.of_eq hcallers hl

/-- What each call keeps in its own steps, every run keeps for all calls. -/
theorem run (hQ : Local setup Q) (hm : Deeds Q h m) (hrun : m.run setup ls = some m') :
    Deeds Q (h ++ m.chronicle setup ls) m' :=
  chronicle_induction (fun _ hm hstep => hm.step hQ hstep) hm hrun

end Deeds

/-- A call that waits for the lock has done nothing. It gets the lock once, and starts a monitor
once if it connects. -/
structure Performs (i : Nat) (ds : List Happening) (c : Caller) : Prop where
  waits : c.Waits → ds = []
  admitted : ds.filterMap Happening.admits? = if c.isAdmitted then [i] else []
  started : ds.filterMap Happening.starts? = if c.hasConnected then [i] else []

/-- New deeds that make up for the difference of the phases keep the two in accord. -/
theorem Performs.go {g : List Happening} (hds : Performs i ds c) (hwaits : ¬ c'.Waits)
    (hadmitted : (if c.isAdmitted then [i] else []) ++ g.filterMap Happening.admits? =
      if c'.isAdmitted then [i] else [])
    (hstarted : (if c.hasConnected then [i] else []) ++ g.filterMap Happening.starts? =
      if c'.hasConnected then [i] else []) : Performs i (ds ++ g) c' where
  waits h := absurd h hwaits
  admitted := by rw [List.filterMap_append, hds.admitted, hadmitted]
  started := by rw [List.filterMap_append, hds.started, hstarted]

/-- A call gets the lock once at most, and starts one monitor at most. -/
theorem performs_local (setup : Setup) : Local setup Performs where
  call i r := by cases r <;> exact ⟨fun _ => rfl, rfl, rfl⟩
  go := by
    intro m l i c c' m₁ ds hc hmove hds
    cases hmove with
    | connect hmove =>
      simp only [happening?_connect hc]
      cases hmove with
      | leave events result => cases result <;> exact hds.go id rfl rfl
      | _ => exact hds.go id rfl rfl
    | disconnect hmove =>
      simp only [happening?_disconnect hc]
      cases hmove <;> exact hds.go id rfl rfl
    | stop hmove =>
      simp only [happening?_stop hc]
      cases hmove <;> exact hds.go id rfl rfl
    | answer hmove => cases hmove <;> exact hds.go id rfl rfl

end Machine

end VpnTunnel
