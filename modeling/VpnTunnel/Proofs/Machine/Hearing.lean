import Mathlib.Data.List.Destutter
import VpnTunnel.Proofs.Machine.Listening

/-!
# What a monitor hears, and what it shows of it

A monitor gets reports one at a time, and publishes what each means before it gets the next.
Whatever else it hears either ends it or has no consequence, and nothing that others hear has any.
-/

namespace VpnTunnel

/-- What a monitor learns when it looks for events. -/
inductive Heard where
  /-- Someone has told it to stop. -/
  | stop
  | delivery (d : Delivery EngineReport)
deriving DecidableEq, Repr

namespace Heard

def report? : Heard → Option EngineReport
  | delivery (.item e) => some e
  | _ => none

def ends : Heard → Bool
  | stop | delivery .closed => true
  | _ => false

end Heard

def Happening.handler? : Happening → Option Nat
  | handled j _ _ => some j
  | _ => none

namespace Monitor

def Runs (t : Monitor) : Prop := t.phase ≠ .joining ∧ t.phase ≠ .done

def inHand (t : Monitor) : List EngineReport :=
  match t.phase with
  | .handling e => [e]
  | _ => []

variable {t : Monitor}

theorem Runs.isAlive (h : t.Runs) : t.IsAlive := h.2

theorem inHand_eq_nil (h : ∀ e, t.phase ≠ .handling e) : t.inHand = [] := by
  unfold inHand
  split
  next e hphase => exact absurd hphase (h e)
  next => rfl

theorem inHand_of_not_runs (h : ¬ t.Runs) : t.inHand = [] := by
  refine inHand_eq_nil fun e hphase => h ⟨?_, ?_⟩ <;> simp [hphase]

end Monitor

/-- The changes of a value that is given the values of a list in turn: a value equal to the one
before it is no change. -/
def changesFrom {α : Type} [DecidableEq α] (a : α) (l : List α) : List α :=
  (l.destutter' (· ≠ ·) a).tail

section Changes

variable {α : Type} [DecidableEq α] {a b : α} {l l' : List α}

theorem destutter'_eq_cons (a : α) (l : List α) :
    l.destutter' (· ≠ ·) a = a :: changesFrom a l := by
  induction l with
  | nil => rfl
  | cons b l ih =>
    by_cases h : a = b
    · rw [changesFrom, List.destutter'_cons_neg _ (not_not_intro h), ih]
      rfl
    · rw [changesFrom, List.destutter'_cons_pos _ h]
      rfl

theorem changesFrom_cons_of_eq (h : b = a) : changesFrom a (b :: l) = changesFrom a l := by
  rw [changesFrom, List.destutter'_cons_neg _ (not_not_intro h.symm)]
  rfl

theorem changesFrom_cons_of_ne (h : b ≠ a) : changesFrom a (b :: l) = b :: changesFrom b l := by
  rw [changesFrom, List.destutter'_cons_pos _ h.symm, List.tail_cons, destutter'_eq_cons]

/-- The changes go on from the last value. -/
theorem changesFrom_append :
    changesFrom a (l ++ l') = changesFrom a l ++ changesFrom (l.getLastD a) l' := by
  induction l generalizing a with
  | nil => rfl
  | cons b l ih =>
    rw [List.cons_append, List.getLastD_cons]
    by_cases h : b = a
    · subst h
      rw [changesFrom_cons_of_eq rfl, changesFrom_cons_of_eq rfl, ih]
    · rw [changesFrom_cons_of_ne h, changesFrom_cons_of_ne h, ih, List.cons_append]

theorem append_changesFrom_singleton (l : List α) (a b : α) :
    l ++ changesFrom a [b] = if b = a then l else l ++ [b] := by
  split
  next h => rw [changesFrom_cons_of_eq h]; exact List.append_nil l
  next h => rw [changesFrom_cons_of_ne h]; rfl

end Changes

namespace Machine

def hears? (m : Machine) (t : Monitor) : Option Heard :=
  match t.phase with
  | .polling => if t.told then some .stop else none
  | .receiving => (m.events.receive? t.events).map fun d => .delivery d.1
  | _ => none

def heard? (m : Machine) (j : Nat) : Label → Option Heard
  | .monitor k => if k = j then m.monitors[j]?.bind m.hears? else none
  | _ => none

/-- All that monitor `j` learns in a run. -/
def hearing (setup : Setup) (j : Nat) : Machine → List Label → List Heard
  | _, [] => []
  | m, l :: ls =>
    match m.step setup l with
    | some m' => (m.heard? j l).toList ++ m'.hearing setup j ls
    | none => []

/-- What the reports mean has been published in turn, and nothing else. -/
structure Shows (es : List EngineReport) (m m' : Machine) : Prop where
  state : m'.state = (es.map TunnelStatus.ofReport).getLastD m.state
  changes : m'.changes = m.changes ++ changesFrom m.state (es.map TunnelStatus.ofReport)

variable {setup : Setup} {m m₁ m' : Machine} {j : Nat} {t t₁ t' : Monitor} {l : Label}
  {ls : List Label} {es es' : List EngineReport} {hs hs' : List Heard}

theorem hearing_cons_of_step (h : m.step setup l = some m') :
    m.hearing setup j (l :: ls) = (m.heard? j l).toList ++ m'.hearing setup j ls := by
  rw [hearing, h]

theorem heard?_monitor (ht : m.monitors[j]? = some t) : m.heard? j (.monitor j) = m.hears? t := by
  rw [heard?, if_pos rfl, ht, Option.bind_some]

theorem heard?_eq_none (hl : l ≠ .monitor j) : m.heard? j l = none := by
  cases l with
  | monitor k => exact if_neg fun h => hl (congrArg Label.monitor h)
  | _ => rfl

theorem Shows.of_eq (hstate : m'.state = m.state) (hchanges : m'.changes = m.changes) :
    Shows [] m m' :=
  ⟨hstate, hchanges.trans (List.append_nil _).symm⟩

/-- What is shown in turn is shown together. -/
theorem Shows.trans (h : Shows es m m₁) (h' : Shows es' m₁ m') : Shows (es ++ es') m m' where
  state := by
    rw [h'.state, h.state, List.map_append, List.getLastD_eq_getLast?, List.getLastD_eq_getLast?,
      List.getLastD_eq_getLast?, List.getLast?_append]
    cases (es'.map TunnelStatus.ofReport).getLast? <;> rfl
  changes := by
    rw [h'.changes, h.changes, h.state, List.map_append, changesFrom_append, List.append_assoc]

theorem changes_publish (m : Machine) (s : TunnelStatus) :
    (m.publish s).changes = m.changes ++ changesFrom m.state [s] := by
  rw [append_changesFrom_singleton, publish]
  split <;> rfl

/-- A step changes what is published as its place in the chronicle says, and not otherwise. -/
theorem changes_of_step (h : m.step setup l = some m') :
    m'.changes =
      m.changes ++ changesFrom m.state ((m.happening? setup l).bind Happening.publishes?).toList := by
  cases move_of_step h with
  | caller hc hmove =>
    cases hmove with
    | connect hmove =>
      simp only [happening?_connect hc, setCaller]
      cases hmove with
      | announce | fail => exact changes_publish ..
      | leave events => cases events <;> exact (List.append_nil _).symm
      | _ => exact (List.append_nil _).symm
    | disconnect hmove =>
      simp only [happening?_disconnect hc, setCaller]
      cases hmove with
      | announce => exact changes_publish ..
      | _ => exact (List.append_nil _).symm
    | stop hmove =>
      simp only [happening?_stop hc, setCaller]
      cases hmove <;> exact (List.append_nil _).symm
    | answer => exact (List.append_nil _).symm
  | monitor ht hmove =>
    simp only [happening?_monitor ht, monitorHappening?, setMonitor]
    cases hmove with
    | handle e hphase =>
      simp only [hphase]
      exact changes_publish ..
    | _ => simp [*, Happening.publishes?, changesFrom]
  | connectivity ht hmove => cases hmove <;> exact (List.append_nil _).symm
  | emit e => simp only [happening?]; split <;> exact (List.append_nil _).symm
  | _ => exact (List.append_nil _).symm

theorem filterMap_toList {α β : Type} {f : α → Option β} {x : Option α} :
    x.toList.filterMap f = (x.bind f).toList := by
  cases x with
  | none => rfl
  | some a => cases h : f a <;> simp [h]

/-- A step that is not published shows nothing. -/
theorem shows_nil_of_step (h : m.step setup l = some m')
    (hsilent : ∀ x ∈ m.happening? setup l, x.publishes? = none) : Shows [] m m' := by
  have hnone : (m.happening? setup l).bind Happening.publishes? = none := by
    cases hx : m.happening? setup l with
    | none => rfl
    | some x => exact hsilent x hx
  refine .of_eq ?_ ?_
  · rw [state_of_step h, hnone, Option.getD_none]
  · rw [changes_of_step h, hnone]
    exact List.append_nil _

/-- Monitor `j` publishes, and nobody else. -/
def SoleWriter (j : Nat) (c : List Happening) : Prop :=
  ∀ x ∈ c, x.publishes? ≠ none → x.handler? = some j

instance (j : Nat) (c : List Happening) : Decidable (SoleWriter j c) :=
  inferInstanceAs (Decidable (∀ x ∈ c, x.publishes? ≠ none → x.handler? = some j))

/-- From the machine `m` to `m'` monitor `j` has gone on from `t` to `t'`. It has heard `hs`, and
shown the reports `es`. -/
structure Course (m : Machine) (t : Monitor) (hs : List Heard) (es : List EngineReport)
    (m' : Machine) (t' : Monitor) : Prop where
  events : t'.events = t.events
  /-- It has shown what it had in hand, and has got since, but for what it has in hand now. -/
  hand : t.inHand ++ hs.filterMap Heard.report? = es ++ t'.inHand
  shows : Shows es m m'
  runs : t'.Runs ↔ t.Runs ∧ ∀ x ∈ hs, x.ends = false

namespace Course

theorem refl (m : Machine) (t : Monitor) : Course m t [] [] m t :=
  ⟨rfl, by simp, .of_eq rfl rfl, by simp⟩

/-- A course goes on where the monitor goes on. -/
theorem trans (h : Course m t hs es m₁ t₁) (h' : Course m₁ t₁ hs' es' m' t') :
    Course m t (hs ++ hs') (es ++ es') m' t' where
  events := h'.events.trans h.events
  hand := by
    rw [List.filterMap_append, ← List.append_assoc, h.hand, List.append_assoc, h'.hand,
      List.append_assoc]
  shows := h.shows.trans h'.shows
  runs := by rw [h'.runs, h.runs, List.forall_mem_append, and_assoc]

end Course

/-- By a step of its own a monitor shows what it has in hand, and has in hand then what it gets. -/
theorem MonitorMove.course (hmove : MonitorMove m t t' m₁) (j : Nat) :
    Course m t (m.hears? t).toList t.inHand (m₁.setMonitor j t') t' := by
  cases hmove with
  | handle e hphase =>
    have hhand : t.inHand = [e] := by simp [Monitor.inHand, hphase]
    rw [hhand]
    refine ⟨rfl, ?hand, ?shows, ?runs⟩
    case hand => simp [Monitor.inHand, hears?, hphase]
    case shows => exact ⟨state_publish .., changes_publish ..⟩
    case runs => simp [Monitor.Runs, hears?, hphase]
  | _ =>
    refine ⟨rfl, ?hand, ?shows, ?runs⟩
    case hand => simp [Monitor.inHand, hears?, Heard.report?, windDown, *]
    case shows => simp [Monitor.inHand, Shows.of_eq, setMonitor, *]
    case runs => simp [Monitor.Runs, hears?, Heard.ends, windDown, *]

/-- While nobody else publishes, every step takes a monitor on along its course. -/
theorem course_of_step (h : m.step setup l = some m') (ht : m.monitors[j]? = some t)
    (hsole : SoleWriter j (m.happening? setup l).toList) :
    ∃ t' es, m'.monitors[j]? = some t' ∧ Course m t (m.heard? j l).toList es m' t' := by
  by_cases hl : l = .monitor j
  · subst hl
    obtain ⟨t', m₁, hmove, rfl, ht'⟩ := exists_of_step_monitor h ht
    refine ⟨t', t.inHand, ht', ?_⟩
    rw [heard?_monitor ht]
    exact hmove.course j
  · obtain ⟨t', ht', hphase, hevents⟩ := exists_monitor_of_step h hl ht
    have hsilent : ∀ x ∈ m.happening? setup l, x.publishes? = none := by
      intro x hx
      by_contra hpublishes
      have hhandler := hsole x (Option.mem_toList.mpr hx) hpublishes
      cases happens_of_happening? hx with
      | handled hu hphase => exact hl (congrArg Label.monitor (Option.some.inj hhandler))
      | _ => cases hhandler
    refine ⟨t', [], ht', hevents, ?_, shows_nil_of_step h hsilent, ?_⟩
    · simp [heard?_eq_none hl, Monitor.inHand, hphase]
    · simp [heard?_eq_none hl, Monitor.Runs, hphase]

/-- Whatever happens while monitor `j` alone publishes, it shows the reports that it gets, in their
order. -/
theorem course_of_run (hrun : m.run setup ls = some m') (ht : m.monitors[j]? = some t)
    (hsole : SoleWriter j (m.chronicle setup ls)) :
    ∃ t' es, m'.monitors[j]? = some t' ∧ Course m t (m.hearing setup j ls) es m' t' := by
  induction ls generalizing m t with
  | nil =>
    cases hrun
    exact ⟨t, [], ht, .refl _ t⟩
  | cons l ls ih =>
    obtain ⟨m₁, hstep, hrest⟩ := Option.bind_eq_some_iff.mp hrun
    rw [chronicle_cons_of_step hstep] at hsole
    obtain ⟨hfirst, hlater⟩ := List.forall_mem_append.mp hsole
    obtain ⟨t₁, es, ht₁, hcourse⟩ := course_of_step hstep ht hfirst
    obtain ⟨t', es', ht', hcourse'⟩ := ih hrest ht₁ hlater
    rw [hearing_cons_of_step hstep]
    exact ⟨t', es ++ es', ht', hcourse.trans hcourse'⟩

/-- A monitor that follows events no more hears nothing. -/
theorem hearing_eq_nil (hrun : m.run setup ls = some m') (ht : m.monitors[j]? = some t)
    (hnot : ¬ t.Runs) : m.hearing setup j ls = [] := by
  induction ls generalizing m t with
  | nil => rfl
  | cons l ls ih =>
    obtain ⟨m₁, hstep, hrest⟩ := Option.bind_eq_some_iff.mp hrun
    rw [hearing_cons_of_step hstep]
    by_cases hl : l = .monitor j
    · subst hl
      obtain ⟨t', m₂, hmove, rfl, ht'⟩ := exists_of_step_monitor hstep ht
      have hcourse := hmove.course j
      have hnone : m.hears? t = none := by
        unfold hears?
        split <;> first | rfl | exact absurd ⟨by simp [*], by simp [*]⟩ hnot
      rw [heard?_monitor ht, hnone, ih hrest ht' fun h => hnot (hcourse.runs.mp h).1]
      rfl
    · obtain ⟨t', ht', hphase, -⟩ := exists_monitor_of_step hstep hl ht
      rw [heard?_eq_none hl, ih hrest ht' (by simpa [Monitor.Runs, hphase] using hnot)]
      rfl

end Machine

end VpnTunnel
