import VpnTunnel.Proofs.Machine.Deeds
import VpnTunnel.Proofs.Machine.Ending
import VpnTunnel.Proofs.Machine.Reception

/-!
# Who publishes

A call that is to connect announces it when every monitor of an earlier call has ended. From then on
what is published is that call's failure, or is published by the monitor that the call has started,
for a report of the engine that came after the call had subscribed. Only news that the tunnel is
disabled may come from elsewhere: a call that disconnects takes no lock.
-/

namespace VpnTunnel

namespace Happening

def announces? : Happening → Option Nat
  | announced i => some i
  | _ => none

end Happening

def announcer? (h : List Happening) : Option Nat := (h.filterMap Happening.announces?).getLast?

/-- What has happened since a call last announced that it is connecting, or from the start. -/
def sinceAnnounced (h : List Happening) : List Happening :=
  (h.reverse.takeWhile (·.announces?.isNone)).reverse

/-- A place in a list with one more at its end is the last, or is one of the list. -/
theorem eq_or_of_append_singleton_eq {α : Type} {l l₁ l₂ : List α} {x y : α}
    (h : l ++ [x] = l₁ ++ y :: l₂) : l = l₁ ∧ x = y ∨ ∃ l₂', l = l₁ ++ y :: l₂' := by
  obtain rfl | ⟨l₂', z, rfl⟩ := List.eq_nil_or_concat l₂
  · exact .inl (List.append_inj' h rfl |>.imp_right List.head_eq_of_cons_eq)
  · rw [List.concat_eq_append, ← List.cons_append, ← List.append_assoc] at h
    exact .inr ⟨l₂', (List.append_inj' h rfl).1⟩

theorem exists_announced {x : Option Happening} (h : ¬ ∀ y ∈ x.toList, y.announces? = none) :
    ∃ i, x = some (.announced i) := by
  cases x with
  | none => exact absurd (List.forall_mem_nil _) h
  | some y =>
    cases y with
    | announced i => exact ⟨i, rfl⟩
    | _ => exact absurd (by simp [Happening.announces?]) h

section Since

variable {h g : List Happening} {i : Nat}

@[simp] theorem announcer?_announced : announcer? (h ++ [.announced i]) = some i := by
  simp [announcer?, Happening.announces?]

@[simp] theorem sinceAnnounced_announced : sinceAnnounced (h ++ [.announced i]) = [] := by
  simp [sinceAnnounced, Happening.announces?]

theorem announcer?_append (hg : ∀ x ∈ g, x.announces? = none) :
    announcer? (h ++ g) = announcer? h := by
  simp [announcer?, List.filterMap_eq_nil_iff.mpr hg]

/-- What is no announcement comes behind the others since the last one. -/
theorem sinceAnnounced_append (hg : ∀ x ∈ g, x.announces? = none) :
    sinceAnnounced (h ++ g) = sinceAnnounced h ++ g := by
  rw [sinceAnnounced, List.reverse_append, List.takeWhile_append_of_pos, List.reverse_append,
    List.reverse_reverse, ← sinceAnnounced]
  intro x hx
  simp [hg x (List.mem_reverse.mp hx)]

theorem sinceAnnounced_suffix (h : List Happening) : sinceAnnounced h <:+ h := by
  have hprefix := List.reverse_suffix.mpr
    (List.takeWhile_prefix (l := h.reverse) (p := (·.announces?.isNone)))
  rwa [List.reverse_reverse] at hprefix

end Since

/-- After what has happened, this is no surprise: who publishes a failure was the last to announce,
and a monitor publishes what was reported to it after the last call to announce had subscribed for
it. -/
inductive Warranted (h : List Happening) : Happening → Prop
  | announced (i : Nat) : Warranted h (.announced i)
  | disabled (i : Nat) : Warranted h (.disabled i)
  | failed (i : Nat) (e : CallFailure) (hlatest : announcer? h = some i) :
    Warranted h (.failed i e)
  | handled (i r start j place : Nat) (e : EngineReport) (hlatest : announcer? h = some i)
    (hstarted : .started i j r ∈ sinceAnnounced h) (hle : start ≤ place)
    (hsent : [.subscribed i r start, .emitted place e].Sublist (sinceAnnounced h)) :
    Warranted h (.handled j place e)
  | silent (x : Happening) (hx : x.publishes? = none) : Warranted h x

/-- The call was the last to announce, and has not started a monitor; the receiver that it has, it
has got since. -/
structure Opened (h : List Happening) (i : Nat) (events : Option Nat) : Prop where
  latest : announcer? h = some i
  unstarted : ∀ x ∈ sinceAnnounced h, x.starts? = none
  subscribed : ∀ r, events = some r → ∃ start, .subscribed i r start ∈ sinceAnnounced h

def ConnectPhase.Follows (h : List Happening) (i : Nat) : ConnectPhase → Prop
  | .recording | .building | .listening _ => Opened h i none
  | .raising _ r _ | .raised _ r _ | .observing r | .spawning r _ => Opened h i (some r)
  | .failing _ r | .clearing _ r => Opened h i r
  | .leaving r (.ok _) => r = none
  | .waiting | .joining _ | .announcing | .leaving _ (.error _) | .finished _ => True

/-- A monitor that has not ended was started by the last call to announce, with the receiver that
this has got; what the monitor is about to publish was sent to it. -/
structure Monitor.Follows (h : List Happening) (b : Broadcast EngineReport) (i start j : Nat)
    (t : Monitor) : Prop where
  latest : announcer? h = some i
  subscribed : .subscribed i t.events start ∈ sinceAnnounced h
  started : .started i j t.events ∈ sinceAnnounced h
  pending : ∀ e, t.phase = .handling e →
    ∃ p, start ≤ p ∧ b.receivers[t.events]? = some (some (p + 1)) ∧ b.sent[p]? = some e

def Happening.IsPlain (x : Happening) : Prop := x.announces? = none ∧ x.starts? = none

section Append

variable {h g : List Happening} {i j start : Nat} {r : Option Nat} {p : ConnectPhase}
  {b b' : Broadcast EngineReport} {t t' : Monitor}

theorem Opened.append (hi : Opened h i r) (hg : ∀ x ∈ g, x.IsPlain) : Opened (h ++ g) i r where
  latest := (announcer?_append fun x hx => (hg x hx).1).trans hi.latest
  unstarted x hx := by
    rw [sinceAnnounced_append fun x hx => (hg x hx).1] at hx
    exact (List.mem_append.mp hx).elim (hi.unstarted x) fun hx => (hg x hx).2
  subscribed r hr := by
    obtain ⟨start, hstart⟩ := hi.subscribed r hr
    rw [sinceAnnounced_append fun x hx => (hg x hx).1]
    exact ⟨start, List.mem_append_left g hstart⟩

theorem ConnectPhase.Follows.append (hp : p.Follows h i) (hg : ∀ x ∈ g, x.IsPlain) :
    p.Follows (h ++ g) i := by
  cases p with
  | leaving r result => cases result <;> exact hp
  | waiting | joining | announcing | finished => trivial
  | _ => exact Opened.append hp hg

theorem ConnectPhase.follows_of_lock_eq_false (hp : p.holding.lock = false) : p.Follows h i := by
  cases p with
  | leaving r result => cases result <;> cases hp
  | waiting | joining | announcing | finished => trivial
  | _ => cases hp

/-- A call that has subscribed starts a monitor with its receiver. -/
theorem Opened.follows_of_started {r : Nat} (hi : Opened h i (some r)) (j network : Nat) :
    ∃ start, Monitor.Follows (h ++ [.started i j r]) b i start j
      ⟨r, network, false, .spawned, .unborn⟩ := by
  have hg : ∀ x ∈ [Happening.started i j r], x.announces? = none := by
    simp [Happening.announces?]
  obtain ⟨start, hstart⟩ := hi.subscribed r rfl
  refine ⟨start, (announcer?_append hg).trans hi.latest, ?_, ?_, nofun⟩ <;>
    rw [sinceAnnounced_append hg]
  · exact List.mem_append_left _ hstart
  · exact List.mem_append_right _ (.head _)

/-- A monitor goes on in what it follows, if what it is about to publish was sent to it. -/
theorem Monitor.Follows.append (ht : t.Follows h b i start j) (hg : ∀ x ∈ g, x.IsPlain)
    (hevents : t'.events = t.events)
    (hpending : ∀ e, t'.phase = .handling e →
      ∃ p, start ≤ p ∧ b'.receivers[t.events]? = some (some (p + 1)) ∧ b'.sent[p]? = some e) :
    t'.Follows (h ++ g) b' i start j where
  latest := (announcer?_append fun x hx => (hg x hx).1).trans ht.latest
  subscribed := by
    rw [sinceAnnounced_append fun x hx => (hg x hx).1, hevents]
    exact List.mem_append_left g ht.subscribed
  started := by
    rw [sinceAnnounced_append fun x hx => (hg x hx).1, hevents]
    exact List.mem_append_left g ht.started
  pending := by rw [hevents]; exact hpending

/-- A monitor goes on in what it follows, if it does not take up anything, and the receivers stay
where they are. -/
theorem Monitor.Follows.keep (ht : t.Follows h b i start j) (hg : ∀ x ∈ g, x.IsPlain)
    (hevents : t'.events = t.events) (hphase : ∀ e, t'.phase = .handling e → t.phase = .handling e)
    (hb : b.Extends b') : t'.Follows (h ++ g) b' i start j := by
  refine ht.append hg hevents fun e he => ?_
  obtain ⟨p, hle, hp, hsent⟩ := ht.pending e (hphase e he)
  exact ⟨p, hle, hb.receivers hp, hb.sent hsent⟩

end Append

namespace Machine

variable {setup : Setup} {m m₁ m' : Machine} {i j : Nat} {a : Attempt} {c c' : Caller}
  {t t' : Monitor} {h : List Happening} {l : Label} {ls : List Label}

/-- Whatever is published is warranted by what has happened before, and whoever may publish is about
to publish what is. -/
structure Authored (h : List Happening) (m : Machine) : Prop where
  calls : ∀ {i a p}, m.callers[i]? = some (Caller.connect a p) → p.Follows h i
  monitors : ∀ {j} {t : Monitor}, m.monitors[j]? = some t → t.IsAlive →
    ∃ i start, t.Follows h m.events i start j
  tracked : Tracked (sinceAnnounced h) m.events
  /-- A monitor that was started since is the last to have been started. -/
  newest : ∀ {i j r}, .started i j r ∈ sinceAnnounced h →
    m.monitors.length = j + 1 ∧ (h.filterMap Happening.starts?).getLast? = some i
  warranted : ∀ {g x g'}, h = g ++ x :: g' → Warranted g x

theorem authored_idle (settings : Settings) (capacity : Nat) :
    Authored [] (idle settings capacity) where
  calls := by simp [idle]
  monitors := by simp [idle]
  tracked := .nil _
  newest h := by simp [sinceAnnounced] at h
  warranted h := by simp at h

/-- Only a call to connect makes announcements and starts monitors. -/
theorem isPlain_of_happening? (hl : ∀ i, l ≠ .caller i) :
    ∀ x ∈ (m.happening? setup l).toList, x.IsPlain := by
  intro x hx
  cases happens_of_happening? (Option.mem_toList.mp hx) with
  | answered | emitted | handled | ended => exact ⟨rfl, rfl⟩
  | _ => exact absurd rfl (hl _)

theorem isPlain_connectHappening? {p : ConnectPhase} (hannounce : p ≠ .announcing)
    (hspawn : ∀ events network, p ≠ .spawning events network) :
    ∀ x ∈ (m.connectHappening? setup i p).toList, x.IsPlain := by
  cases p with
  | announcing => exact absurd rfl hannounce
  | spawning events network => exact absurd rfl (hspawn events network)
  | _ => simp [connectHappening?, Happening.IsPlain, Happening.announces?, Happening.starts?]

theorem isPlain_disconnectHappening? {p : DisconnectPhase} :
    ∀ x ∈ (disconnectHappening? setup i p).toList, x.IsPlain := by
  cases p <;>
    simp [disconnectHappening?, Happening.IsPlain, Happening.announces?, Happening.starts?]

theorem isPlain_stopHappening? {p : StopPhase} :
    ∀ x ∈ (stopHappening? i p).toList, x.IsPlain := by
  cases p <;> simp [stopHappening?, Happening.IsPlain, Happening.announces?, Happening.starts?]

/-- A call to connect goes on as its phase says. -/
theorem ConnectMove.follows {p p' : ConnectPhase} (hmove : ConnectMove setup m i a p p' m₁)
    (hp : p.Follows h i) : p'.Follows (h ++ (m.connectHappening? setup i p).toList) i := by
  cases hmove with
  | supersede | enter | join | clear | leave => trivial
  | announce => exact ⟨announcer?_announced, by simp [connectHappening?], nofun⟩
  | record => simpa [connectHappening?, ConnectPhase.Follows] using hp
  | build | refuse | raise | fail =>
    exact Opened.append hp (isPlain_connectHappening? (by simp) (by simp))
  | listen config =>
    have hplain : ∀ x ∈ (m.connectHappening? setup i (.listening config)).toList, x.IsPlain :=
      isPlain_connectHappening? (by simp) (by simp)
    have hopened := Opened.append hp hplain
    refine ⟨hopened.latest, hopened.unstarted, fun r hr => ⟨m.events.sent.length, ?_⟩⟩
    cases hr
    rw [sinceAnnounced_append fun x hx => (hplain x hx).1]
    exact List.mem_append_right _ (.head _)
  | observe events => simpa [connectHappening?, ConnectPhase.Follows] using hp
  | spawn events network => rfl

theorem MonitorMove.isAlive (hmove : MonitorMove m t t' m₁) : t.IsAlive := by
  cases hmove <;> simp [Monitor.IsAlive, *]

/-- What a monitor takes up was sent to it. -/
theorem MonitorMove.follows {g : List Happening} {start : Nat} (hmove : MonitorMove m t t' m₁)
    (ht : t.Follows h m.events i start j) (htracked : Tracked (sinceAnnounced h) m.events)
    (hg : ∀ x ∈ g, x.IsPlain) : t'.Follows (h ++ g) m₁.events i start j := by
  cases hmove with
  | take e events hphase hd =>
    obtain ⟨p, p', hp, -, rfl, hitem⟩ := Broadcast.exists_of_receive? hd
    obtain ⟨rfl, hsent⟩ := hitem e rfl
    refine ht.append hg rfl fun e' he' => ?_
    cases he'
    refine ⟨p, htracked.reached ht.subscribed hp, ?_, hsent⟩
    exact getElem?_set_self_of_eq_some hp
  | _ => exact ht.append hg rfl fun e he => nomatch he

/-- Who starts a monitor by a step is about to, and it is the next. -/
theorem spawning_of_starts? {x : Happening} (hx : m.happening? setup l = some x)
    (hi : x.starts? = some i) :
    ∃ a r network, l = .caller i ∧ m.callers[i]? = some (.connect a (.spawning r network)) ∧
      x = .started i m.monitors.length r := by
  cases happens_of_happening? hx with
  | started hc => cases hi; exact ⟨_, _, _, rfl, hc, rfl⟩
  | _ => cases hi

theorem length_monitors_of_step (hstep : m.step setup l = some m') :
    m'.monitors.length = m.monitors.length +
      ((m.happening? setup l).bind Happening.starts?).toList.length := by
  cases move_of_step hstep with
  | caller hc hmove =>
    cases hmove with
    | connect hmove =>
      simp only [happening?_connect hc, setCaller]
      cases hmove with
      | supersede j => simp [dismiss, connectHappening?, Happening.starts?]
      | spawn => simp [spawn, connectHappening?, Happening.starts?]
      | announce | fail => rw [monitors_publish]; rfl
      | leave events => rw [unlock, monitors_unsubscribe]; rfl
      | _ => rfl
    | disconnect hmove =>
      simp only [happening?_disconnect hc, setCaller, hmove.alike.monitors]
      cases hmove <;> rfl
    | stop hmove =>
      simp only [happening?_stop hc, setCaller]
      cases hmove with
      | supersede j => simp [dismiss, stopHappening?, Happening.starts?]
      | _ => rfl
    | answer => rfl
  | monitor ht hmove =>
    simp only [happening?_monitor ht, setMonitor, List.length_set, hmove.monitors_eq,
      monitorHappening?]
    split <;> rfl
  | connectivity ht hmove =>
    cases hmove with
    | finish => simp only [setMonitor, List.length_set]; rfl
    | receive => rfl
  | emit e => simp only [happening?]; split <;> rfl
  | _ => rfl

namespace Authored

/-- By every step, a call makes of the chronicle what its phase says. -/
theorem calls_step (hm : Authored h m) (hcust : m.Custody) (hstep : m.step setup l = some m')
    {i : Nat} {a : Attempt} {p : ConnectPhase} (hi : m'.callers[i]? = some (.connect a p)) :
    p.Follows (h ++ (m.happening? setup l).toList) i := by
  -- who is not the one to step goes on in what he follows, but for a call to connect that steps
  have hother (hplain : ∀ x ∈ (m.happening? setup l).toList, x.IsPlain)
      (hold : m.callers[i]? = some (.connect a p)) :
      p.Follows (h ++ (m.happening? setup l).toList) i :=
    (hm.calls hold).append hplain
  cases callMove_of_step hstep with
  | call r =>
    obtain ⟨-, hold⟩ | ⟨-, hnew⟩ := getElem?_append_singleton_eq_some hi
    · exact hother (isPlain_of_happening? (by simp)) hold
    · cases r <;> cases hnew
      trivial
  | go hc hmove =>
    have hhead := hmove.head_eq hcust hc
    rw [setCaller, hmove.callers_eq] at hi
    cases hmove with
    | connect hmove =>
      obtain ⟨rfl, hown⟩ | ⟨hne, hold⟩ := getElem?_set_eq_some hi
      · cases hown
        simp only [happening?_connect hc]
        exact hmove.follows (hm.calls hc)
      · refine ConnectPhase.follows_of_lock_eq_false (Bool.eq_false_iff.mpr fun hlock => hne ?_)
        exact Option.some.inj ((hcust.first hold hlock).symm.trans (hhead trivial))
    | disconnect hmove =>
      obtain ⟨-, hown⟩ | ⟨-, hold⟩ := getElem?_set_eq_some hi
      · cases hown
      · refine hother ?_ hold
        rw [happening?_disconnect hc]
        exact isPlain_disconnectHappening?
    | stop hmove =>
      obtain ⟨-, hown⟩ | ⟨-, hold⟩ := getElem?_set_eq_some hi
      · cases hown
      · refine hother ?_ hold
        rw [happening?_stop hc]
        exact isPlain_stopHappening?
    | answer hmove =>
      obtain ⟨rfl, hown⟩ | ⟨-, hold⟩ := getElem?_set_eq_some hi
      · cases hmove with
        | raised | retry | fail =>
          cases hown
          exact Opened.append (hm.calls hc) (isPlain_of_happening? (by simp))
        | lowered => cases hown
      · exact hother (isPlain_of_happening? (by simp)) hold
  | apart hl hcallers =>
    refine hother (isPlain_of_happening? fun k hk => ?_) (hcallers ▸ hi)
    rw [hk] at hl
    cases hl

/-- A monitor that goes on as it is keeps what it follows. -/
theorem monitors_keep (hm : Authored h m) {b : Broadcast EngineReport} {g : List Happening}
    (ht : m.monitors[j]? = some t) (halive : t'.IsAlive) (hevents : t'.events = t.events)
    (hphase : t'.phase = t.phase) (hb : m.events.Extends b) (hg : ∀ x ∈ g, x.IsPlain) :
    ∃ i start, t'.Follows (h ++ g) b i start j := by
  obtain ⟨i, start, hfollows⟩ := hm.monitors ht fun hdone => halive (hphase.trans hdone)
  exact ⟨i, start, hfollows.keep hg hevents (fun e he => hphase ▸ he) hb⟩

/-- A call to connect leaves the monitor of before alone until it waits for it to end, and from then
on there is none but its own. -/
theorem monitors_connect {p p' : ConnectPhase} (hm : Authored h m) (hcust : m.Custody)
    (hc : m.callers[i]? = some (.connect a p)) (hmove : ConnectMove setup m i a p p' m₁)
    (ht' : m₁.monitors[j]? = some t') (halive : t'.IsAlive) :
    ∃ k start, t'.Follows (h ++ (m.connectHappening? setup i p).toList) m₁.events k start j := by
  have hnone {t : Monitor} (ht : m.monitors[j]? = some t) (hphase : t'.phase = t.phase)
      (hvacant : (Caller.connect a p).holding.vacant = true)
      (hjoins : (Caller.connect a p).holding.joins = none) : False :=
    hcust.not_isAlive_of_vacant hc hvacant hjoins t (List.mem_of_getElem? ht)
      fun hdone => halive (hphase.trans hdone)
  cases hmove with
  | supersede k =>
    obtain ⟨t, ht, hevents, hphase⟩ := exists_of_getElem?_dismiss ht'
    exact hm.monitors_keep ht halive hevents hphase .refl
      (isPlain_connectHappening? (by simp) (by simp))
  | enter | join =>
    exact hm.monitors_keep ht' halive rfl rfl .refl
      (isPlain_connectHappening? (by simp) (by simp))
  | spawn events network =>
    obtain ⟨-, hold⟩ | ⟨rfl, rfl⟩ := getElem?_append_singleton_eq_some ht'
    · exact (hnone hold rfl rfl rfl).elim
    · exact ⟨_, Opened.follows_of_started (hm.calls hc) _ _⟩
  | leave events result =>
    rw [unlock, monitors_unsubscribe] at ht'
    cases result with
    | error e => exact (hnone ht' rfl rfl rfl).elim
    | ok u =>
      have hnothing : events = none := hm.calls hc
      subst hnothing
      exact hm.monitors_keep ht' halive rfl rfl .refl (List.forall_mem_nil _)
  | announce | fail => exact (hnone (monitors_publish m _ ▸ ht') rfl rfl rfl).elim
  | _ => exact (hnone ht' rfl rfl rfl).elim

/-- By every step, a monitor that has not ended follows the last call to announce. -/
theorem monitors_step (hm : Authored h m) (hcust : m.Custody) (hstep : m.step setup l = some m')
    (ht' : m'.monitors[j]? = some t') (halive : t'.IsAlive) :
    ∃ i start, t'.Follows (h ++ (m.happening? setup l).toList) m'.events i start j := by
  cases move_of_step hstep with
  | call r => exact hm.monitors_keep ht' halive rfl rfl .refl (List.forall_mem_nil _)
  | caller hc hmove =>
    cases hmove with
    | connect hmove =>
      simp only [happening?_connect hc, setCaller] at ht' ⊢
      exact hm.monitors_connect hcust hc hmove ht' halive
    | disconnect hmove =>
      rw [happening?_disconnect hc]
      rw [setCaller, hmove.alike.monitors] at ht'
      refine hm.monitors_keep ht' halive rfl rfl ?_ isPlain_disconnectHappening?
      cases hmove with
      | announce => rw [setCaller, events_publish]; exact .refl
      | _ => exact .refl
    | stop hmove =>
      rw [happening?_stop hc]
      cases hmove with
      | supersede k =>
        obtain ⟨t, ht, hevents, hphase⟩ := exists_of_getElem?_dismiss ht'
        exact hm.monitors_keep ht halive hevents hphase .refl isPlain_stopHappening?
      | _ => exact hm.monitors_keep ht' halive rfl rfl .refl isPlain_stopHappening?
    | answer hmove =>
      exact hm.monitors_keep ht' halive rfl rfl .refl (isPlain_of_happening? (by simp))
  | @monitor k t u m₁ ht hmove =>
    have hplain : ∀ x ∈ (m.happening? setup (.monitor k)).toList, x.IsPlain :=
      isPlain_of_happening? (by simp)
    rw [setMonitor, hmove.monitors_eq] at ht'
    obtain ⟨rfl, rfl⟩ | ⟨hne, hold⟩ := getElem?_set_eq_some ht'
    · obtain ⟨i, start, hfollows⟩ := hm.monitors ht hmove.isAlive
      exact ⟨i, start, hmove.follows hfollows hm.tracked hplain⟩
    · exact absurd (hcust.atMostOne_isAlive j k t' t hold ht halive hmove.isAlive) hne
  | connectivity ht hmove =>
    cases hmove with
    | finish told =>
      obtain ⟨rfl, rfl⟩ | ⟨-, hold⟩ := getElem?_set_eq_some ht'
      · exact hm.monitors_keep ht halive rfl rfl .refl (List.forall_mem_nil _)
      · exact hm.monitors_keep hold halive rfl rfl .refl (List.forall_mem_nil _)
    | receive => exact hm.monitors_keep ht' halive rfl rfl .refl (List.forall_mem_nil _)
  | emit e =>
    exact hm.monitors_keep ht' halive rfl rfl (Broadcast.extends_send e)
      (isPlain_of_happening? (by simp))
  | closeEngine =>
    exact hm.monitors_keep ht' halive rfl rfl Broadcast.extends_close (List.forall_mem_nil _)
  | _ => exact hm.monitors_keep ht' halive rfl rfl .refl (List.forall_mem_nil _)

theorem tracked_step (hm : Authored h m) (hstep : m.step setup l = some m') :
    Tracked (sinceAnnounced (h ++ (m.happening? setup l).toList)) m'.events := by
  have htracked := hm.tracked.step hstep
  by_cases hx : ∀ x ∈ (m.happening? setup l).toList, x.announces? = none
  · rwa [sinceAnnounced_append hx]
  · obtain ⟨i, hi⟩ := exists_announced hx
    rw [hi, Option.toList_some, sinceAnnounced_announced]
    exact .nil _

theorem newest_step (hm : Authored h m) (hstep : m.step setup l = some m') {i j r : Nat}
    (hstarted : .started i j r ∈ sinceAnnounced (h ++ (m.happening? setup l).toList)) :
    m'.monitors.length = j + 1 ∧
      ((h ++ (m.happening? setup l).toList).filterMap Happening.starts?).getLast? = some i := by
  by_cases hx : ∀ x ∈ (m.happening? setup l).toList, x.announces? = none
  · rw [sinceAnnounced_append hx] at hstarted
    have hlength := length_monitors_of_step hstep
    obtain hold | hnew := List.mem_append.mp hstarted
    · -- who is about to start a monitor has not started one since he announced
      have hquiet : (m.happening? setup l).bind Happening.starts? = none := by
        refine Option.eq_none_iff_forall_ne_some.mpr fun k hk => ?_
        obtain ⟨y, hy, hk⟩ := Option.bind_eq_some_iff.mp hk
        obtain ⟨a, r, network, -, hc, -⟩ := spawning_of_starts? hy hk
        have hopened : Opened h k (some r) := hm.calls hc
        exact absurd (hopened.unstarted _ hold) (Option.some_ne_none i)
      rw [hquiet] at hlength
      refine (hm.newest hold).imp hlength.trans fun hlast => ?_
      cases hy : m.happening? setup l with
      | none => simpa using hlast
      | some y =>
        rw [hy, Option.bind_some] at hquiet
        simpa [hquiet] using hlast
    · rw [Option.mem_toList] at hnew
      obtain ⟨a, r, network, -, hc, hnew'⟩ := spawning_of_starts? hnew rfl
      cases hnew'
      rw [hnew] at hlength ⊢
      exact ⟨hlength, by simp [Happening.starts?]⟩
  · obtain ⟨i, hi⟩ := exists_announced hx
    rw [hi, Option.toList_some, sinceAnnounced_announced] at hstarted
    cases hstarted

/-- What happens next is warranted by what has happened. -/
theorem warranted_of_happening? (hm : Authored h m) {x : Happening}
    (hx : m.happening? setup l = some x) : Warranted h x := by
  cases happens_of_happening? hx with
  | announced hc => exact .announced _
  | failed hc => exact .failed _ _ (Opened.latest (hm.calls hc))
  | disabled hc => exact .disabled _
  | @handled j t e ht hphase =>
    obtain ⟨i, start, hfollows⟩ := hm.monitors ht (by simp [Monitor.IsAlive, hphase])
    obtain ⟨p, hle, hp, hsent⟩ := hfollows.pending e hphase
    have hplace : m.events.lastPlace t.events = p := by simp [Broadcast.lastPlace, hp]
    rw [hplace]
    exact .handled i t.events start j p e hfollows.latest hfollows.started hle
      (hm.tracked.told hfollows.subscribed hle hsent)
  | _ => exact .silent _ rfl

/-- What happens by a step is warranted by what has happened before. -/
theorem warranted_step (hm : Authored h m) {x : Happening} {g g' : List Happening}
    (heq : h ++ (m.happening? setup l).toList = g ++ x :: g') : Warranted g x := by
  cases hx : m.happening? setup l with
  | none => exact hm.warranted (by simpa [hx] using heq)
  | some y =>
    rw [hx, Option.toList_some] at heq
    obtain ⟨rfl, rfl⟩ | ⟨g'', heq⟩ := eq_or_of_append_singleton_eq heq
    · exact hm.warranted_of_happening? hx
    · exact hm.warranted heq

/-- Every step keeps to what may be published, and by whom. -/
theorem step (hm : Authored h m) (hcust : m.Custody) (hstep : m.step setup l = some m') :
    Authored (h ++ (m.happening? setup l).toList) m' where
  calls := hm.calls_step hcust hstep
  monitors := hm.monitors_step hcust hstep
  tracked := hm.tracked_step hstep
  newest := hm.newest_step hstep
  warranted := hm.warranted_step

end Authored

/-- Whatever a machine has been through, all that was published was warranted. -/
theorem authored_of_run {settings : Settings} {capacity : Nat} {ls : List Label}
    (hrun : (idle settings capacity).run setup ls = some m) :
    Authored ((idle settings capacity).chronicle setup ls) m := by
  refine (chronicle_induction (c := []) (P := fun h m => m.Custody ∧ Authored h m)
    (fun _ hm hstep => ?_) ⟨custody_idle settings capacity, authored_idle settings capacity⟩ hrun).2
  exact ⟨hm.1.step hstep, hm.2.step hm.1 hstep⟩

end Machine

end VpnTunnel
