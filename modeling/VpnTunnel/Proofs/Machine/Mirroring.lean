import VpnTunnel.Proofs.Machine.Hearing

/-!
# A tunnel is shown as its engine reports it

While a monitor runs and nobody else publishes, what is shown follows the reports that the monitor
gets. Some may be lost on the way to it, the last one never: when nothing is before the monitor any
more, the last report of the engine is what is shown.
-/

namespace VpnTunnel

/-- A bound on the steps of a running monitor before it can take an event. -/
def Monitor.stepsToTake (t : Monitor) : Nat :=
  match t.phase with
  | .polling => 1
  | .spawned | .handling _ => 2
  | _ => 0

namespace Machine

/-- The monitor has nothing in hand and nothing before it. -/
def Drained (m : Machine) (t : Monitor) : Prop :=
  t.inHand = [] ∧ m.events.ahead t.events = []

/-- The reports that the engine sends in a run to someone who listens. -/
def emissions (setup : Setup) (m : Machine) (ls : List Label) : List EngineReport :=
  (m.chronicle setup ls).filterMap Happening.emits?

variable {setup : Setup} {m m₁ m' : Machine} {j : Nat} {t t₁ t' : Monitor} {l : Label}
  {ls ls' : List Label}

theorem emissions_cons_of_step (h : m.step setup l = some m') :
    m.emissions setup (l :: ls) =
      ((m.happening? setup l).bind Happening.emits?).toList ++ m'.emissions setup ls := by
  rw [emissions, chronicle_cons_of_step h, List.filterMap_append, filterMap_toList,
    emissions]

theorem emissions_append_of_run (h : m.run setup ls = some m') :
    m.emissions setup (ls ++ ls') = m.emissions setup ls ++ m'.emissions setup ls' := by
  rw [emissions, chronicle_append_of_run h, List.filterMap_append]
  rfl

/-- An engine whose events are closed sends no more. -/
theorem emissions_eq_nil (h : m.run setup ls = some m') (hclosed : m.events.closed = true) :
    m.emissions setup ls = [] := by
  induction ls generalizing m with
  | nil => rfl
  | cons l ls ih =>
    obtain ⟨m₁, hstep, hrest⟩ := Option.bind_eq_some_iff.mp h
    rw [emissions_cons_of_step hstep, ih hrest (closed_of_step hstep hclosed),
      emits?_happening?, if_pos (Broadcast.audience_eq_zero hclosed)]
    rfl

theorem getLast?_append_congr {α : Type} {l l' k k' : List α} (hl : l.getLast? = l'.getLast?)
    (hk : k.getLast? = k'.getLast?) : (l ++ k).getLast? = (l' ++ k').getLast? := by
  rw [List.getLast?_append, List.getLast?_append, hl, hk]

/-- The last of what was before a receiver is got by it, or is before it still. -/
theorem getLast?_ahead_of_receive? {b b' : Broadcast EngineReport} {r : Nat}
    {d : Delivery EngineReport} (hb : b.Sound) (h : b.receive? r = some (d, b')) :
    (b.ahead r).getLast? = ((Heard.delivery d).report?.toList ++ b'.ahead r).getLast? := by
  obtain ⟨e, rfl, hahead⟩ | ⟨n, lost, rfl, -, hrest, hahead⟩ | ⟨rfl, -, hahead, hrest⟩ :=
    Broadcast.ahead_of_receive? hb h
  · rw [hahead]
    rfl
  · rw [hahead, List.getLast?_append_of_ne_nil _ hrest]
    rfl
  · rw [hahead, hrest]
    rfl

/-- What was before a monitor, and was sent by the step, the monitor gets by it or has still before
it; if some of that is lost, the last of it is not. -/
theorem getLast?_ahead_of_step (hm : m.Listening) (ht : m.monitors[j]? = some t) (hruns : t.Runs)
    (h : m.step setup l = some m') :
    (m.events.ahead t.events ++ ((m.happening? setup l).bind Happening.emits?).toList).getLast? =
      (((m.heard? j l).bind Heard.report?).toList ++ m'.events.ahead t.events).getLast? := by
  by_cases hl : l = .monitor j
  · subst hl
    obtain ⟨t', m₁, hmove, rfl, -⟩ := exists_of_step_monitor h ht
    have hnone : (m.happening? setup (.monitor j)).bind Happening.emits? = none := by
      rw [emits?_happening?]
      exact ite_self _
    rw [heard?_monitor ht, hnone, Option.toList_none, List.append_nil]
    cases hmove with
    | take e events hphase hd | skip missed events hphase hd | close events hphase hd =>
      simp only [hears?, hphase, hd, Option.map_some, Option.bind_some, setMonitor]
      exact getLast?_ahead_of_receive? hm.sound hd
    | handle e hphase => simp [hears?, hphase, setMonitor]
    | finish hphase => exact absurd hphase hruns.1
    | start hphase | heed hphase | notice hphase | miss hphase =>
      simp [hears?, Heard.report?, setMonitor, *]
  · rw [heard?_eq_none hl, hm.ahead_of_step ht hruns.isAlive h hl]
    rfl

/-- Who hears that the channel is closed has got all that was sent, and nothing is sent any more. -/
theorem closed_of_heard? (hm : m.Listening) (ht : m.monitors[j]? = some t)
    (h : m.heard? j l = some (.delivery .closed)) :
    l = .monitor j ∧ m.events.closed = true ∧ m.events.ahead t.events = [] := by
  by_cases hl : l = .monitor j
  · subst hl
    rw [heard?_monitor ht, hears?] at h
    split at h
    next => split at h <;> cases h
    next =>
      obtain ⟨⟨d, events⟩, hd, hclosed⟩ := Option.map_eq_some_iff.mp h
      cases hclosed
      obtain ⟨e, he, -⟩ | ⟨n, lost, hlag, -⟩ | ⟨-, hclosed, hahead, -⟩ :=
        Broadcast.ahead_of_receive? hm.sound hd
      · cases he
      · cases hlag
      · exact ⟨rfl, hclosed, hahead⟩
    next => cases h
  · rw [heard?_eq_none hl] at h
    cases h

/-- The last of what was before a monitor, and of what was sent in the run, the monitor has got or
has still before it; it has got it when it hears that the channel is closed. -/
theorem getLast?_of_run (hm : m.Listening) (hrun : m.run setup ls = some m')
    (ht : m.monitors[j]? = some t) (hruns : t.Runs) (ht' : m'.monitors[j]? = some t')
    (hsole : SoleWriter j (m.chronicle setup ls)) :
    (t'.Runs → (m.events.ahead t.events ++ m.emissions setup ls).getLast? =
      ((m.hearing setup j ls).filterMap Heard.report? ++ m'.events.ahead t.events).getLast?) ∧
    (.delivery .closed ∈ m.hearing setup j ls →
      (m.events.ahead t.events ++ m.emissions setup ls).getLast? =
        ((m.hearing setup j ls).filterMap Heard.report?).getLast?) := by
  induction ls generalizing m t with
  | nil =>
    cases hrun
    refine ⟨fun _ => ?_, nofun⟩
    simp [emissions, chronicle, hearing]
  | cons l ls ih =>
    obtain ⟨m₁, hstep, hrest⟩ := Option.bind_eq_some_iff.mp hrun
    rw [chronicle_cons_of_step hstep] at hsole
    obtain ⟨hfirst, hlater⟩ := List.forall_mem_append.mp hsole
    obtain ⟨t₁, es, ht₁, hcourse⟩ := course_of_step hstep ht hfirst
    obtain ⟨t₂, es', ht₂, hcourse'⟩ := course_of_run hrest ht₁ hlater
    cases ht'.symm.trans ht₂
    by_cases hruns₁ : t₁.Runs
    · obtain ⟨hgoes, hcloses⟩ := ih (hm.step hstep) hrest ht₁ hruns₁ hlater
      rw [hcourse.events] at hgoes hcloses
      have hfirst : ∀ k, (m₁.events.ahead t.events ++ m₁.emissions setup ls).getLast? = k.getLast? →
          (m.events.ahead t.events ++ m.emissions setup (l :: ls)).getLast? =
            (((m.heard? j l).bind Heard.report?).toList ++ k).getLast? := by
        intro k hk
        rw [emissions_cons_of_step hstep, ← List.append_assoc, getLast?_append_congr
          (getLast?_ahead_of_step hm ht hruns hstep) rfl, List.append_assoc]
        exact getLast?_append_congr rfl hk
      rw [hearing_cons_of_step hstep, List.filterMap_append, filterMap_toList]
      refine ⟨fun hruns' => ?_, fun hclosed => hfirst _ (hcloses ?_)⟩
      · rw [List.append_assoc]
        exact hfirst _ (hgoes hruns')
      · obtain hclosed | hclosed := List.mem_append.mp hclosed
        · cases (hcourse.runs.mp hruns₁).2 _ hclosed
        · exact hclosed
    · refine ⟨fun hruns' => absurd (hcourse'.runs.mp hruns').1 hruns₁, fun hclosed => ?_⟩
      rw [hearing_cons_of_step hstep, hearing_eq_nil hrest ht₁ hruns₁, List.append_nil] at hclosed ⊢
      have hheard := Option.mem_toList.mp hclosed
      obtain ⟨-, hend, hahead⟩ := closed_of_heard? hm ht hheard
      rw [emissions_eq_nil hrun hend, hahead, Option.mem_def.mp hheard]
      rfl

/-- When nothing is left before a monitor, what is shown is what the engine has sent last. -/
theorem state_of_drained (hm : m.Listening) (hrun : m.run setup ls = some m')
    (ht : m.monitors[j]? = some t) (hruns : t.Runs) (ht' : m'.monitors[j]? = some t')
    (hsole : SoleWriter j (m.chronicle setup ls))
    (h : t'.Runs ∧ m'.Drained t' ∨ .delivery .closed ∈ m.hearing setup j ls) :
    m'.state = ((t.inHand ++ m.events.ahead t.events ++ m.emissions setup ls).map
      TunnelStatus.ofReport).getLastD m.state := by
  obtain ⟨hgoes, hcloses⟩ := getLast?_of_run hm hrun ht hruns ht' hsole
  obtain ⟨t₂, es, ht₂, hcourse⟩ := course_of_run hrun ht hsole
  cases ht'.symm.trans ht₂
  obtain ⟨hempty, hlast⟩ : t'.inHand = [] ∧
      (m.events.ahead t.events ++ m.emissions setup ls).getLast? =
        ((m.hearing setup j ls).filterMap Heard.report?).getLast? := by
    obtain ⟨hruns', hempty, hahead⟩ | hclosed := h
    · have hlast := hgoes hruns'
      rw [← hcourse.events, hahead, List.append_nil] at hlast
      exact ⟨hempty, hcourse.events ▸ hlast⟩
    · refine ⟨Monitor.inHand_of_not_runs fun hruns' => ?_, hcloses hclosed⟩
      cases (hcourse.runs.mp hruns').2 _ hclosed
  have hhand := hcourse.hand
  rw [hempty, List.append_nil] at hhand
  rw [hcourse.shows.state, List.getLastD_eq_getLast?, List.getLastD_eq_getLast?,
    List.getLast?_map, List.getLast?_map, ← hhand, List.append_assoc,
    getLast?_append_congr rfl hlast]

/-- As long as the monitor runs and the channel is open, whatever the engine sends reaches it. -/
theorem emissions_eq_of_run (hm : m.Listening) (hrun : m.run setup ls = some m')
    (ht : m.monitors[j]? = some t) (ht' : m'.monitors[j]? = some t') (hruns' : t'.Runs)
    (hopen : m'.events.closed = false) (hsole : SoleWriter j (m.chronicle setup ls)) :
    m.emissions setup ls = ls.filterMap Label.emits? := by
  induction ls generalizing m t with
  | nil => rfl
  | cons l ls ih =>
    obtain ⟨t₂, es, ht₂, hcourse⟩ := course_of_run hrun ht hsole
    cases ht'.symm.trans ht₂
    have hruns := (hcourse.runs.mp hruns').1
    have hlistens := hm.tasks (List.mem_of_getElem? ht) hruns.isAlive
    have hopen₀ : m.events.closed = false := by
      refine Bool.eq_false_iff.mpr fun hclosed => ?_
      cases hopen.symm.trans (closed_of_run hrun hclosed)
    obtain ⟨m₁, hstep, hrest⟩ := Option.bind_eq_some_iff.mp hrun
    rw [chronicle_cons_of_step hstep] at hsole
    obtain ⟨hfirst, hlater⟩ := List.forall_mem_append.mp hsole
    obtain ⟨t₁, es₁, ht₁, -⟩ := course_of_step hstep ht hfirst
    rw [emissions_cons_of_step hstep, ih (hm.step hstep) hrest ht₁ hlater, emits?_happening?,
      if_neg (Broadcast.audience_ne_zero hopen₀ hlistens)]
    cases h : l.emits? <;> simp [h]

/-- A monitor that nobody has told to stop can step as long as something is before it or in its
hand, and each step brings it nearer to having taken all. -/
theorem exists_nearer_drained (setup : Setup) (hm : m.Listening) (ht : m.monitors[j]? = some t)
    (hruns : t.Runs) (htold : t.told = false) (hnot : ¬ m.Drained t) :
    ∃ m' t', m.step setup (.monitor j) = some m' ∧ m'.monitors[j]? = some t' ∧ t'.Runs ∧
      t'.told = false ∧
      3 * (m'.events.ahead t'.events).length + t'.stepsToTake <
        3 * (m.events.ahead t.events).length + t.stepsToTake := by
  have hahead : (∀ e, t.phase ≠ .handling e) → m.events.ahead t.events ≠ [] :=
    fun hphase hnone => hnot ⟨Monitor.inHand_eq_nil hphase, hnone⟩
  obtain ⟨m', hstep⟩ : ∃ m', m.monitorStep? j t = some m' := by
    cases hphase : t.phase with
    | spawned | handling => exact ⟨_, by simp only [monitorStep?, hphase]; rfl⟩
    | polling =>
      have hready := Broadcast.isSome_receive? (hahead (by simp [hphase]))
      exact ⟨_, by simp only [monitorStep?, hphase, htold, hready, if_true]; rfl⟩
    | receiving =>
      simp only [monitorStep?, hphase]
      split <;> exact ⟨_, rfl⟩
    | joining => exact absurd hphase hruns.1
    | done => exact absurd hphase hruns.2
  replace hstep : m.step setup (.monitor j) = some m' := by rw [step, ht, Option.bind_some, hstep]
  obtain ⟨t', m₁, hmove, rfl, ht'⟩ := exists_of_step_monitor hstep ht
  refine ⟨_, t', hstep, ht', ?_⟩
  cases hmove with
  | heed hphase hstop => cases htold.symm.trans hstop
  | finish hphase => exact absurd hphase hruns.1
  | start hphase | notice hphase | handle e hphase =>
    simp [Monitor.Runs, Monitor.stepsToTake, setMonitor, *]
  | miss hphase hnone =>
    have hready := Broadcast.isSome_receive? (hahead (by simp [hphase]))
    simp [hnone] at hready
  | take e events hphase hd | skip missed events hphase hd =>
    have hlt := (Broadcast.length_ahead_lt hm.sound (hahead (by simp [hphase])) hd).2
    simp [Monitor.Runs, Monitor.stepsToTake, setMonitor, hphase, htold]
    omega
  | close events hphase hd =>
    exact absurd rfl (Broadcast.length_ahead_lt hm.sound (hahead (by simp [hphase])) hd).1

/-- Left to itself, a monitor that nobody has told to stop takes all that is before it. -/
theorem exists_drained (setup : Setup) (hm : m.Listening) (ht : m.monitors[j]? = some t)
    (hruns : t.Runs) (htold : t.told = false) :
    ∃ n m' t', m.run setup (List.replicate n (.monitor j)) = some m' ∧
      m'.monitors[j]? = some t' ∧ t'.Runs ∧ m'.Drained t' := by
  induction hn : 3 * (m.events.ahead t.events).length + t.stepsToTake using Nat.strongRecOn
    generalizing m t with
  | ind n ih =>
    by_cases hdrained : m.Drained t
    · exact ⟨0, m, t, rfl, ht, hruns, hdrained⟩
    · obtain ⟨m₁, t₁, hstep, ht₁, hruns₁, htold₁, hlt⟩ :=
        exists_nearer_drained setup hm ht hruns htold hdrained
      obtain ⟨k, m', t', hrun, h⟩ := ih _ (hn ▸ hlt) (hm.step hstep) ht₁ hruns₁ htold₁ rfl
      exact ⟨k + 1, m', t', (run_cons_of_step hstep).trans hrun, h⟩

/-- Nobody but the monitor makes anything happen by its steps. -/
theorem chronicle_replicate (setup : Setup) (m : Machine) (j n : Nat) :
    ∀ x ∈ m.chronicle setup (List.replicate n (.monitor j)),
      (∃ place e, x = .handled j place e) ∨ x = .ended j := by
  induction n generalizing m with
  | zero => exact List.forall_mem_nil _
  | succ n ih =>
    cases hstep : m.step setup (.monitor j) with
    | none => simp [List.replicate_succ, chronicle, hstep]
    | some m' =>
      rw [List.replicate_succ, chronicle_cons_of_step hstep]
      refine List.forall_mem_append.mpr ⟨fun x hx => ?_, ih m'⟩
      cases happens_of_happening? (Option.mem_toList.mp hx) with
      | handled hu hphase => exact .inl ⟨_, _, rfl⟩
      | ended => exact .inr rfl

/-- What is heard of lost events, or of the network, shows nothing. -/
theorem eq_of_quiet_step (h : m.step setup l = some m')
    (hl : (∃ n, m.heard? j l = some (.delivery (.lagged n))) ∨ (∃ s, l = .report s) ∨
      l = .closeNetwork ∨ ∃ k, l = .connectivity k) :
    m'.state = m.state ∧ m'.changes = m.changes := by
  have hshows : Shows [] m m' := by
    refine shows_nil_of_step h fun x hx => ?_
    obtain ⟨n, hheard⟩ | ⟨s, rfl⟩ | rfl | ⟨k, rfl⟩ := hl
    · cases happens_of_happening? hx with
      | handled hu hphase =>
        simp only [heard?] at hheard
        split at hheard
        next hkj =>
          subst hkj
          rw [hu, Option.bind_some, hears?, hphase] at hheard
          cases hheard
        next => cases hheard
      | announced hc | failed hc | disabled hc => cases hheard
      | _ => rfl
    · cases hx
    · cases hx
    · cases hx
  exact ⟨hshows.state, hshows.changes.trans (List.append_nil _)⟩

/-- A monitor that runs, while nobody else publishes, shows just the reports that it gets, each as
what it means, in their order, and what is shown already is not shown again. Lost events and the
network's reports show nothing. The monitor runs until it is told to stop or the channel is closed.
Whatever was lost, what is shown when nothing is before the monitor any more is the last that the
engine has sent; and a monitor that nobody tells to stop gets there. -/
theorem mirrors_of_run {settings : Settings} {capacity : Nat} {ls₀ : List Label}
    (hreached : (idle settings capacity).run setup ls₀ = some m) (ht : m.monitors[j]? = some t)
    (hruns : t.Runs) (hrun : m.run setup ls = some m')
    (hsole : SoleWriter j (m.chronicle setup ls)) :
    ∃ t' es, m'.monitors[j]? = some t' ∧ Course m t (m.hearing setup j ls) es m' t' ∧
      (∀ e, TunnelStatus.ofReport e =
        match e with
        | .state .up => .connected
        | .state .down => .disabled
        | .state .toggle => .connecting
        | .unknown _ => .failed .generic false) ∧
      (∀ l m₂, m'.step setup l = some m₂ →
        ((∃ n, m'.heard? j l = some (.delivery (.lagged n))) ∨ (∃ s, l = .report s) ∨
          l = .closeNetwork ∨ ∃ k, l = .connectivity k) →
        m₂.state = m'.state ∧ m₂.changes = m'.changes) ∧
      (t'.Runs ∧ m'.Drained t' ∨ .delivery .closed ∈ m.hearing setup j ls →
        m'.state = ((t.inHand ++ m.events.ahead t.events ++ m.emissions setup ls).map
          TunnelStatus.ofReport).getLastD m.state) ∧
      (t'.Runs → m'.events.closed = false → m.emissions setup ls = ls.filterMap Label.emits?) ∧
      (t'.Runs → t'.told = false → ∃ n m₂ t₂,
        m'.run setup (List.replicate n (.monitor j)) = some m₂ ∧ m₂.monitors[j]? = some t₂ ∧
        t₂.Runs ∧ m₂.Drained t₂ ∧
        m₂.state = ((t.inHand ++ m.events.ahead t.events ++ m.emissions setup ls).map
          TunnelStatus.ofReport).getLastD m.state) := by
  have hm := listening_of_run hreached
  obtain ⟨t', es, ht', hcourse⟩ := course_of_run hrun ht hsole
  refine ⟨t', es, ht', hcourse, ?means, fun l m₂ => eq_of_quiet_step,
    state_of_drained hm hrun ht hruns ht' hsole,
    fun hruns' hopen => emissions_eq_of_run hm hrun ht ht' hruns' hopen hsole, ?drains⟩
  case means =>
    rintro (s | raw)
    · cases s <;> rfl
    · rfl
  case drains =>
    intro hruns' htold
    obtain ⟨n, m₂, t₂, hrun₂, ht₂, hruns₂, hdrained⟩ :=
      exists_drained setup (hm.run hrun) ht' hruns' htold
    have halone := chronicle_replicate setup m' j n
    have hsole₂ : SoleWriter j (m.chronicle setup (ls ++ List.replicate n (.monitor j))) := by
      rw [chronicle_append_of_run hrun]
      refine List.forall_mem_append.mpr ⟨hsole, fun x hx hpublishes => ?_⟩
      obtain ⟨place, e, rfl⟩ | rfl := halone x hx
      · rfl
      · exact absurd rfl hpublishes
    have hnone : m'.emissions setup (List.replicate n (.monitor j)) = [] := by
      refine List.filterMap_eq_nil_iff.mpr fun x hx => ?_
      obtain ⟨place, e, rfl⟩ | rfl := halone x hx <;> rfl
    have hstate := state_of_drained hm ((run_append_of_run hrun).trans hrun₂) ht hruns ht₂ hsole₂
      (.inl ⟨hruns₂, hdrained⟩)
    rw [emissions_append_of_run hrun, hnone, List.append_nil] at hstate
    exact ⟨n, m₂, t₂, hrun₂, ht₂, hruns₂, hdrained, hstate⟩

/-- More reports than are kept, one of the network, and the steps of a monitor that finds them. -/
def sampleFlurry : List Label :=
  [.emit (.state .up), .emit (.state .down), .emit (.state .toggle), .emit (.unknown "?"),
    .report .metered, .monitor 0, .monitor 0, .connectivity 0, .monitor 0, .monitor 0, .monitor 0,
    .monitor 0, .monitor 0, .monitor 0]

theorem mirrors_sample :
    ∃ m m' t t' es,
      (idle Client.sampleSettings 2).run sampleSetup sampleConnecting = some m ∧
      m.monitors[0]? = some t ∧ t.Runs ∧ m.run sampleSetup sampleFlurry = some m' ∧
      SoleWriter 0 (m.chronicle sampleSetup sampleFlurry) ∧ m'.monitors[0]? = some t' ∧
      m.hearing sampleSetup 0 sampleFlurry = [.delivery (.lagged 2),
        .delivery (.item (.state .toggle)), .delivery (.item (.unknown "?"))] ∧
      Course m t (m.hearing sampleSetup 0 sampleFlurry) es m' t' ∧ m'.Drained t' ∧
      m'.state = .unexplained := by
  have hbefore : ((idle Client.sampleSettings 2).run sampleSetup sampleConnecting).map
      (·.monitors[0]?) = some (some ⟨0, 0, false, .polling, .running false⟩) := by decide +kernel
  have hmeanwhile : ((idle Client.sampleSettings 2).run sampleSetup sampleConnecting).map
      (fun m => (decide (SoleWriter 0 (m.chronicle sampleSetup sampleFlurry)),
        m.hearing sampleSetup 0 sampleFlurry, (m.emissions sampleSetup sampleFlurry).getLast?)) =
      some (true, [.delivery (.lagged 2), .delivery (.item (.state .toggle)),
        .delivery (.item (.unknown "?"))], some (.unknown "?")) := by decide +kernel
  have hafter : (((idle Client.sampleSettings 2).run sampleSetup sampleConnecting).bind
      (·.run sampleSetup sampleFlurry)).map (fun m' => (m'.monitors[0]?, m'.events.ahead 0)) =
        some (some ⟨0, 0, false, .polling, .running false⟩, []) := by decide +kernel
  obtain ⟨m, hrun₀, ht⟩ := Option.map_eq_some_iff.mp hbefore
  rw [hrun₀, Option.map_some, Option.some.injEq] at hmeanwhile
  rw [hrun₀, Option.bind_some] at hafter
  obtain ⟨m', hrun, hm'⟩ := Option.map_eq_some_iff.mp hafter
  simp only [Prod.mk.injEq, decide_eq_true_eq] at hmeanwhile hm'
  obtain ⟨hsole, hhearing, hemissions⟩ := hmeanwhile
  obtain ⟨ht', hahead⟩ := hm'
  have hruns : Monitor.Runs ⟨0, 0, false, .polling, .running false⟩ := ⟨nofun, nofun⟩
  obtain ⟨t', es, hlast, hcourse, -, -, hstate, -⟩ := mirrors_of_run hrun₀ ht hruns hrun hsole
  cases ht'.symm.trans hlast
  refine ⟨m, m', _, _, es, hrun₀, ht, hruns, hrun, hsole, ht', hhearing, hcourse, ⟨rfl, hahead⟩, ?_⟩
  rw [hstate (.inl ⟨hruns, rfl, hahead⟩), List.getLastD_eq_getLast?, List.getLast?_map,
    List.getLast?_append, hemissions]
  rfl

end Machine

end VpnTunnel
