import VpnTunnel.Proofs.Machine.Authorship
import VpnTunnel.Proofs.Machine.Ledger

/-!
# Connected means that the engine has said so

A tunnel is shown as connected only after the engine has reported that the interface is up, to a
receiver of the last call to connect that has succeeded, and nothing has been published and no
report taken up since.
-/

namespace VpnTunnel

/-- That the tunnel is connected is published only by a monitor that takes up a report of it. -/
theorem eq_handled_of_publishes? {x : Happening} (h : x.publishes? = some .connected) :
    ∃ j place, x = .handled j place (.state .up) := by
  cases x with
  | handled j place e =>
    cases e with
    | state s => cases s <;> first | exact ⟨j, place, rfl⟩ | cases h
    | unknown => cases h
  | failed i e =>
    cases e with
    | config e => cases h
    | engine e => cases e <;> cases h
  | _ => cases h

/-- What takes up a report publishes what it means. -/
theorem Happening.handles?_eq_none {x : Happening} (h : x.publishes? = none) :
    x.handles? = none := by
  cases x <;> first | rfl | cases h

theorem Happening.announces?_eq_none {x : Happening} (h : x.publishes? = none) :
    x.announces? = none := by
  cases x <;> first | rfl | cases h

/-- What was published last has a place in the chronicle, with nothing published behind it. -/
theorem exists_of_getLast?_filterMap {α β : Type} {f : α → Option β} {l : List α} {y : β}
    (h : (l.filterMap f).getLast? = some y) :
    ∃ l₁ x l₂, l = l₁ ++ x :: l₂ ∧ f x = some y ∧ ∀ z ∈ l₂, f z = none := by
  obtain ⟨ys, hys⟩ := List.getLast?_eq_some_iff.mp h
  obtain ⟨l₁, l₂, rfl, -, hlast⟩ := List.filterMap_eq_append_iff.mp hys
  obtain ⟨k₁, x, k₂, rfl, -, hx, hrest⟩ := List.filterMap_eq_cons_iff.mp hlast
  exact ⟨l₁ ++ k₁, x, k₂, by rw [List.append_assoc], hx, List.filterMap_eq_nil_iff.mp hrest⟩

namespace Machine

variable {setup : Setup} {m m₁ m' : Machine} {i j : Nat} {a : Attempt} {c c' : Caller}
  {h : List Happening} {l : Label} {ls : List Label}

/-- The calls that have connected are those that have started a monitor. -/
theorem mem_starts_iff (hm : Deeds Performs h m) {i : Nat} :
    i ∈ h.filterMap Happening.starts? ↔ ∃ c, m.callers[i]? = some c ∧ c.hasConnected = true := by
  have hdeeds : i ∈ h.filterMap Happening.starts? ↔
      i ∈ (deeds i h).filterMap Happening.starts? := by
    simp only [List.mem_filterMap, deeds, List.mem_filter, decide_eq_true_eq]
    refine exists_congr fun x => and_congr_left fun hx => (and_iff_left ?_).symm
    cases x <;> cases hx
    rfl
  rw [hdeeds]
  cases hc : m.callers[i]? with
  | none => simp [hm.fresh hc]
  | some c =>
    rw [(hm.own hc).started]
    cases hconnected : c.hasConnected <;> simp [hconnected]

/-- Only a monitor shows the tunnel as connected, on a report that the interface is up. -/
theorem handling_of_connected (hstep : m.step setup l = some m') (hnew : m'.state = .connected)
    (hold : m.state ≠ .connected) :
    ∃ j t, l = .monitor j ∧ m.monitors[j]? = some t ∧ t.phase = .handling (.state .up) := by
  have hpublishes : (m.happening? setup l).bind Happening.publishes? = some .connected := by
    have hstate := state_of_step hstep
    cases hx : (m.happening? setup l).bind Happening.publishes? with
    | none =>
      rw [hx, Option.getD_none] at hstate
      exact absurd (hstate.symm.trans hnew) hold
    | some s =>
      rw [hx, Option.getD_some] at hstate
      rw [hstate.symm.trans hnew]
  obtain ⟨x, hx, hpublishes⟩ := Option.bind_eq_some_iff.mp hpublishes
  obtain ⟨j, place, rfl⟩ := eq_handled_of_publishes? hpublishes
  cases happens_of_happening? hx with
  | handled ht hphase => exact ⟨j, _, rfl, ht, hphase⟩

/-- Whenever a machine shows the tunnel as connected, the monitor that the last call to connect that
succeeded has started has taken up the report that the interface is up; the engine sent it after
that call had subscribed, and no report has been taken up and nothing published since. No call shows
the tunnel as connected by itself. -/
theorem connected_of_run {settings : Settings} {capacity : Nat}
    (hrun : (idle settings capacity).run setup ls = some m) :
    (m.state = .connected → ∃ g i r start j place g',
      (idle settings capacity).chronicle setup ls =
        g ++ .handled j place (.state .up) :: g' ∧
      [.subscribed i r start, .emitted place (.state .up)].Sublist g ∧ start ≤ place ∧
      .started i j r ∈ g ∧ m.monitors.length = j + 1 ∧
      (((idle settings capacity).chronicle setup ls).filterMap Happening.starts?).getLast? =
        some i ∧
      ∀ x ∈ g', x.publishes? = none ∧ x.handles? = none) ∧
    (∀ i, i ∈ ((idle settings capacity).chronicle setup ls).filterMap Happening.starts? ↔
      ∃ c, m.callers[i]? = some c ∧ c.hasConnected = true) ∧
    ∀ l m', m.step setup l = some m' → m'.state = .connected → m.state ≠ .connected →
      ∃ j t, l = .monitor j ∧ m.monitors[j]? = some t ∧ t.phase = .handling (.state .up) := by
  refine ⟨fun hconnected => ?_, fun i => mem_starts_iff (kept_of_run hrun).performed,
    fun l m' => handling_of_connected⟩
  have hm := authored_of_run hrun
  have hstate := state_of_run hrun
  generalize (idle settings capacity).chronicle setup ls = h at hm hstate ⊢
  have hlast : (h.filterMap Happening.publishes?).getLast? = some .connected := by
    cases hx : (h.filterMap Happening.publishes?).getLast? with
    | none =>
      rw [hx, hconnected] at hstate
      cases hstate
    | some s =>
      rw [hx, hconnected] at hstate
      rw [hstate, Option.getD_some]
  obtain ⟨g, x, g', rfl, hx, hg'⟩ := exists_of_getLast?_filterMap hlast
  obtain ⟨j, place, rfl⟩ := eq_handled_of_publishes? hx
  have hsilent : ∀ x ∈ .handled j place (.state .up) :: g', x.announces? = none :=
    List.forall_mem_cons.mpr ⟨rfl, fun x hx => Happening.announces?_eq_none (hg' x hx)⟩
  cases hm.warranted rfl with
  | silent _ hnone => cases hnone
  | handled i r start _ _ _ hlatest hstarted hle hsent =>
    have hsuffix := sinceAnnounced_suffix g
    have hnewest := hm.newest (i := i) (j := j) (r := r)
      (by rw [sinceAnnounced_append hsilent]; exact List.mem_append_left _ hstarted)
    exact ⟨g, i, r, start, j, place, g', rfl, hsent.trans hsuffix.sublist, hle,
      hsuffix.subset hstarted, hnewest.1, hnewest.2,
      fun x hx => ⟨hg' x hx, Happening.handles?_eq_none (hg' x hx)⟩⟩

def sampleUp : List Label := [.emit (.state .up), .monitor 0, .monitor 0, .monitor 0]

theorem connected_sample :
    ∃ m, (idle Client.sampleSettings 16).run sampleSetup (sampleConnecting ++ sampleUp) = some m ∧
      m.state = .connected ∧
      ∃ g i r start j place g',
        (idle Client.sampleSettings 16).chronicle sampleSetup (sampleConnecting ++ sampleUp) =
          g ++ .handled j place (.state .up) :: g' ∧
        [.subscribed i r start, .emitted place (.state .up)].Sublist g ∧ start ≤ place ∧
        .started i j r ∈ g := by
  have hmap : ((idle Client.sampleSettings 16).run sampleSetup (sampleConnecting ++ sampleUp)).map
      state = some .connected := by decide +kernel
  obtain ⟨m, hrun, hstate⟩ := Option.map_eq_some_iff.mp hmap
  obtain ⟨g, i, r, start, j, place, g', heq, hsent, hle, hstarted, -⟩ :=
    (connected_of_run hrun).1 hstate
  exact ⟨m, hrun, hstate, g, i, r, start, j, place, g', heq, hsent, hle, hstarted⟩

end Machine

end VpnTunnel
