import Mathlib.Data.List.Basic
import VpnTunnel.Proofs.Machine.Connected

/-!
# News that a tunnel is disabled

A call that disconnects with the news of it publishes that the tunnel is disabled, and leaves
observers time before it turns to the engine. It takes no lock, so a monitor may take up reports in
that time, and what they mean is shown in place of the news.
-/

namespace VpnTunnel

def Caller.IsInert (c : Caller) : Prop := c.HasReturned ∨ ∃ p, c = .stop p

namespace Machine

variable {setup : Setup} {m₀ m m₁ m' : Machine} {i k : Nat} {c c' : Caller}
  {g g' : List Happening} {l : Label} {ls : List Label}

theorem CallerMove.isInert (hmove : CallerMove setup m i l c c' m₁) (hc : c.IsInert) :
    c'.IsInert := by
  obtain hreturned | ⟨p, rfl⟩ := hc
  · exact absurd hreturned hmove.not_hasReturned
  · cases hmove with
    | stop => exact .inr ⟨_, rfl⟩
    | answer hmove => cases hmove

/-- A call that disconnects stays where it is, or goes on, and publishes the news if it was about
to. -/
theorem exists_disconnect_of_step {p : DisconnectPhase}
    (hk : m.callers[k]? = some (.disconnect p)) (hstep : m.step setup l = some m') :
    ∃ p', m'.callers[k]? = some (.disconnect p') ∧ (p' = p ∨ p' ≠ .announcing ∧
      (p = .announcing → m.happening? setup l = some (.disabled k))) := by
  cases callMove_of_step hstep with
  | call r => exact ⟨p, getElem?_append_of_eq_some hk, .inl rfl⟩
  | @go _ i c c' m₁ hc hmove =>
    by_cases hik : i = k
    · subst hik
      cases hc.symm.trans hk
      have hset : ∀ d, (m₁.setCaller i d).callers[i]? = some d := fun d => by
        rw [setCaller, hmove.callers_eq]
        exact getElem?_set_self_of_eq_some hk
      cases hmove with
      | disconnect hmove =>
        refine ⟨_, hset _, .inr ⟨by cases hmove <;> simp, ?_⟩⟩
        rintro rfl
        rw [happening?_disconnect hk, disconnectHappening?]
      | answer hmove => cases hmove; exact ⟨_, hset _, .inr ⟨by simp, by simp⟩⟩
    · refine ⟨p, ?_, .inl rfl⟩
      rw [setCaller, hmove.callers_eq, List.getElem?_set_ne hik]
      exact hk
  | apart hl hcallers => exact ⟨p, hcallers ▸ hk, .inl rfl⟩

/-- No call but `k` connects or disconnects, and none is about to. -/
def OnlyDisconnects (k : Nat) (m : Machine) : Prop :=
  ∀ i c, m.callers[i]? = some c → i ≠ k → c.IsInert

/-- Without new calls to connect or disconnect, no other call comes to do so. -/
theorem OnlyDisconnects.step (hm : m.OnlyDisconnects k)
    (hconnect : ∀ a, l ≠ .call (.connect a)) (hdisconnect : ∀ b, l ≠ .call (.disconnect b))
    (hstep : m.step setup l = some m') : m'.OnlyDisconnects k := by
  intro i d hd hne
  cases callMove_of_step hstep with
  | call r =>
    obtain ⟨-, hold⟩ | ⟨rfl, rfl⟩ := getElem?_append_singleton_eq_some hd
    · exact hm i d hold hne
    · cases r with
      | connect a => exact absurd rfl (hconnect a)
      | disconnect b => exact absurd rfl (hdisconnect b)
      | stop => exact .inr ⟨_, rfl⟩
  | go hc hmove =>
    rw [setCaller, hmove.callers_eq] at hd
    obtain ⟨rfl, rfl⟩ | ⟨-, hold⟩ := getElem?_set_eq_some hd
    · exact hmove.isInert (hm i _ hc hne)
    · exact hm i d hold hne
  | apart hl hcallers => exact hm i d (hcallers ▸ hd) hne

/-- Apart from the news itself, only monitors publish. -/
theorem OnlyDisconnects.publishes?_eq {x : Happening} {p : DisconnectPhase}
    (hm : m.OnlyDisconnects k) (hk : m.callers[k]? = some (.disconnect p)) (hp : p ≠ .announcing)
    (hx : m.happening? setup l = some x) :
    x.publishes? = x.handles?.map TunnelStatus.ofReport := by
  have hinert : ∀ {i : Nat} {c : Caller}, m.callers[i]? = some c → c ≠ .disconnect p →
      c.IsInert := by
    intro i c hi hc
    refine hm i c hi fun hik => hc ?_
    rw [hik, hk] at hi
    exact (Option.some.inj hi).symm
  cases happens_of_happening? hx with
  | announced hc | failed hc => obtain h | ⟨p, h⟩ := hinert hc nofun <;> cases h
  | disabled hc =>
    obtain h | ⟨p, h⟩ := hinert hc (fun h => hp (Caller.disconnect.inj h).symm) <;> cases h
  | _ => rfl

/-- Call `k` is about to publish the news, or has, and since then only monitors have published. -/
def Disables (k : Nat) (g : List Happening) (m : Machine) : Prop :=
  m.callers[k]? = some (.disconnect .announcing) ∨
    ∃ g₁ g₂ p, m.callers[k]? = some (.disconnect p) ∧ p ≠ .announcing ∧
      g = g₁ ++ .disabled k :: g₂ ∧ ∀ x ∈ g₂, x.publishes? = x.handles?.map TunnelStatus.ofReport

/-- Once the news is out, it is only monitors that publish. -/
theorem disables_of_step (hm : m.OnlyDisconnects k) (hg : Disables k g m)
    (hstep : m.step setup l = some m') : Disables k (g ++ (m.happening? setup l).toList) m' := by
  obtain hk | ⟨g₁, g₂, p, hk, hp, rfl, hg₂⟩ := hg
  · obtain ⟨p', hk', rfl | ⟨hp', hnews⟩⟩ := exists_disconnect_of_step hk hstep
    · exact .inl hk'
    · rw [hnews rfl]
      exact .inr ⟨g, [], p', hk', hp', rfl, List.forall_mem_nil _⟩
  · obtain ⟨p', hk', hp'⟩ := exists_disconnect_of_step hk hstep
    refine .inr ⟨g₁, g₂ ++ (m.happening? setup l).toList, p', hk', ?_, by simp, ?_⟩
    · exact hp'.elim (fun h => h ▸ hp) And.left
    · exact List.forall_mem_append.mpr ⟨hg₂, fun x hx =>
        hm.publishes?_eq hk hp (Option.mem_toList.mp hx)⟩

/-- A call disconnects with the news of it, and no other call to connect or to disconnect is in
progress meanwhile. When it is about to turn to the engine, the tunnel is shown as disabled, unless
a monitor has taken up a report since the news: then what is shown is what the last of these
means. -/
theorem disables_of_run (hfree : ∀ c ∈ m₀.callers, c.IsInert)
    (hconnect : ∀ a, .call (.connect a) ∉ ls) (hdisconnect : ∀ b, .call (.disconnect b) ∉ ls)
    (hrun : m₀.run setup (.call (.disconnect true) :: ls) = some m)
    (hk : m.callers[m₀.callers.length]? = some (.disconnect .lowering)) :
    ∃ g g', m₀.chronicle setup (.call (.disconnect true) :: ls) =
        g ++ .disabled m₀.callers.length :: g' ∧
      m.state =
        ((g'.filterMap Happening.handles?).getLast?.map TunnelStatus.ofReport).getD .disabled ∧
      ∃ m', m.step setup (.caller m₀.callers.length) = some m' ∧
        m'.calls = m.calls ++ [⟨⟨setup.tunnel, .down, none⟩, m.state, m.now⟩] := by
  obtain ⟨m₁, hcall, hrest⟩ := Option.bind_eq_some_iff.mp hrun
  have hchronicle : m₀.chronicle setup (.call (.disconnect true) :: ls) = m₁.chronicle setup ls :=
    chronicle_cons_of_step hcall
  have hstart : m₁.OnlyDisconnects m₀.callers.length ∧ Disables m₀.callers.length [] m₁ := by
    cases hcall
    refine ⟨fun i c hi hne => ?_, .inl (by simp [Caller.ofRequest])⟩
    obtain ⟨-, hi⟩ | ⟨hlast, -⟩ := getElem?_append_singleton_eq_some hi
    · exact hfree _ (List.mem_of_getElem? hi)
    · exact absurd hlast hne
  obtain ⟨-, hg⟩ := chronicle_induction (P := fun g m =>
    m.OnlyDisconnects m₀.callers.length ∧ Disables m₀.callers.length g m)
    (fun hl hm hstep => ⟨hm.1.step (fun a ha => hconnect a (ha ▸ hl))
      (fun b hb => hdisconnect b (hb ▸ hl)) hstep, disables_of_step hm.1 hm.2 hstep⟩) hstart hrest
  obtain hk' | ⟨g, g', p, -, -, hg, hg'⟩ := hg
  · cases hk.symm.trans hk'
  · rw [List.nil_append, ← hchronicle] at hg
    refine ⟨g, g', hg, ?_, _, by rw [step, hk]; rfl, rfl⟩
    have hpublishes : g'.filterMap Happening.publishes? =
        (g'.filterMap Happening.handles?).map TunnelStatus.ofReport := by
      rw [List.map_filterMap]
      exact List.filterMap_congr hg'
    rw [state_of_run hrun, hg, List.filterMap_append, List.filterMap_cons]
    simp [Happening.publishes?, hpublishes, List.getLast?_append, List.getLast?_cons]

def sampleOvertaken : List Label :=
  [.call (.disconnect true), .caller 1] ++ sampleUp ++
    [.wait graceMilliseconds, .caller 1, .caller 1, .caller 1]

/-- The news may be overtaken: the tunnel is shown as connected when the engine is asked to bring it
down. -/
theorem overtaken_sample :
    ((idle Client.sampleSettings 16).run sampleSetup (sampleConnecting ++ sampleOvertaken)).map
      (fun m => m.calls.getLast?.map fun r => (r.call.target, r.stateSeen)) =
        some (some (.down, .connected)) := by decide +kernel

end Machine

end VpnTunnel
