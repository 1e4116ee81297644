import VpnTunnel.Proofs.Machine.Deeds
import VpnTunnel.Proofs.Machine.Ending

/-!
# What a call to connect comes to

The account of a call is what it has taken from outside and what it has asked for: the settings that
it has read, the answers that it has heard from the engine, and its calls of the engine. In a call
to connect the first two decide the third and what is returned: the engine is turned to once, and
again only after a timeout. This holds however the call is interrupted by others.
-/

namespace VpnTunnel

def Setup.upCall (setup : Setup) (config : Config) : EngineCall := ⟨setup.tunnel, .up, some config⟩

/-- What one call takes from outside, and asks of the engine. -/
structure Account where
  read : List Settings := []
  heard : List (Except EngineFailure Unit) := []
  asked : List EngineCall := []

def Account.of (ds : List Happening) : Account where
  read := ds.filterMap Happening.reads?
  heard := ds.filterMap Happening.answers?
  asked := ds.filterMap Happening.asks?

theorem Account.of_append (ds g : List Happening) :
    Account.of (ds ++ g) =
      { read := (Account.of ds).read ++ (Account.of g).read
        heard := (Account.of ds).heard ++ (Account.of g).heard
        asked := (Account.of ds).asked ++ (Account.of g).asked } := by
  simp [Account.of]

/-- What is of another kind does not change an account. -/
theorem Account.of_append_singleton {x : Happening} (hread : x.reads? = none)
    (hheard : x.answers? = none) (hasked : x.asks? = none) (ds : List Happening) :
    Account.of (ds ++ [x]) = Account.of ds := by
  simp [Account.of, hread, hheard, hasked]

/-- What a call to connect to `a` comes to on its own: the configuration is made from the settings;
where there is none, the engine is left alone; else it is asked to bring the tunnel up, a second
time if the first has timed out, and the last answer counts. -/
inductive Concludes (setup : Setup) (a : Attempt) : Account → Outcome → Prop
  | refused (settings : Settings) (e : ConfigError)
    (hbuilt : setup.client.configFor a settings setup.keys = .error e) :
    Concludes setup a { read := [settings] } (.error (.config e))
  | once (settings : Settings) (config : Config) (x : Except EngineFailure Unit)
    (hbuilt : setup.client.configFor a settings setup.keys = .ok config)
    (hx : x ≠ .error .timedOut) :
    Concludes setup a
      { read := [settings], heard := [x], asked := [setup.upCall config] } (x.mapError .engine)
  | twice (settings : Settings) (config : Config) (x : Except EngineFailure Unit)
    (hbuilt : setup.client.configFor a settings setup.keys = .ok config) :
    Concludes setup a
      { read := [settings], heard := [.error .timedOut, x],
        asked := [setup.upCall config, setup.upCall config] } (x.mapError .engine)

/-- What a call has heard when it may try again, and when it may not. -/
def pastAnswers (mayRetry : Bool) : List (Except EngineFailure Unit) :=
  if mayRetry then [] else [.error .timedOut]

def Account.Built (setup : Setup) (a : Attempt) (config : Config) (s : Account) : Prop :=
  ∃ settings, s.read = [settings] ∧
    setup.client.configFor a settings setup.keys = .ok config

/-- What the account of a call to connect is in each of its phases. -/
def ConnectPhase.Accords (setup : Setup) (a : Attempt) (s : Account) : ConnectPhase → Prop
  | .waiting | .joining _ | .announcing | .recording | .building => s = {}
  | .listening config => s.Built setup a config ∧ s.heard = [] ∧ s.asked = []
  | .raising config _ mayRetry =>
    s.Built setup a config ∧ s.heard = pastAnswers mayRetry ∧
      s.asked = (pastAnswers mayRetry).map fun _ => setup.upCall config
  | .raised config _ mayRetry =>
    s.Built setup a config ∧ s.heard = pastAnswers mayRetry ∧
      s.asked = setup.upCall config :: (pastAnswers mayRetry).map fun _ => setup.upCall config
  | .observing _ | .spawning _ _ => Concludes setup a s (.ok ())
  | .failing e _ | .clearing e _ => Concludes setup a s (.error e)
  | .leaving _ result | .finished result => Concludes setup a s result

def Caller.Accords (setup : Setup) (s : Account) : Caller → Prop
  | connect a p => p.Accords setup a s
  | disconnect _ => s.read = []
  | stop _ => s = {}

namespace Concludes

variable {setup : Setup} {a : Attempt} {s s' : Account} {r r' : Outcome}

theorem of_raised {config : Config} {mayRetry : Bool} {x : Except EngineFailure Unit}
    (hs : s.Built setup a config ∧ s.heard = pastAnswers mayRetry ∧
      s.asked = setup.upCall config :: (pastAnswers mayRetry).map fun _ => setup.upCall config)
    (hx : x = .error .timedOut → mayRetry = false) :
    Concludes setup a { s with heard := s.heard ++ [x] } (x.mapError .engine) := by
  obtain ⟨⟨settings, hread, hbuilt⟩, hheard, hasked⟩ := hs
  rw [hread, hheard, hasked]
  cases mayRetry with
  | true => exact .once settings config x hbuilt fun h => by cases hx h
  | false => exact .twice settings config x hbuilt

/-- The settings and the answers, of which it hears the first or the first two, decide all else. -/
theorem unique {x₁ x₂ : Except EngineFailure Unit} (h : Concludes setup a s r)
    (h' : Concludes setup a s' r') (hread : s.read = s'.read) (hheard : s.heard <+: [x₁, x₂])
    (hheard' : s'.heard <+: [x₁, x₂]) : s = s' ∧ r = r' := by
  cases h <;> cases h' <;> cases hread <;> simp_all

end Concludes

namespace Machine

variable {setup : Setup} {m m₁ m' : Machine} {i : Nat} {a : Attempt} {c c' : Caller}
  {h ds : List Happening} {l : Label} {ls : List Label}

/-- The account of a connecting call keeps up with its phase. -/
theorem ConnectMove.accords {p p' : ConnectPhase} (hmove : ConnectMove setup m i a p p' m₁)
    (hp : p.Accords setup a (Account.of ds)) :
    p'.Accords setup a (Account.of (ds ++ (m.connectHappening? setup i p).toList)) := by
  cases hmove with
  | supersede | enter | announce | spawn | fail | listen =>
    simp only [connectHappening?, Option.toList_some]
    rw [Account.of_append_singleton rfl rfl rfl]
    exact hp
  | build config hbuilt =>
    have hempty : Account.of ds = {} := hp
    rw [Account.of_append, hempty]
    exact ⟨⟨m.settings, rfl, hbuilt⟩, rfl, rfl⟩
  | refuse e hbuilt =>
    have hempty : Account.of ds = {} := hp
    rw [Account.of_append, hempty]
    exact Concludes.refused m.settings e hbuilt
  | raise config events mayRetry =>
    obtain ⟨⟨settings, hread, hbuilt⟩, hheard, hasked⟩ := hp
    rw [Account.of_append]
    refine ⟨⟨settings, ?_, hbuilt⟩, ?_, ?_⟩
    · rw [hread]; rfl
    · rw [hheard]; exact List.append_nil _
    · rw [hasked]; cases mayRetry <;> rfl
  | join | record | observe | clear | leave =>
    simp only [connectHappening?, Option.toList_none, List.append_nil]
    exact hp

theorem AnswerMove.accords {x : Except EngineFailure Unit} (hmove : AnswerMove x c c')
    (hc : c.Accords setup (Account.of ds)) :
    c'.Accords setup (Account.of (ds ++ [.answered i x])) := by
  have happend : Account.of (ds ++ [.answered i x]) =
      { Account.of ds with heard := (Account.of ds).heard ++ [x] } := by
    simp [Account.of, Happening.reads?, Happening.answers?, Happening.asks?]
  rw [happend]
  cases hmove with
  | raised u => exact Concludes.of_raised hc fun h => by cases h
  | retry a config events =>
    obtain ⟨hbuilt, hheard, hasked⟩ := hc
    exact ⟨hbuilt, by rw [hheard]; rfl, hasked⟩
  | fail e a config events mayRetry hlast =>
    exact Concludes.of_raised hc fun h => hlast (by cases h; rfl)
  | lowered => exact hc

/-- Each caller's account is as its phase says. -/
theorem accords_local (setup : Setup) :
    Local setup fun _ ds c => c.Accords setup (Account.of ds) where
  call i r := by cases r <;> rfl
  go := by
    intro m l i c c' m₁ ds hc hmove hds
    cases hmove with
    | connect hmove =>
      simp only [happening?_connect hc]
      exact hmove.accords hds
    | disconnect hmove =>
      simp only [happening?_disconnect hc, Caller.Accords, Account.of_append]
      have hread : (Account.of ds).read = [] := hds
      rw [hread]
      cases hmove <;> rfl
    | stop hmove =>
      simp only [happening?_stop hc, Caller.Accords, Account.of_append]
      have hempty : Account.of ds = {} := hds
      rw [hempty]
      cases hmove <;> rfl
    | answer hmove => exact hmove.accords hds

/-- What is true of a machine at any time, and of what has happened to it. -/
structure Kept (setup : Setup) (h : List Happening) (m : Machine) : Prop where
  custody : m.Custody
  orderly : m.Orderly
  attended : m.Attended
  accounted : Deeds (fun _ ds c => c.Accords setup (Account.of ds)) h m
  performed : Deeds Performs h m

theorem kept_idle (settings : Settings) (capacity : Nat) :
    Kept setup [] (idle settings capacity) where
  custody := custody_idle settings capacity
  orderly := orderly_idle settings capacity
  attended := attended_idle settings capacity
  accounted := deeds_idle _ settings capacity
  performed := deeds_idle _ settings capacity

namespace Kept

/-- Every step keeps what is true of a machine at any time. -/
theorem step (hm : Kept setup h m) (hstep : m.step setup l = some m') :
    Kept setup (h ++ (m.happening? setup l).toList) m' where
  custody := hm.custody.step hstep
  orderly := hm.orderly.step hm.custody hstep
  attended := hm.attended.step hstep
  accounted := hm.accounted.step (accords_local setup) hstep
  performed := hm.performed.step (performs_local setup) hstep

theorem run (hm : Kept setup h m) (hrun : m.run setup ls = some m') :
    Kept setup (h ++ m.chronicle setup ls) m' :=
  chronicle_induction (fun _ hm hstep => hm.step hstep) hm hrun

theorem deeds_eq_nil (hm : Kept setup h m) (hi : m.callers.length ≤ i) : deeds i h = [] :=
  hm.performed.fresh (List.getElem?_eq_none hi)

/-- What happened before a call was made is not among its deeds. -/
theorem deeds_append_eq (hm : Kept setup h m) (hi : m.callers.length ≤ i) (g : List Happening) :
    deeds i (h ++ g) = deeds i g := by
  rw [deeds_append, hm.deeds_eq_nil hi, List.nil_append]

end Kept

/-- Whatever a machine has been through, what `Kept` says is true of it. -/
theorem kept_of_run {settings : Settings} {capacity : Nat}
    (h : (idle settings capacity).run setup ls = some m) :
    Kept setup ((idle settings capacity).chronicle setup ls) m :=
  (kept_idle settings capacity).run h

end Machine

end VpnTunnel
