import VpnTunnel.Cli.Run
import VpnTunnel.Proofs.Client.Outcome
import VpnTunnel.Proofs.DryRun.Outcome

/-!
# Connecting and rendering

To render a target is to make its configuration and print it. To connect to it is to hand the same
parts to a machine, which makes the configuration for its engine while other tasks run beside it.
Both come to the same configuration, or both to none.
-/

namespace VpnTunnel

def Config.withPrivateKey (c : Config) (k : PrivateKey) : Config :=
  { c with interface := { c.interface with privateKey := k } }

/-- The private key decides nothing in a configuration but itself. -/
theorem Client.configFor_of_keys {client : Client} {a : Attempt} {settings : Settings}
    {keys keys' : KeySource} {k k' : PrivateKey} (hk : keys a.session = .ok k)
    (hk' : keys' a.session = .ok k') : client.configFor a settings keys' =
      (client.configFor a settings keys).map (·.withPrivateKey k') := by
  rw [configFor_eq, configFor_eq, hk, hk']
  cases a.remote with
  | error e => rfl
  | ok remote =>
    change client.settle a settings remote (.ok k') =
      (client.settle a settings remote (.ok k)).map _
    unfold settle
    cases settings.profile.check <;> rfl

namespace Cli

open DryRun (upCall downCall runAlong InTime longest)

variable {env : Surroundings} {i : Invocation} {t : Target} {settings : Settings} {key : PrivateKey}

def Surroundings.withFreshKey (env : Surroundings) (key : PrivateKey) : Surroundings :=
  { env with freshKey := key }

@[simp] theorem Surroundings.freshKey_withFreshKey (env : Surroundings) (key : PrivateKey) :
    (env.withFreshKey key).freshKey = key := rfl

namespace Target

/-- The configuration for the target with a fresh key in it, if the target brings none. -/
def refresh (t : Target) (key : PrivateKey) (c : Config) : Config :=
  match t.privateKey with
  | some _ => c
  | none => c.withPrivateKey key

/-- Every attempt of a command line is for the one session. -/
theorem session_of_attempt {a : Attempt} (h : t.attempt env settings = .ok a) :
    a.session = sessionName := by
  obtain ⟨server, -, h⟩ := exists_of_bind_eq_ok h
  obtain ⟨exit, -, h⟩ := exists_of_bind_eq_ok h
  cases h
  cases t.entry <;> cases t.transport <;> rfl

/-- The one key of a command line is there for its one session. -/
theorem keySource_of_fresh {a : Attempt} (h : t.attempt env settings = .ok a) (k : PrivateKey) :
    (KeyRing.empty.insert sessionName k).keySource a.session = .ok k := by
  rw [session_of_attempt h]
  rfl

/-- Another fresh key changes the configuration in that key alone, and not at all if the target
brings one. -/
theorem config_withFreshKey (t : Target) (env : Surroundings) (settings : Settings)
    (key : PrivateKey) :
    t.config (env.withFreshKey key) settings = (t.config env settings).map (t.refresh key) := by
  have hattempt : t.attempt (env.withFreshKey key) settings = t.attempt env settings := rfl
  cases hkey : t.privateKey with
  | some text =>
    have hkeys : t.keys (env.withFreshKey key) = t.keys env := by simp only [keys, hkey]
    have hrefresh : t.refresh key = id := by funext c; simp only [refresh, hkey, id]
    rw [config, config, hattempt, hkeys, hrefresh, Except.map_id, id]
  | none =>
    have hkeys (env : Surroundings) :
        t.keys env = .ok (KeyRing.empty.insert sessionName env.freshKey) := by
      simp only [keys, hkey]
      rfl
    have hrefresh : t.refresh key = (·.withPrivateKey key) := by
      funext c
      simp only [refresh, hkey]
    rw [config, config, hattempt, hkeys, hkeys, hrefresh, Surroundings.freshKey_withFreshKey]
    cases ha : t.attempt env settings with
    | error e => rfl
    | ok a =>
      change Except.mapError _ (t.client.configFor a settings _) =
        Except.map _ (Except.mapError _ (t.client.configFor a settings _))
      rw [Client.configFor_of_keys (keySource_of_fresh ha env.freshKey) (keySource_of_fresh ha key)]
      cases t.client.configFor a settings
        (KeyRing.empty.insert sessionName env.freshKey).keySource <;> rfl

/-- A dry run is made of the same parts as the configuration, if they are all there. -/
theorem dryRun_or_error (t : Target) (env : Surroundings) (settings : Settings) :
    (∃ setup a, t.dryRun env settings = .ok (setup, .start setup settings a) ∧
      setup.tunnel = defaultTunnel ∧ ∃ asFailure,
        t.config env settings = (setup.client.configFor a settings setup.keys).mapError asFailure) ∨
    ∃ e, t.dryRun env settings = .error e ∧ t.config env settings = .error e := by
  rw [dryRun, config]
  cases t.attempt env settings with
  | error e => exact .inr ⟨e, rfl, rfl⟩
  | ok a =>
    cases t.keys env with
    | error e => exact .inr ⟨e, rfl, rfl⟩
    | ok keys => exact .inl ⟨⟨defaultTunnel, t.client, keys.keySource⟩, a, rfl, rfl, _, rfl⟩

end Target

namespace Invocation

def configTo (i : Invocation) (env : Surroundings) (t : Target) : Except Failure Config := do
  t.config env (← readSettings env i.config)

def dryRunTo (i : Invocation) (env : Surroundings) (t : Target) :
    Except Failure (Setup × DryRun) := do
  let settings ← readSettings env i.config
  let _ ← readFlagFeed env i.flags
  t.dryRun env settings

/-- Another fresh key changes the configuration in its key at most. -/
theorem configTo_withFreshKey (i : Invocation) (env : Surroundings) (t : Target)
    (key : PrivateKey) :
    i.configTo (env.withFreshKey key) t = (i.configTo env t).map (t.refresh key) := by
  have hsettings : readSettings (env.withFreshKey key) i.config = readSettings env i.config := rfl
  rw [configTo, configTo, hsettings]
  cases readSettings env i.config with
  | error e => rfl
  | ok settings => exact t.config_withFreshKey env settings key

theorem exists_start_of_dryRunTo {setup : Setup} {d : DryRun}
    (h : i.dryRunTo env t = .ok (setup, d)) : ∃ settings a, d = .start setup settings a := by
  obtain ⟨settings, -, h⟩ := exists_of_bind_eq_ok h
  obtain ⟨feed, -, h⟩ := exists_of_bind_eq_ok h
  obtain ⟨setup', a, hmade, -⟩ | ⟨e, hmissing, -⟩ := t.dryRun_or_error env settings
  · cases hmade.symm.trans h
    exact ⟨settings, a, rfl⟩
  · cases hmissing.symm.trans h

end Invocation

theorem perform_render (env : Surroundings) (i : Invocation) (t : Target) :
    perform env { i with command := .render t } =
      (i.configTo env t).map fun c => (c.render, none) := by
  rw [perform, Invocation.configTo]
  cases readSettings env i.config with
  | error e => rfl
  | ok settings =>
    change (t.config env settings >>= _) >>= _ = (t.config env settings).map _
    cases t.config env settings <;> rfl

theorem perform_connect (env : Surroundings) (i : Invocation) (t : Target) :
    perform env { i with command := .connect t } =
      (i.dryRunTo env t).map fun (setup, d) =>
        dryRunOutcome (.runWithin setup DryRun.stepBound d) := by
  rw [perform, Invocation.dryRunTo]
  cases readSettings env i.config with
  | error e => rfl
  | ok settings =>
    change (readFlagFeed env i.flags >>= _) = Except.map _ (readFlagFeed env i.flags >>= _)
    cases readFlagFeed env i.flags with
    | error e => rfl
    | ok feed =>
      change (t.dryRun env settings >>= _) = (t.dryRun env settings).map _
      cases t.dryRun env settings <;> rfl

/-- What an invocation to connect may come to, and what its engine may be asked to do, if the steps
of the dry run come in any order that leaves the monitor its turns in time. -/
inductive MayEnd (env : Surroundings) (i : Invocation) (t : Target) :
    Except Failure (String × Option Failure) → List EngineCall → Prop
  | refused {e : Failure} (hrefused : i.dryRunTo env t = .error e) : MayEnd env i t (.error e) []
  | ran {setup : Setup} {d d' : DryRun} {ls : List DryRunLabel} {failure : Option DryRunFailure}
    (hstart : i.dryRunTo env t = .ok (setup, d)) (hrun : d.runAlong setup ls = some d')
    (htime : d.InTime setup ls) (hended : d'.stage = .ended failure) :
    MayEnd env i t (.ok (dryRunOutcome d')) (d'.machine.calls.map CallRecord.call)

def connectedText : String := "state: connected\nstate: disabled\n"

/-- The end of a dry run decides what is printed and what the engine has been asked. -/
theorem dryRunOutcome_of_endsWith {tunnel : String} {d : DryRun}
    {built : Except ConfigError Config} (h : d.EndsWith tunnel built) :
    (∃ c, built = .ok c ∧ dryRunOutcome d = (connectedText, none) ∧
      d.machine.calls.map CallRecord.call = [upCall tunnel c, downCall tunnel]) ∨
    ∃ e, built = .error e ∧ (dryRunOutcome d).2 ≠ none ∧
      d.machine.calls.map CallRecord.call = [] := by
  cases built with
  | ok c =>
    obtain ⟨hstage, hreports, hcalls⟩ := h
    refine .inl ⟨c, rfl, ?_, hcalls⟩
    rw [dryRunOutcome, hreports, DryRun.failure?, hstage]
    decide
  | error e =>
    obtain ⟨hstage, -, hcalls⟩ := h
    refine .inr ⟨e, rfl, ?_, hcalls⟩
    rw [dryRunOutcome, DryRun.failure?, hstage]
    nofun

/-- Whatever the order of the steps, connecting comes to what rendering comes to. -/
theorem MayEnd.cases_of_config {feed : Option FlagFeed}
    {r : Except Failure (String × Option Failure)} {calls : List EngineCall}
    (hflags : readFlagFeed env i.flags = .ok feed) (h : MayEnd env i t r calls) :
    (∃ c, i.configTo env t = .ok c ∧ r = .ok (connectedText, none) ∧
      calls = [upCall defaultTunnel c, downCall defaultTunnel]) ∨
    (∃ e, i.configTo env t = .error e) ∧ (∀ text, r ≠ .ok (text, none)) ∧ calls = [] := by
  cases hsettings : readSettings env i.config with
  | error e =>
    have hconfig : i.configTo env t = .error e := by rw [Invocation.configTo, hsettings]; rfl
    have hdryRun : i.dryRunTo env t = .error e := by rw [Invocation.dryRunTo, hsettings]; rfl
    cases h with
    | refused => exact .inr ⟨⟨e, hconfig⟩, nofun, rfl⟩
    | ran hstart => cases hdryRun.symm.trans hstart
  | ok settings =>
    have hconfig : i.configTo env t = t.config env settings := by
      rw [Invocation.configTo, hsettings]; rfl
    have hdryRun : i.dryRunTo env t = t.dryRun env settings := by
      rw [Invocation.dryRunTo, hsettings]
      change (readFlagFeed env i.flags >>= _) = _
      rw [hflags]
      rfl
    rw [hconfig]
    obtain ⟨setup, a, hmade, htunnel, asFailure, hbuilt⟩ | ⟨e, hmissing, hunbuilt⟩ :=
      t.dryRun_or_error env settings
    · cases h with
      | refused hrefused => cases (hdryRun.trans hmade).symm.trans hrefused
      | ran hstart hrun htime hended =>
        cases (hdryRun.trans hmade).symm.trans hstart
        rw [hbuilt, ← htunnel]
        obtain ⟨c, hc, hprints, hcalls⟩ | ⟨e, he, hfails, hcalls⟩ :=
          dryRunOutcome_of_endsWith (DryRun.endsWith_of_run hrun htime hended)
        · exact .inl ⟨c, by rw [hc]; rfl, by rw [hprints], hcalls⟩
        · refine .inr ⟨⟨asFailure e, by rw [he]; rfl⟩, fun text htext => hfails ?_, hcalls⟩
          rw [Except.ok.inj htext]
    · cases h with
      | refused => exact .inr ⟨⟨e, hunbuilt⟩, nofun, rfl⟩
      | ran hstart => cases (hdryRun.trans hmissing).symm.trans hstart

/-- The program's own order of the steps is among the orders that there are. -/
theorem mayEnd_perform (env : Surroundings) (i : Invocation) (t : Target) :
    ∃ calls, MayEnd env i t (perform env { i with command := .connect t }) calls := by
  rw [perform_connect]
  cases hstart : i.dryRunTo env t with
  | error e => exact ⟨[], .refused hstart⟩
  | ok start =>
    obtain ⟨setup, d⟩ := start
    obtain ⟨settings, a, rfl⟩ := Invocation.exists_start_of_dryRunTo hstart
    have hnothing : (DryRun.start setup settings a).runAlong setup [] = some _ := rfl
    have htimely : (DryRun.start setup settings a).InTime setup [] := fun _ hstage => nomatch hstage
    obtain ⟨ls, hrun, htime, failure, hended⟩ := DryRun.runWithin_of_run hnothing htimely
    exact ⟨_, .ran hstart hrun htime hended⟩

/-- Connecting succeeds exactly if rendering does, whatever the flags say, whichever fresh keys the
two have, and in whatever order the monitor and the others take their steps; and what is brought up
then, once, is the configuration that is rendered. No order that leaves the monitor its turns goes
on for ever or gets stuck. -/
theorem connect_iff_render (env : Surroundings) (key : PrivateKey) (i : Invocation) (t : Target)
    {feed : Option FlagFeed} (hflags : readFlagFeed env i.flags = .ok feed) :
    let rendered := perform env { i with command := .render t }
    let later := env.withFreshKey key
    (∃ calls, MayEnd later i t (perform later { i with command := .connect t }) calls) ∧
    (∀ r calls, MayEnd later i t r calls →
      ((∃ text, r = .ok (text, none)) ↔ ∃ text, rendered = .ok (text, none)) ∧
      (∀ text, r = .ok (text, none) → text = "state: connected\nstate: disabled\n" ∧
        ∃ c, i.configTo env t = .ok c ∧ rendered = .ok (c.render, none) ∧
          calls = [upCall defaultTunnel (t.refresh key c), downCall defaultTunnel]) ∧
      ((∀ text, r ≠ .ok (text, none)) → calls = [])) ∧
    ∀ setup start, i.dryRunTo later t = .ok (setup, start) →
      ∀ ls d, start.runAlong setup ls = some d → start.InTime setup ls →
        ls.countP (!·.isWait) ≤ longest ∧
        ∃ ls' d' failure, d.runAlong setup ls' = some d' ∧ d.InTime setup ls' ∧
          d'.stage = .ended failure := by
  intro rendered later
  have hrendered : rendered = (i.configTo env t).map fun c => (c.render, none) :=
    perform_render env i t
  have hlater : i.configTo later t = (i.configTo env t).map (t.refresh key) :=
    i.configTo_withFreshKey env t key
  refine ⟨mayEnd_perform later i t, fun r calls h => ?_,
    fun setup start hstart ls d hrun htime => ?_⟩
  · rw [hrendered]
    have hflags' : readFlagFeed later i.flags = .ok feed := hflags
    have hcases := h.cases_of_config hflags'
    rw [hlater] at hcases
    cases hconfig : i.configTo env t with
    | ok c =>
      rw [hconfig] at hcases
      obtain ⟨c', hc', rfl, hcalls⟩ | ⟨⟨e, he⟩, -⟩ := hcases
      · cases hc'
        refine ⟨⟨fun _ => ⟨_, rfl⟩, fun _ => ⟨_, rfl⟩⟩, fun text htext => ?_, fun hfails => ?_⟩
        · cases htext
          exact ⟨rfl, c, rfl, rfl, hcalls⟩
        · exact absurd rfl (hfails connectedText)
      · cases he
    | error e =>
      rw [hconfig] at hcases
      obtain ⟨c', hc', -⟩ | ⟨-, hfails, hcalls⟩ := hcases
      · cases hc'
      · exact ⟨⟨fun ⟨text, h⟩ => absurd h (hfails text), nofun⟩,
          fun text h => absurd h (hfails text), fun _ => hcalls⟩
  · obtain ⟨settings, a, rfl⟩ := Invocation.exists_start_of_dryRunTo hstart
    obtain ⟨ls', hrun', htime', failure, hended⟩ := DryRun.runWithin_of_run hrun htime
    exact ⟨DryRun.countP_le_of_run hrun htime, ls', _, failure, hrun', htime', hended⟩

def sampleFiles : FileReader
  | "flags.json" => .ok "\x7b\x7d".toUTF8
  | "de-7.json" => .ok (
      "[\"de-7\",\"DE#7\",\"DE\",\"DE\",null,2,0,0,true,[[\"de-7-a\",\"de-7-a.example\"," ++
      "\"185.159.157.10\",\x7b\x7d,null,\"AAAAAAAAAAAAAAAAAAAAAAAAAAAAAAAAAAAAAAAAAAA=\"]]]").toUTF8
  | _ => .error .notFound

def sampleSurroundings : Surroundings := ⟨sampleFiles, ⟨List.replicate 32 2, rfl⟩⟩

def sampleTarget : Target :=
  ⟨"de-7.json", none, defaultPort, none, none, none, defaultMtu, false⟩

/-- Connecting to the one node succeeds in every order, with the fresh key of that time. -/
theorem connect_of_sampleFiles :
    let i : Invocation := ⟨none, .foss, some "flags.json", .connect sampleTarget⟩
    let later := sampleSurroundings.withFreshKey ⟨List.replicate 32 1, rfl⟩
    (∃ r calls, MayEnd later i sampleTarget r calls) ∧
    ∃ c, i.configTo sampleSurroundings sampleTarget = .ok c ∧
      ∀ r calls, MayEnd later i sampleTarget r calls →
        r = .ok ("state: connected\nstate: disabled\n", none) ∧
        calls = [upCall defaultTunnel (c.withPrivateKey later.freshKey),
          downCall defaultTunnel] := by
  intro i later
  have hflags : readFlagFeed sampleSurroundings i.flags = .ok (some fun _ => .ok .empty) := rfl
  obtain ⟨⟨calls, hown⟩, hall, -⟩ :=
    connect_iff_render sampleSurroundings later.freshKey i sampleTarget hflags
  have hbuilt : (i.configTo sampleSurroundings sampleTarget).isOk = true := by decide +kernel
  obtain ⟨c, hc⟩ : ∃ c, i.configTo sampleSurroundings sampleTarget = .ok c := by
    cases h : i.configTo sampleSurroundings sampleTarget with
    | ok c => exact ⟨c, rfl⟩
    | error e => rw [h] at hbuilt; cases hbuilt
  refine ⟨⟨_, calls, hown⟩, c, hc, fun r calls h => ?_⟩
  obtain ⟨hiff, hok, -⟩ := hall r calls h
  obtain ⟨text, rfl⟩ := hiff.mpr ⟨c.render, by rw [perform_render, hc]; rfl⟩
  obtain ⟨rfl, c', hc', -, hcalls⟩ := hok text rfl
  cases hc.symm.trans hc'
  exact ⟨rfl, hcalls⟩

end Cli

end VpnTunnel
