import VpnTunnel.Proofs.Client.Outcome
import VpnTunnel.Proofs.Config.RoundTrip

/-!
# Reading back what a client makes

A configuration that a client makes has an address, one peer, and no empty list of applications. Its
text can fail to be read back through the free texts of the settings alone, and through the client's
own name where that is listed.
-/

namespace VpnTunnel

def Split.boundNames (split : Split) (ownPackage : String) : List String :=
  match split.mode with
  | .includeApps => ownPackage :: split.apps.toList
  | .excludeApps => split.apps.toList
  | _ => []

/-- A line carries each free text that goes into a configuration. -/
def Settings.WireSafe (settings : Settings) (ownPackage : String) : Prop :=
  settings.profile.params.WireSafe ∧ ∀ name ∈ settings.split.boundNames ownPackage, AppName name

namespace AppBinding

theorem wireSafe_all : all.WireSafe := fun _ h => nomatch h

theorem wireSafe_only_iff {apps : NameSet} :
    (only apps).WireSafe ↔ apps.toList ≠ [] ∧ ∀ name ∈ apps.toList, AppName name := by
  simp [WireSafe, names?]

theorem wireSafe_allBut_iff {apps : NameSet} :
    (allBut apps).WireSafe ↔ apps.toList ≠ [] ∧ ∀ name ∈ apps.toList, AppName name := by
  simp [WireSafe, names?]

/-- The list of a binding made from settings is never empty, so only its names count. -/
theorem wireSafe_ofSplit_iff (split : Split) (ownPackage : String) :
    (ofSplit split ownPackage).WireSafe ↔
      ∀ name ∈ split.boundNames ownPackage, AppName name := by
  obtain ⟨mode, apps, ips⟩ := split
  cases mode with
  | off | excludeIps | includeIps => simp [ofSplit, Split.boundNames, wireSafe_all]
  | includeApps =>
    have hmem : ∀ n, n ∈ (apps.insert ownPackage).toList ↔ n ∈ ownPackage :: apps.toList :=
      fun n => NameSet.mem_toList_insert.trans List.mem_cons.symm
    have hne : (apps.insert ownPackage).toList ≠ [] :=
      List.ne_nil_of_mem ((hmem ownPackage).mpr List.mem_cons_self)
    simp only [ofSplit, Split.boundNames, wireSafe_only_iff, hmem]
    exact and_iff_right hne
  | excludeApps =>
    by_cases hempty : apps.toList = []
    · simp [ofSplit, Split.boundNames, NameSet.isEmpty, hempty, wireSafe_all]
    · simp [ofSplit, Split.boundNames, NameSet.isEmpty, hempty, wireSafe_allBut_iff]

end AppBinding

namespace Client

variable {c : Client} {attempt : Attempt} {settings : Settings} {keys : KeySource}
  {config : Config}

/-- What a client makes for an attempt is made of an endpoint, the two keys, and the settings. -/
theorem exists_of_configFor (h : c.configFor attempt settings keys = .ok config) :
    ∃ endpoint peerKey privateKey,
      config = c.configOf attempt settings endpoint peerKey privateKey settings.profile := by
  obtain ⟨ip, peerKey, privateKey, -, -, -, -, rfl⟩ := configFor_eq_ok_iff.mp h
  exact ⟨⟨ip, attempt.port⟩, peerKey, privateKey, rfl⟩

/-- Lines carry a configuration just when they carry the settings that it is made from. -/
theorem wireSafe_configOf_iff (endpoint : Endpoint) (peerKey : PublicKey)
    (privateKey : PrivateKey) :
    (c.configOf attempt settings endpoint peerKey privateKey settings.profile).interface.WireSafe ↔
      settings.WireSafe c.package := by
  have haddress : c.addresses attempt.isDualStack ≠ [] := List.cons_ne_nil _ _
  simp [Interface.WireSafe, Settings.WireSafe, configOf, haddress,
    AppBinding.wireSafe_ofSplit_iff]

/-- A configuration that a client makes has one peer, and it is read back from its text if and only
if a line carries each of the free texts that went into it. -/
theorem parse_render_configFor_iff (h : c.configFor attempt settings keys = .ok config) :
    (∃ peer, config.peers = [peer]) ∧
      (Config.parse config.render = .ok config ↔ settings.WireSafe c.package) := by
  obtain ⟨endpoint, peerKey, privateKey, rfl⟩ := exists_of_configFor h
  refine ⟨⟨_, rfl⟩, ?_⟩
  rw [← wireSafe_configOf_iff endpoint peerKey privateKey,
    Interface.wireSafe_iff_clean_filled]
  constructor
  · intro hread
    have hclean := Config.clean_of_parse hread
    exact ⟨hclean, Config.filled_of_parse_render hclean hread⟩
  · rintro ⟨hclean, hfilled⟩
    exact Config.parse_render_of_filled hclean hfilled

def sampleKeys : KeyRing :=
  KeyRing.empty.insert "session-1" Config.keyConfig.interface.privateKey

def sampleSettings : Settings :=
  { Settings.default with
    split := .ofApps .includeApps ["org.example.browser"]
    profile := ⟨1, "plain", false, ⟨3, 1, 3, 0, 0, "1", "2", "3", "4", ""⟩⟩ }

theorem parse_render_sample : ∃ config,
    standard.configFor sampleAttempt sampleSettings sampleKeys.keySource = .ok config ∧
      (∃ peer, config.peers = [peer]) ∧ Config.parse config.render = .ok config := by
  have hmade : ∃ config,
      standard.configFor sampleAttempt sampleSettings sampleKeys.keySource = .ok config := ⟨_, rfl⟩
  have hsafe : sampleSettings.WireSafe standard.package := by
    simp only [Settings.WireSafe, Obfuscation.WireSafe, AppName, WireSafe]
    decide
  obtain ⟨config, hmade⟩ := hmade
  obtain ⟨hpeers, hread⟩ := parse_render_configFor_iff hmade
  exact ⟨config, hmade, hpeers, hread.mpr hsafe⟩

end Client

end VpnTunnel
