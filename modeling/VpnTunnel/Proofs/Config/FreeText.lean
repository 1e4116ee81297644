import VpnTunnel.Proofs.Config.RoundTrip

/-!
# Free texts on the wire

The magic headers, the special packet and the names of applications are written as they are. As
long as none of them holds a line break, each stays within its own line: whatever else it holds, all
other fields are read back as they were written. A line break in one of them begins a line of its
own, which may say anything.
-/

namespace VpnTunnel

open Text (Clean carried)

def carriedEntry {κ : Type} (e : κ × List Char) : κ × List Char := (e.1, carried e.2)

/-- Lines that are read as the same are taken up in the same way. -/
theorem PartialConfig.addLines_congr {ls ls' : List (List Char)}
    (h : ls.map ConfigLine.ofChars = ls'.map ConfigLine.ofChars) (d : PartialConfig) (line : Nat) :
    d.addLines line ls = d.addLines line ls' := by
  induction ls generalizing ls' d line with
  | nil =>
    cases ls' with
    | nil => rfl
    | cons => cases h
  | cons l ls ih =>
    cases ls' with
    | nil => cases h
    | cons l' ls' =>
      obtain ⟨hl, hls⟩ := List.cons.inj h
      rw [addLines, addLines, hl]
      split
      · exact ih hls _ _
      · rfl

/-- Written entries are taken up as what their lines carry of them. -/
theorem SectionRules.addLines_carried {κ σ : Type} {rules : SectionRules κ σ} (d : PartialConfig)
    (line : Nat) (entries : List (κ × List Char)) (rest : List (List Char)) :
    d.addLines line (rules.lines entries ++ rest) =
      d.addLines line (rules.lines (entries.map carriedEntry) ++ rest) := by
  apply PartialConfig.addLines_congr
  have hline (e : κ × List Char) : ConfigLine.ofChars (entryLine (rules.name e.1) e.2) =
      .ofChars (entryLine (rules.name e.1) (carried e.2)) := by
    rw [ConfigLine.ofChars_entryLine_eq (rules.keyWord e.1),
      ConfigLine.ofChars_entryLine_eq (rules.keyWord e.1), Text.carried_carried]
  simp [lines, carriedEntry, hline]

namespace Obfuscation

def texts (o : Obfuscation) : List String := [o.h1, o.h2, o.h3, o.h4, o.i1]

def carried (o : Obfuscation) : Obfuscation :=
  let text (s : String) := String.ofList (Text.carried s.toList)
  { o with h1 := text o.h1, h2 := text o.h2, h3 := text o.h3, h4 := text o.h4, i1 := text o.i1 }

def withoutTexts (o : Obfuscation) : Obfuscation :=
  { o with h1 := "", h2 := "", h3 := "", h4 := "", i1 := "" }

theorem setAll_carried (o : Obfuscation) {d : PartialInterface} (h : d.obfuscation = none) :
    interfaceRules.setAll d (o.entries.map carriedEntry) =
      .ok { d with obfuscation := some o.carried } := by
  have hnumber (n : Nat) : Text.carried (Text.digits n) = Text.digits n :=
    Text.carried_of_clean (Text.plain_digits n).clean
  obtain ⟨jc, jmin, jmax, s1, s2, h1, h2, h3, h4, i1⟩ := o
  by_cases hempty : i1 = ""
  · simp [SectionRules.setAll, interfaceRules, PartialInterface.set, entries, h, hempty, blank,
      PartialInterface.setNumber_digits, PartialInterface.setText, carriedEntry, carried, hnumber,
      bind, Except.bind, pure, Except.pure, Text.carried_of_clean Text.clean_nil]
  · simp [SectionRules.setAll, interfaceRules, PartialInterface.set, entries, h, hempty,
      PartialInterface.setNumber_digits, PartialInterface.setText, carriedEntry, carried, hnumber,
      bind, Except.bind, pure, Except.pure]

theorem no_break_of_mem_entries {o : Obfuscation} (h : ∀ s ∈ o.texts, '\n' ∉ s.toList) :
    ∀ e ∈ o.entries, '\n' ∉ e.2 := by
  have hnumber (n : Nat) : '\n' ∉ Text.digits n := (Text.plain_digits n).clean.no_break
  simp only [texts, List.forall_mem_cons] at h
  rw [entries, List.forall_mem_append]
  constructor
  · simp [hnumber, h]
  · split <;> simp [h]

end Obfuscation

namespace AppBinding

def texts (b : AppBinding) : List String := (b.names?.map NameSet.toList).getD []

/-- The binding with the names that are found in what a line carries of its list. -/
def carried : AppBinding → AppBinding
  | all => all
  | only apps => only (readNames (Text.carried (Text.commaJoin (apps.toList.map String.toList))))
  | allBut apps =>
    allBut (readNames (Text.carried (Text.commaJoin (apps.toList.map String.toList))))

def withoutTexts : AppBinding → AppBinding
  | all => all
  | only _ => only .empty
  | allBut _ => allBut .empty

theorem setAll_carried (b : AppBinding) {d : PartialInterface} (hincluded : d.included = none)
    (hexcluded : d.excluded = none) : interfaceRules.setAll d (b.entries.map carriedEntry) =
      .ok { d with included := b.carried.included, excluded := b.carried.excluded } := by
  obtain ⟨_, _, _, _, _, _, _⟩ := d
  cases hincluded
  cases hexcluded
  cases b <;> rfl

theorem no_break_of_mem_entries {b : AppBinding} (h : ∀ s ∈ b.texts, '\n' ∉ s.toList) :
    ∀ e ∈ b.entries, '\n' ∉ e.2 := by
  have hlist (apps : NameSet) (happs : ∀ s ∈ apps.toList, '\n' ∉ s.toList) :
      '\n' ∉ Text.commaJoin (apps.toList.map String.toList) := by
    intro hc
    rcases Text.mem_commaJoin hc with hcomma | hspace | ⟨w, hw, hc⟩
    · cases hcomma
    · cases hspace
    · obtain ⟨name, hname, rfl⟩ := List.mem_map.mp hw
      exact happs name hname hc
  cases b with
  | all => simp [entries]
  | only apps => simpa [entries] using hlist apps (by simpa [texts, names?] using h)
  | allBut apps => simpa [entries] using hlist apps (by simpa [texts, names?] using h)

end AppBinding

namespace Interface

/-- The free texts of the interface, which are written as they are. -/
def texts (i : Interface) : List String :=
  (i.obfuscation.map Obfuscation.texts).getD [] ++ i.apps.texts

def carried (i : Interface) : Interface :=
  { i with obfuscation := i.obfuscation.map Obfuscation.carried, apps := i.apps.carried }

def withoutTexts (i : Interface) : Interface :=
  { i with obfuscation := i.obfuscation.map Obfuscation.withoutTexts, apps := i.apps.withoutTexts }

def plainEntries (i : Interface) : List (InterfaceKey × List Char) :=
  { i with obfuscation := none, apps := .all : Interface }.entries

theorem entries_eq (i : Interface) : i.entries =
    i.plainEntries ++ (i.obfuscation.map Obfuscation.entries).getD [] ++ i.apps.entries := by
  simp [plainEntries, entries, AppBinding.entries]

theorem clean_plain (i : Interface) :
    { i with obfuscation := none, apps := .all : Interface }.Clean :=
  ⟨(fun _ h => nomatch h), fun _ h => nomatch h⟩

theorem clean_of_mem_plainEntries (i : Interface) : ∀ e ∈ i.plainEntries, Text.Clean e.2 :=
  clean_of_mem_entries i.clean_plain

theorem no_break_of_mem_entries {i : Interface} (h : ∀ s ∈ i.texts, '\n' ∉ s.toList) :
    ∀ e ∈ i.entries, '\n' ∉ e.2 := by
  obtain ⟨hobfuscation, happs⟩ := List.forall_mem_append.mp h
  simp only [entries_eq, List.forall_mem_append]
  refine ⟨⟨fun e he => (i.clean_of_mem_plainEntries e he).no_break, ?_⟩,
    AppBinding.no_break_of_mem_entries happs⟩
  cases ho : i.obfuscation with
  | none => simp
  | some o => exact Obfuscation.no_break_of_mem_entries (by simpa [ho] using hobfuscation)

/-- What lines carry of the entries says what they carry of the interface. -/
theorem setAll_carried (i : Interface) :
    interfaceRules.setAll .empty (i.entries.map carriedEntry) = .ok i.carried.said := by
  have hplain : i.plainEntries.map carriedEntry = i.plainEntries := by
    rw [List.map_congr_left, List.map_id]
    intro e he
    rw [carriedEntry, Text.carried_of_clean (i.clean_of_mem_plainEntries e he)]
    rfl
  have hhead : interfaceRules.setAll .empty i.plainEntries = _ := setAll_entries i.clean_plain
  have hobfuscation (d : PartialInterface) (h : d.obfuscation = none) :
      interfaceRules.setAll d (((i.obfuscation.map Obfuscation.entries).getD []).map carriedEntry) =
        .ok { d with obfuscation := i.carried.obfuscation } := by
    cases ho : i.obfuscation with
    | none =>
      rw [Option.map_none, Option.getD_none, List.map_nil, SectionRules.setAll_nil]
      simp only [carried, ho, Option.map_none]
      rw [← h]
    | some o => simpa [carried, ho] using o.setAll_carried h
  rw [entries_eq, List.map_append, List.map_append, hplain]
  exact SectionRules.setAll_append (SectionRules.setAll_append hhead (hobfuscation _ rfl))
    (i.apps.setAll_carried rfl rfl)

/-- Lines change nothing but free texts. -/
theorem withoutTexts_carried (i : Interface) : i.carried.withoutTexts = i.withoutTexts := by
  obtain ⟨_, _, _, _, obfuscation, apps⟩ := i
  cases obfuscation <;> cases apps <;> rfl

end Interface

namespace Config

variable {c c' : Config}

/-- The configuration with every free text emptied: the two sides are left, with all their keys,
addresses and numbers. -/
def withoutTexts (c : Config) : Config := { c with interface := c.interface.withoutTexts }

/-- Without line breaks in its texts, a configuration is read back, if it is, with what the lines
carry of them. -/
theorem eq_of_parse_render (hbreak : ∀ s ∈ c.interface.texts, '\n' ∉ s.toList)
    (h : parse c.render = .ok c') : c' = { c with interface := c.interface.carried } := by
  have hentries := Interface.no_break_of_mem_entries hbreak
  have hclean : ∀ e ∈ c.interface.entries.map carriedEntry, Clean e.2 := by
    rw [List.forall_mem_map]
    exact fun e he => Text.clean_carried (hentries e he)
  have hset := c.interface.setAll_carried
  rw [parse_render_eq hentries, SectionRules.addLines_carried] at h
  by_cases hvalue : ∀ e ∈ c.interface.entries.map carriedEntry, e.2 ≠ []
  · rw [PartialConfig.complete_addLines_entries hclean hvalue hset] at h
    cases h
    rfl
  · have hempty : ∃ e ∈ c.interface.entries.map carriedEntry, e.2 = [] := by
      simpa using hvalue
    obtain ⟨line, key, herror⟩ := SectionRules.addLines_lines_of_empty (interfaceRules_govern [])
      hclean hempty hset 2 (c.peers.flatMap Peer.lines ++ [[]])
    rw [herror] at h
    cases h

/-- Texts without line breaks change nothing but themselves. -/
theorem withoutTexts_eq_of_parse_render (hbreak : ∀ s ∈ c.interface.texts, '\n' ∉ s.toList)
    (h : parse c.render = .ok c') : c'.withoutTexts = c.withoutTexts := by
  rw [eq_of_parse_render hbreak h, withoutTexts, withoutTexts, Interface.withoutTexts_carried]

theorem parse_render_eq_ofChars (c : Config) : parse c.render = ofChars c.toChars := by
  rw [parse, render, String.toList_ofList]

def interfaceAddress : Ipv4 := ⟨0x0a020002, by decide⟩

def annotatedConfig : Config where
  interface :=
    { keyConfig.interface with
      addresses := [.v4 (.single interfaceAddress)]
      obfuscation := some ⟨3, 1, 3, 0, 0, " 1 ", "2", "3", "4", ""⟩
      apps := .only (.ofList ["app.one", "app.two # a comment"]) }
  peers := []

theorem withoutTexts_annotatedConfig : ∃ c', parse annotatedConfig.render = .ok c' ∧
    c' ≠ annotatedConfig ∧ c'.withoutTexts = annotatedConfig.withoutTexts := by
  have hread : ofChars annotatedConfig.toChars =
      .ok { annotatedConfig with
        interface :=
          { annotatedConfig.interface with
            obfuscation := some ⟨3, 1, 3, 0, 0, "1", "2", "3", "4", ""⟩
            apps := .only (.ofList ["app.one", "app.two"]) } } := by
    decide +kernel
  rw [← parse_render_eq_ofChars] at hread
  exact ⟨_, hread, by decide, withoutTexts_eq_of_parse_render (by decide) hread⟩

def smuggledPeer : String :=
  "app\n[Peer]\nPublicKey = AAAAAAAAAAAAAAAAAAAAAAAAAAAAAAAAAAAAAAAAAAA=\nEndpoint = 192.0.2.1:51820"

def smugglingConfig : Config where
  interface :=
    { keyConfig.interface with
      addresses := [.v4 (.single interfaceAddress)]
      apps := .only (.ofList [smuggledPeer]) }
  peers := []

/-- A line break in the name of an application adds a peer to the configuration that is read. -/
theorem parse_render_smugglingConfig :
    ∃ c', parse smugglingConfig.render = .ok c' ∧ c'.peers ≠ smugglingConfig.peers := by
  have hread : ofChars smugglingConfig.toChars =
      .ok ⟨{ smugglingConfig.interface with apps := .only (.ofList ["app"]) },
        [⟨⟨List.replicate 32 0, rfl⟩, ⟨.v4 (.ofOctets 192 0 2 1), 51820⟩, [], none⟩]⟩ := by
    decide +kernel
  rw [← parse_render_eq_ofChars] at hread
  exact ⟨_, hread, by decide⟩

end Config

end VpnTunnel
