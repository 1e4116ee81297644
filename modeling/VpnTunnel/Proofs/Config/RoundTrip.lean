import VpnTunnel.Proofs.Config.Entries
import VpnTunnel.Proofs.Config.Reading

/-!
# Writing and reading back

Reading the text of a configuration with clean texts takes up its lines one by one. If no line is
left without a value, this gives the configuration back; else the first such line is refused.
-/

namespace VpnTunnel

namespace PartialConfig

theorem addLine_interfaceHeader :
    empty.addLine (.ofChars interfaceHeader) = .ok ⟨some .empty, [], .interface⟩ := by
  rw [ConfigLine.ofChars_interfaceHeader]
  decide

theorem addLine_peerHeader (d : PartialConfig) : d.addLine (.ofChars peerHeader) =
    .ok { d with peers := .empty :: d.peers, current := .peer } := by
  have hinterface : Text.sameWord peerHeader interfaceHeader = false := by decide
  have hpeer : Text.sameWord peerHeader peerHeader = true := by decide
  rw [ConfigLine.ofChars_peerHeader]
  simp [addLine, startSection, hinterface, hpeer]

/-- The lines of a peer begin a section that says all of the peer. -/
theorem addLines_peer (i : Option PartialInterface) (peers : List PartialPeer) (k : SectionKind)
    (p : Peer) (line : Nat) (rest : List (List Char)) :
    addLines ⟨i, peers, k⟩ line (p.lines ++ rest) =
      addLines ⟨i, p.said :: peers, .peer⟩ (line + p.lines.length) rest := by
  have hblank : addLine ⟨i, peers, k⟩ (.ofChars []) = .ok ⟨i, peers, k⟩ := rfl
  have hentries := SectionRules.addLines_lines (peerRules_govern i peers) p.clean_of_mem_entries
    p.ne_nil_of_mem_entries p.setAll_entries (line + 1 + 1) rest
  have hlines : p.lines = [] :: peerHeader :: peerRules.lines p.entries := rfl
  have hlength : line + p.lines.length = line + 1 + 1 + p.entries.length := by
    rw [hlines, SectionRules.lines, List.length_cons, List.length_cons, List.length_map]
    omega
  rw [hlength, hlines, List.cons_append, addLines, hblank, List.cons_append]
  simp only [addLines, addLine_peerHeader]
  exact hentries

/-- The peers are taken up one after the other. -/
theorem addLines_peers (i : Option PartialInterface) (peers : List PartialPeer) (k : SectionKind)
    (ps : List Peer) (line : Nat) (rest : List (List Char)) :
    ∃ k', addLines ⟨i, peers, k⟩ line (ps.flatMap Peer.lines ++ rest) =
      addLines ⟨i, (ps.map Peer.said).reverse ++ peers, k'⟩
        (line + (ps.flatMap Peer.lines).length) rest := by
  induction ps generalizing peers k line with
  | nil => exact ⟨k, rfl⟩
  | cons p ps ih =>
    obtain ⟨k', hrest⟩ := ih (p.said :: peers) .peer (line + p.lines.length)
    have hlength : line + ((p :: ps).flatMap Peer.lines).length =
        line + p.lines.length + (ps.flatMap Peer.lines).length := by
      rw [List.flatMap_cons, List.length_append]
      omega
    have hpeers : ((p :: ps).map Peer.said).reverse ++ peers =
        (ps.map Peer.said).reverse ++ p.said :: peers := by simp
    refine ⟨k', ?_⟩
    rw [hlength, hpeers, ← hrest, List.flatMap_cons, List.append_assoc, addLines_peer]

theorem mapM_complete_said (ps : List Peer) :
    (ps.map Peer.said).mapM PartialPeer.complete = .ok ps := by
  induction ps with
  | nil => rfl
  | cons p ps ih =>
    rw [List.map_cons, List.mapM_cons, p.complete_said, ih]
    rfl

/-- What an interface and its peers have said is completed to them. -/
theorem complete_said (i : Interface) (ps : List Peer) (k : SectionKind) :
    complete ⟨some i.said, (ps.map Peer.said).reverse, k⟩ = .ok ⟨i, ps⟩ := by
  simp only [complete, i.complete_said, List.reverse_reverse, mapM_complete_said]
  rfl

theorem addLines_empty_line (d : PartialConfig) (line : Nat) : d.addLines line [[]] = .ok d := rfl

/-- Entries that say all of an interface, and then its peers, are read as the configuration of
both. -/
theorem complete_addLines_entries {i : Interface} {entries : List (InterfaceKey × List Char)}
    (hclean : ∀ e ∈ entries, Text.Clean e.2) (hvalue : ∀ e ∈ entries, e.2 ≠ [])
    (hset : interfaceRules.setAll .empty entries = .ok i.said) (ps : List Peer) (line : Nat) :
    (addLines ⟨some .empty, [], .interface⟩ line
      (interfaceRules.lines entries ++ (ps.flatMap Peer.lines ++ [[]]))).bind complete =
        .ok ⟨i, ps⟩ := by
  have hinterface := SectionRules.addLines_lines (interfaceRules_govern []) hclean hvalue hset line
    (ps.flatMap Peer.lines ++ [[]])
  obtain ⟨k, hpeers⟩ := addLines_peers (some i.said) [] .interface ps (line + entries.length) [[]]
  rw [List.append_nil] at hpeers
  rw [hinterface, hpeers, addLines_empty_line]
  exact complete_said i ps k

end PartialConfig

namespace Config

variable {c : Config}

theorem no_break_entryLine {name : String} {value : List Char} (hname : KeyWord name.toList)
    (hvalue : '\n' ∉ value) : '\n' ∉ entryLine name value := by
  have hno := hname.plain.clean.no_break
  simp [entryLine, hno, hvalue]

theorem no_break_of_mem_lines (h : ∀ e ∈ c.interface.entries, '\n' ∉ e.2) :
    ∀ l ∈ c.lines, '\n' ∉ l := by
  have hinterface : ∀ l ∈ c.interface.lines, '\n' ∉ l := by
    rw [Interface.lines, List.forall_mem_cons, List.forall_mem_map]
    exact ⟨by decide, fun e he => no_break_entryLine e.1.keyWord (h e he)⟩
  have hpeer (p : Peer) : ∀ l ∈ p.lines, '\n' ∉ l := by
    rw [Peer.lines, List.forall_mem_cons, List.forall_mem_cons, List.forall_mem_map]
    exact ⟨by decide, by decide, fun e he => no_break_entryLine e.1.keyWord
      (p.clean_of_mem_entries e he).no_break⟩
  rw [lines, List.forall_mem_append]
  refine ⟨hinterface, ?_⟩
  intro l hl
  obtain ⟨p, _, hlp⟩ := List.mem_flatMap.mp hl
  exact hpeer p l hlp

/-- The text splits into the lines it was written from, with nothing behind the last break. -/
theorem splitOn_render (h : ∀ e ∈ c.interface.entries, '\n' ∉ e.2) :
    c.render.toList.splitOn '\n' = interfaceHeader :: (interfaceRules.lines c.interface.entries ++
      (c.peers.flatMap Peer.lines ++ [[]])) := by
  rw [render, String.toList_ofList, toChars,
    Text.splitOn_flatMap_append (no_break_of_mem_lines h), lines, List.append_assoc]
  rfl

/-- A rendered configuration is taken up entry by entry, if no value breaks its line. -/
theorem parse_render_eq (h : ∀ e ∈ c.interface.entries, '\n' ∉ e.2) : parse c.render =
    (PartialConfig.addLines ⟨some .empty, [], .interface⟩ 2
      (interfaceRules.lines c.interface.entries ++ (c.peers.flatMap Peer.lines ++ [[]]))).bind
        PartialConfig.complete := by
  rw [parse, ofChars, splitOn_render h, PartialConfig.addLines,
    PartialConfig.addLine_interfaceHeader]
  rfl

theorem no_break_of_clean (h : c.interface.Clean) : ∀ e ∈ c.interface.entries, '\n' ∉ e.2 :=
  fun e he => (Interface.clean_of_mem_entries h e he).no_break

/-- A clean configuration is read back if no line is left without a value. -/
theorem parse_render_of_filled (h : c.interface.Clean) (hfilled : c.interface.Filled) :
    parse c.render = .ok c := by
  rw [parse_render_eq (no_break_of_clean h)]
  exact PartialConfig.complete_addLines_entries (Interface.clean_of_mem_entries h)
    ((Interface.filled_iff_entries h).mp hfilled) (Interface.setAll_entries h) c.peers 2

/-- A line without a value is refused. -/
theorem parse_render_of_not_filled (h : c.interface.Clean) (hfilled : ¬c.interface.Filled) :
    ∃ line key, parse c.render = .error (.parse line (.emptyValue key)) := by
  have hempty : ∃ e ∈ c.interface.entries, e.2 = [] := by
    simpa [Interface.filled_iff_entries h] using hfilled
  obtain ⟨line, key, herror⟩ := SectionRules.addLines_lines_of_empty (interfaceRules_govern [])
    (Interface.clean_of_mem_entries h) hempty (Interface.setAll_entries h) 2
    (c.peers.flatMap Peer.lines ++ [[]])
  refine ⟨line, key, ?_⟩
  rw [parse_render_eq (no_break_of_clean h), herror]
  rfl

/-- What is read back had a value on every line. -/
theorem filled_of_parse_render {c' : Config} (hclean : c.interface.Clean)
    (h : parse c.render = .ok c') : c.interface.Filled := by
  by_contra hfilled
  obtain ⟨line, key, herror⟩ := parse_render_of_not_filled hclean hfilled
  rw [h] at herror
  cases herror

/-- A configuration is read back from its text if and only if the text can carry it. -/
theorem parse_render_eq_ok_iff (c : Config) : parse c.render = .ok c ↔ c.interface.WireSafe := by
  rw [Interface.wireSafe_iff_clean_filled]
  constructor
  · intro h
    have hclean := clean_of_parse h
    refine ⟨hclean, ?_⟩
    by_contra hfilled
    obtain ⟨line, key, herror⟩ := parse_render_of_not_filled hclean hfilled
    rw [h] at herror
    cases herror
  · rintro ⟨hclean, hfilled⟩
    exact parse_render_of_filled hclean hfilled

/-- A configuration that was read is never read back as another one. It is read back as itself if
every line of the interface has a value, and otherwise the missing value is reported. -/
theorem parse_render_of_parse {text : String} (h : parse text = .ok c) :
    (∀ c', parse c.render = .ok c' → c' = c) ∧
    (parse c.render = .ok c ↔ c.interface.Filled) ∧
    (¬c.interface.Filled →
      ∃ line key, parse c.render = .error (.parse line (.emptyValue key))) := by
  have hclean := clean_of_parse h
  by_cases hfilled : c.interface.Filled
  · have hread := parse_render_of_filled hclean hfilled
    refine ⟨?_, iff_of_true hread hfilled, fun hno => absurd hfilled hno⟩
    intro c' hc'
    rw [hread] at hc'
    cases hc'
    rfl
  · obtain ⟨line, key, herror⟩ := parse_render_of_not_filled hclean hfilled
    refine ⟨?_, iff_of_false ?_ hfilled, fun _ => ⟨line, key, herror⟩⟩
    · intro c' hc'
      rw [herror] at hc'
      cases hc'
    · intro hread
      rw [herror] at hread
      cases hread

def keyText : String := "[Interface]\nPrivateKey = AAAAAAAAAAAAAAAAAAAAAAAAAAAAAAAAAAAAAAAAAAA=\n"

def keyConfig : Config :=
  ⟨⟨⟨List.replicate 32 0, rfl⟩, [], [], defaultMtu, none, .all⟩, []⟩

theorem parse_render_keyConfig : parse keyText = .ok keyConfig ∧
    ∃ line key, parse keyConfig.render = .error (.parse line (.emptyValue key)) := by
  have hread : parse keyText = .ok keyConfig := by decide
  have hfilled : ¬keyConfig.interface.Filled := fun h => h.addresses rfl
  exact ⟨hread, (parse_render_of_parse hread).2.2 hfilled⟩

end Config

end VpnTunnel
