import VpnTunnel.Proofs.Config.Line

/-!
# Reading the entries of a section

The two kinds of section differ in their keys and in what an entry does. A run over the written
entries of either kind takes them up one after the other, up to the first one without a value.
-/

namespace VpnTunnel

open Text (Clean)

/-- A kind of section: the words for its keys, and how an entry is taken up. -/
structure SectionRules (κ σ : Type) where
  name : κ → String
  set : σ → κ → List Char → List Char → Except LineError σ
  keyWord : ∀ k, KeyWord (name k).toList

def interfaceRules : SectionRules InterfaceKey PartialInterface :=
  ⟨InterfaceKey.name, PartialInterface.set, InterfaceKey.keyWord⟩

def peerRules : SectionRules PeerKey PartialPeer := ⟨PeerKey.name, PartialPeer.set, PeerKey.keyWord⟩

namespace SectionRules

variable {κ σ : Type} (rules : SectionRules κ σ)

def setAll (d : σ) (entries : List (κ × List Char)) : Except LineError σ :=
  entries.foldlM (fun d e => rules.set d e.1 (rules.name e.1).toList e.2) d

def lines (entries : List (κ × List Char)) : List (List Char) :=
  entries.map fun e => entryLine (rules.name e.1) e.2

/-- The rules decide what a configuration does with an entry while `state` is its current part. -/
def Govern (state : σ → PartialConfig) : Prop :=
  ∀ d k value, (state d).addEntry (rules.name k).toList value =
    (rules.set d k (rules.name k).toList value).map state

variable {rules}

@[simp] theorem setAll_nil (d : σ) : rules.setAll d [] = .ok d := rfl

/-- Taking up entries begins with the first of them. -/
theorem setAll_cons_of_ok {d d' : σ} {e : κ × List Char}
    (h : rules.set d e.1 (rules.name e.1).toList e.2 = .ok d') (entries : List (κ × List Char)) :
    rules.setAll d (e :: entries) = rules.setAll d' entries := by
  rw [setAll, List.foldlM_cons, h]
  rfl

/-- Entries are taken up in their order. -/
theorem setAll_append {d d₁ d₂ : σ} {entries more : List (κ × List Char)}
    (h : rules.setAll d entries = .ok d₁) (hmore : rules.setAll d₁ more = .ok d₂) :
    rules.setAll d (entries ++ more) = .ok d₂ := by
  rw [setAll] at h
  rw [setAll, List.foldlM_append, h]
  exact hmore

theorem setAll_cons_eq_ok {d d' : σ} {e : κ × List Char} {entries : List (κ × List Char)}
    (h : rules.setAll d (e :: entries) = .ok d') :
    ∃ d₁, rules.set d e.1 (rules.name e.1).toList e.2 = .ok d₁ ∧
      rules.setAll d₁ entries = .ok d' := by
  rw [setAll, List.foldlM_cons] at h
  exact exists_of_bind_eq_ok h

/-- One written entry with a value is taken up by the rules. -/
theorem addLine_entryLine {state : σ → PartialConfig} (hstate : rules.Govern state) {d d' : σ}
    {e : κ × List Char} (hclean : Clean e.2) (hvalue : e.2 ≠ [])
    (hset : rules.set d e.1 (rules.name e.1).toList e.2 = .ok d') :
    (state d).addLine (.ofChars (entryLine (rules.name e.1) e.2)) = .ok (state d') := by
  rw [ConfigLine.ofChars_entryLine (rules.keyWord e.1) hclean, PartialConfig.addLine,
    if_neg hvalue, hstate, hset]
  rfl

/-- A written entry without a value is refused. -/
theorem addLine_emptyLine {d : PartialConfig} {e : κ × List Char} (hvalue : e.2 = []) :
    d.addLine (.ofChars (entryLine (rules.name e.1) e.2)) =
      .error (.fault (.emptyValue (.ofList (rules.name e.1).toList))) := by
  rw [hvalue, ConfigLine.ofChars_entryLine (rules.keyWord e.1) Text.clean_nil,
    PartialConfig.addLine, if_pos rfl]

/-- Written entries, each with a value, are all taken up. -/
theorem addLines_lines {state : σ → PartialConfig} (hstate : rules.Govern state) {d d' : σ}
    {entries : List (κ × List Char)} (hclean : ∀ e ∈ entries, Clean e.2)
    (hvalue : ∀ e ∈ entries, e.2 ≠ []) (hset : rules.setAll d entries = .ok d') (line : Nat)
    (rest : List (List Char)) :
    (state d).addLines line (rules.lines entries ++ rest) =
      (state d').addLines (line + entries.length) rest := by
  induction entries generalizing d line with
  | nil =>
    cases hset
    rfl
  | cons e entries ih =>
    obtain ⟨hce, hclean⟩ := List.forall_mem_cons.mp hclean
    obtain ⟨hve, hvalue⟩ := List.forall_mem_cons.mp hvalue
    obtain ⟨d₁, hfirst, hrest⟩ := setAll_cons_eq_ok hset
    have hlength : line + 1 + entries.length = line + (e :: entries).length := by
      rw [List.length_cons]
      omega
    rw [lines, List.map_cons, List.cons_append, PartialConfig.addLines,
      addLine_entryLine hstate hce hve hfirst, ← hlength]
    exact ih hclean hvalue hrest (line + 1)

/-- Among written entries that the rules take up, the first one without a value ends the reading. -/
theorem addLines_lines_of_empty {state : σ → PartialConfig} (hstate : rules.Govern state)
    {d d' : σ} {entries : List (κ × List Char)} (hclean : ∀ e ∈ entries, Clean e.2)
    (hempty : ∃ e ∈ entries, e.2 = []) (hset : rules.setAll d entries = .ok d') (line : Nat)
    (rest : List (List Char)) :
    ∃ n key, (state d).addLines line (rules.lines entries ++ rest) =
      .error (.parse n (.emptyValue key)) := by
  induction entries generalizing d line with
  | nil =>
    obtain ⟨e, he, _⟩ := hempty
    cases he
  | cons e entries ih =>
    obtain ⟨hce, hclean⟩ := List.forall_mem_cons.mp hclean
    obtain ⟨d₁, hfirst, hrest⟩ := setAll_cons_eq_ok hset
    rw [lines, List.map_cons, List.cons_append, PartialConfig.addLines]
    by_cases hve : e.2 = []
    · rw [addLine_emptyLine hve]
      exact ⟨line, _, rfl⟩
    · rw [addLine_entryLine hstate hce hve hfirst]
      have hempty : ∃ e ∈ entries, e.2 = [] := by
        obtain ⟨e', he', hnil⟩ := hempty
        cases he' with
        | head => exact absurd hnil hve
        | tail _ he' => exact ⟨e', he', hnil⟩
      exact ih hclean hempty hrest (line + 1)

end SectionRules

theorem interfaceRules_govern (peers : List PartialPeer) :
    interfaceRules.Govern fun i => ⟨some i, peers, .interface⟩ := by
  intro d k value
  simp only [interfaceRules, PartialConfig.addEntry, InterfaceKey.ofChars?_name]
  cases d.set k k.name.toList value <;> rfl

theorem peerRules_govern (i : Option PartialInterface) (rest : List PartialPeer) :
    peerRules.Govern fun p => ⟨i, p :: rest, .peer⟩ := by
  intro d k value
  simp only [peerRules, PartialConfig.addEntry, PeerKey.ofChars?_name]
  cases d.set k k.name.toList value <;> rfl

end VpnTunnel
