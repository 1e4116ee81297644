import Mathlib.Logic.Relation
import VpnTunnel.Proofs.Config.Meaning
import VpnTunnel.Proofs.Text.Folding

/-!
# Rearranged texts

Lines of one section may change places as long as those of one key keep their order, the section of
the interface may stand anywhere among those of the peers, and a list may be spread over several
lines. None of this changes what a text means.
-/

namespace VpnTunnel

/-- A word means a key just when it is the name of it, in whatever case. -/
theorem InterfaceKey.ofChars?_eq_some_iff {word : List Char} {k : InterfaceKey} :
    ofChars? word = some k ↔ Text.sameWord word k.name.toList = true := by
  constructor
  · exact List.find?_some
  · intro h
    rw [← ofChars?_name k, ofChars?, ofChars?]
    simp only [Text.sameWord_congr h]

theorem PeerKey.ofChars?_eq_some_iff {word : List Char} {k : PeerKey} :
    ofChars? word = some k ↔ Text.sameWord word k.name.toList = true := by
  constructor
  · exact List.find?_some
  · intro h
    rw [← ofChars?_name k, ofChars?, ofChars?]
    simp only [Text.sameWord_congr h]

namespace ConfigLine

def isFor (word : List Char) : ConfigLine → Bool
  | entry key _ => Text.sameWord key word
  | _ => false

def value? : ConfigLine → Option (List Char)
  | entry _ value => some value
  | _ => none

def Headed (ls : List ConfigLine) : Prop := ∀ l ∈ ls.head?, l.isHeader = true

def ListWord (word : List Char) : Prop :=
  ∃ name ∈ [InterfaceKey.address.name, InterfaceKey.dns.name, PeerKey.allowedIps.name],
    Text.sameWord word name.toList = true

/-- One change of the order or the number of lines. -/
inductive Rearranged : List ConfigLine → List ConfigLine → Prop
  /-- Lines of one section change places, those for one word keeping their order. -/
  | permute (front back : List ConfigLine) {body body' : List ConfigLine}
    (hbody : ∀ l ∈ body, l.isHeader = false) (hperm : body.Perm body')
    (hwords : ∀ word, body.filter (·.isFor word) = body'.filter (·.isFor word)) :
    Rearranged (front ++ (body ++ back)) (front ++ (body' ++ back))
  /-- The section of the interface moves behind sections that follow it. -/
  | move (front : List ConfigLine) {text : List Char} {own others back : List ConfigLine}
    (htext : Text.sameWord text interfaceHeader = true) (hown : ∀ l ∈ own, l.isHeader = false)
    (hothers : Headed others) (hback : Headed back) :
    Rearranged (front ++ (header text :: own ++ (others ++ back)))
      (front ++ (others ++ (header text :: own ++ back)))
  /-- A list is cut at a comma, and its two parts, neither of them blank, stand on two lines. -/
  | split (front back : List ConfigLine) {key key₁ key₂ s t : List Char} (hlist : ListWord key)
    (hkey₁ : Text.sameWord key₁ key = true) (hkey₂ : Text.sameWord key₂ key = true)
    (hs : Text.trim s ≠ []) (ht : Text.trim t ≠ []) :
    Rearranged (front ++ ([entry key (s ++ ',' :: t)] ++ back))
      (front ++ ([entry key₁ (Text.trim s), entry key₂ (Text.trim t)] ++ back))

end ConfigLine

/-- Of the keys that take lists the items are the same, of all others the values. -/
structure ValuesAlike {κ : Type} (isList : κ → Prop) (v w : κ → List (List Char)) : Prop where
  same : ∀ k, ¬isList k → v k = w k
  items : ∀ k, (v k).flatMap Text.commaItems = (w k).flatMap Text.commaItems

/-- A kind of section, as far as words and values go: the words for its keys, the values that they
take, and which keys take lists. A list is taken item by item. -/
structure WordRules (κ : Type) [DecidableEq κ] where
  key? : List Char → Option κ
  name : κ → String
  Reads : κ → List Char → Prop
  IsList : κ → Prop
  key?_eq_some_iff : ∀ {word k}, key? word = some k ↔ Text.sameWord word (name k).toList = true
  reads_append : ∀ {k s t}, IsList k →
    (Reads k (s ++ ',' :: t) ↔ Reads k (Text.trim s) ∧ Reads k (Text.trim t))
  isList_of_listWord : ∀ {word k}, ConfigLine.ListWord word → key? word = some k → IsList k

namespace WordRules

open ConfigLine (values isFor value? ListWord)

variable {κ : Type} [DecidableEq κ] {rules : WordRules κ} {b b' x y : List ConfigLine}

theorem key?_congr {word word' : List Char} (h : Text.sameWord word word' = true) :
    rules.key? word = rules.key? word' := by
  apply Option.ext
  intro k
  rw [rules.key?_eq_some_iff, rules.key?_eq_some_iff, Text.sameWord_congr h]

/-- The values of a key are those of the entries for its word. -/
theorem values_eq_filter (b : List ConfigLine) (k : κ) :
    values rules.key? b k = (b.filter (·.isFor (rules.name k).toList)).filterMap value? := by
  rw [values, List.filterMap_filter]
  refine List.filterMap_congr fun l _ => ?_
  cases l with
  | entry key value => exact if_congr rules.key?_eq_some_iff rfl rfl
  | _ => rfl

/-- Lines that may take the place of others in a section: they fit if those do, and their values are
alike. -/
structure Alike (rules : WordRules κ) (b b' : List ConfigLine) : Prop where
  fits : (∀ l ∈ b, l.Fits rules.key? rules.Reads) ↔ ∀ l ∈ b', l.Fits rules.key? rules.Reads
  values : ValuesAlike rules.IsList (values rules.key? b) (values rules.key? b')

theorem alike_refl (b : List ConfigLine) : rules.Alike b b :=
  ⟨Iff.rfl, fun _ _ => rfl, fun _ => rfl⟩

theorem Alike.append_left (h : rules.Alike b b') (x : List ConfigLine) :
    rules.Alike (x ++ b) (x ++ b') := by
  refine ⟨?_, fun k hk => ?_, fun k => ?_⟩
  · rw [List.forall_mem_append, List.forall_mem_append, h.fits]
  · rw [ConfigLine.values_append, ConfigLine.values_append, h.values.same k hk]
  · rw [ConfigLine.values_append, ConfigLine.values_append, List.flatMap_append,
      List.flatMap_append, h.values.items k]

theorem Alike.append_right (h : rules.Alike b b') (x : List ConfigLine) :
    rules.Alike (b ++ x) (b' ++ x) := by
  refine ⟨?_, fun k hk => ?_, fun k => ?_⟩
  · rw [List.forall_mem_append, List.forall_mem_append, h.fits]
  · rw [ConfigLine.values_append, ConfigLine.values_append, h.values.same k hk]
  · rw [ConfigLine.values_append, ConfigLine.values_append, List.flatMap_append,
      List.flatMap_append, h.values.items k]

/-- Lines that change places are alike if those for one word keep their order. -/
theorem alike_of_perm (hperm : b.Perm b')
    (hwords : ∀ word, b.filter (·.isFor word) = b'.filter (·.isFor word)) : rules.Alike b b' := by
  have hvalues : values rules.key? b = values rules.key? b' := by
    funext k
    rw [values_eq_filter, values_eq_filter, hwords]
  refine ⟨by simp only [hperm.mem_iff], ?_⟩
  rw [hvalues]
  exact ⟨fun _ _ => rfl, fun _ => rfl⟩

/-- A list on one line is like its two parts on two lines. -/
theorem alike_of_split {key key₁ key₂ s t : List Char} (hlist : ListWord key)
    (hkey₁ : Text.sameWord key₁ key = true) (hkey₂ : Text.sameWord key₂ key = true)
    (hs : Text.trim s ≠ []) (ht : Text.trim t ≠ []) :
    rules.Alike [.entry key (s ++ ',' :: t)]
      [.entry key₁ (Text.trim s), .entry key₂ (Text.trim t)] := by
  have h₁ : rules.key? key₁ = rules.key? key := key?_congr hkey₁
  have h₂ : rules.key? key₂ = rules.key? key := key?_congr hkey₂
  have reads_append {k : κ} (hk : rules.key? key = some k) :=
    rules.reads_append (s := s) (t := t) (rules.isList_of_listWord hlist hk)
  have hvalues (k : κ) : values rules.key?
      [.entry key₁ (Text.trim s), .entry key₂ (Text.trim t)] k =
        if rules.key? key = some k then [Text.trim s, Text.trim t] else [] := by
    by_cases hk : rules.key? key = some k <;> simp [values, h₁, h₂, hk]
  refine ⟨?_, fun k hk => ?_, fun k => ?_⟩
  · simp only [List.forall_mem_cons, ConfigLine.Fits, h₁, h₂]
    constructor
    · rintro ⟨⟨_, k, hk, hreads⟩, _⟩
      obtain ⟨hreads₁, hreads₂⟩ := (reads_append hk).mp hreads
      exact ⟨⟨hs, k, hk, hreads₁⟩, ⟨ht, k, hk, hreads₂⟩, by simp⟩
    · rintro ⟨⟨_, k, hk, hreads₁⟩, ⟨_, k', hk', hreads₂⟩, _⟩
      cases hk.symm.trans hk'
      exact ⟨⟨by simp, k, hk, (reads_append hk).mpr ⟨hreads₁, hreads₂⟩⟩, by simp⟩
  · have hne : rules.key? key ≠ some k := fun he => hk (rules.isList_of_listWord hlist he)
    rw [hvalues, ConfigLine.values_entry, if_neg hne, if_neg hne]
  · rw [hvalues, ConfigLine.values_entry]
    split
    · simp [Text.commaItems_append, Text.commaItems_trim]
    · rfl

end WordRules

theorem forall_commaItems_append {p : List Char → Prop} {s t : List Char} :
    (∀ item ∈ Text.commaItems (s ++ ',' :: t), p item) ↔
      (∀ item ∈ Text.commaItems (Text.trim s), p item) ∧
        ∀ item ∈ Text.commaItems (Text.trim t), p item := by
  rw [Text.commaItems_append, Text.commaItems_trim, Text.commaItems_trim, List.forall_mem_append]

def InterfaceKey.wordRules : WordRules InterfaceKey where
  key? := ofChars?
  name := name
  Reads := Reads
  IsList := fun k => k = address ∨ k = dns
  key?_eq_some_iff := ofChars?_eq_some_iff
  reads_append := by
    rintro k s t (rfl | rfl)
    · exact forall_commaItems_append
    · exact forall_commaItems_append
  isList_of_listWord := by
    rintro word k ⟨name, hname, hword⟩ hk
    rw [ofChars?_eq_some_iff, Text.sameWord_congr hword] at hk
    revert hk
    simp only [List.mem_cons, List.not_mem_nil, or_false] at hname
    rcases hname with rfl | rfl | rfl <;> cases k <;> decide

def PeerKey.wordRules : WordRules PeerKey where
  key? := ofChars?
  name := name
  Reads := Reads
  IsList := fun k => k = allowedIps
  key?_eq_some_iff := ofChars?_eq_some_iff
  reads_append := by
    rintro k s t rfl
    exact forall_commaItems_append
  isList_of_listWord := by
    rintro word k ⟨name, hname, hword⟩ hk
    rw [ofChars?_eq_some_iff, Text.sameWord_congr hword] at hk
    revert hk
    simp only [List.mem_cons, List.not_mem_nil, or_false] at hname
    rcases hname with rfl | rfl | rfl <;> cases k <;> decide

namespace ConfigLine

variable {ls ls' b b' front back own others : List ConfigLine}

/-- Lines that may take the place of others, whatever they are above or below. -/
structure Alike (b b' : List ConfigLine) : Prop where
  blank : (∀ l ∈ b, l = .blank) ↔ ∀ l ∈ b', l = .blank
  interface : InterfaceKey.wordRules.Alike b b'
  peer : PeerKey.wordRules.Alike b b'

theorem alike_refl (b : List ConfigLine) : Alike b b :=
  ⟨Iff.rfl, WordRules.alike_refl b, WordRules.alike_refl b⟩

theorem Alike.append_left (h : Alike b b') (x : List ConfigLine) : Alike (x ++ b) (x ++ b') := by
  refine ⟨?_, h.interface.append_left x, h.peer.append_left x⟩
  rw [List.forall_mem_append, List.forall_mem_append, h.blank]

theorem Alike.append_right (h : Alike b b') (x : List ConfigLine) : Alike (b ++ x) (b' ++ x) := by
  refine ⟨?_, h.interface.append_right x, h.peer.append_right x⟩
  rw [List.forall_mem_append, List.forall_mem_append, h.blank]

structure SectionAlike (s s' : ConfigSection) : Prop where
  header : s.header = s'.header
  body : Alike s.body s'.body

theorem aboveHeaders_append (h : ∀ l ∈ b, l.isHeader = false) (ls : List ConfigLine) :
    aboveHeaders (b ++ ls) = b ++ aboveHeaders ls := by
  rw [aboveHeaders, List.takeWhile_append_of_pos (by simpa using h)]
  rfl

theorem sections_append (h : ∀ l ∈ b, l.isHeader = false) (ls : List ConfigLine) :
    sections (b ++ ls) = sections ls := by
  induction b with
  | nil => rfl
  | cons l b ih =>
    obtain ⟨hl, hb⟩ := List.forall_mem_cons.mp h
    rw [List.cons_append, sections_cons hl, ih hb]

/-- Lines without headers that are replaced by like ones change a text only so far. -/
theorem alike_replace (hb : ∀ l ∈ b, l.isHeader = false) (hb' : ∀ l ∈ b', l.isHeader = false)
    (h : Alike b b') (front back : List ConfigLine) :
    Alike (aboveHeaders (front ++ (b ++ back))) (aboveHeaders (front ++ (b' ++ back))) ∧
      List.Forall₂ SectionAlike (sections (front ++ (b ++ back)))
        (sections (front ++ (b' ++ back))) := by
  induction front with
  | nil =>
    simp only [List.nil_append, aboveHeaders_append hb, aboveHeaders_append hb',
      sections_append hb, sections_append hb']
    exact ⟨h.append_right _, List.forall₂_same.mpr fun s _ => ⟨rfl, alike_refl s.body⟩⟩
  | cons l front ih =>
    obtain ⟨habove, hsections⟩ := ih
    simp only [List.cons_append]
    cases hl : l.isHeader with
    | false =>
      rw [aboveHeaders_cons hl, aboveHeaders_cons hl, sections_cons hl, sections_cons hl]
      exact ⟨habove.append_left [l], hsections⟩
    | true =>
      cases l with
      | header text => exact ⟨alike_refl _, .cons ⟨rfl, habove⟩ hsections⟩
      | _ => cases hl

end ConfigLine

namespace ConfigSection

variable {s s' : ConfigSection}

theorem isInterface_congr (h : s.header = s'.header) : s.isInterface = s'.isInterface := by
  rw [isInterface, isInterface, h]

theorem isPeer_congr (h : s.header = s'.header) : s.isPeer = s'.isPeer := by
  rw [isPeer, isPeer, h]

theorem fits_congr (h : ConfigLine.SectionAlike s s') : s.Fits ↔ s'.Fits := by
  rw [Fits, Fits, isInterface_congr h.header, isPeer_congr h.header]
  exact or_congr (and_congr_right' h.body.interface.fits) (and_congr_right' h.body.peer.fits)

end ConfigSection

/-- The interface depends on the items of lists and on the last of all other values. -/
theorem InterfaceValues.interface?_congr {v w : InterfaceValues}
    (h : ValuesAlike InterfaceKey.wordRules.IsList v w) : v.interface? = w.interface? := by
  have hitems {α : Type} (read? : List Char → Option α) (k : InterfaceKey) :
      itemsOf? read? (v k) = itemsOf? read? (w k) := by rw [itemsOf?, itemsOf?, h.items k]
  have hsame (k : InterfaceKey) (haddress : k ≠ .address) (hdns : k ≠ .dns) : v k = w k :=
    h.same k fun hk => hk.elim haddress hdns
  have hobfuscating : ∀ k ∈ InterfaceKey.obfuscating, v k = w k := by
    simp [InterfaceKey.obfuscating, hsame]
  have hobfuscation : v.obfuscation? = w.obfuscation? := by
    rw [obfuscation?, obfuscation?, parameters?_congr hobfuscating]
    simp only [obfuscates_congr hobfuscating]
  simp only [interface?, apps?, hobfuscation, hitems, hsame, ne_eq, reduceCtorEq,
    not_false_eq_true]

/-- The peer depends on the items of lists and on the last of all other values. -/
theorem PeerValues.peer?_congr {v w : PeerValues}
    (h : ValuesAlike PeerKey.wordRules.IsList v w) : v.peer? = w.peer? := by
  have hitems {α : Type} (read? : List Char → Option α) (k : PeerKey) :
      itemsOf? read? (v k) = itemsOf? read? (w k) := by rw [itemsOf?, itemsOf?, h.items k]
  have hsame (k : PeerKey) (hlist : k ≠ .allowedIps) : v k = w k := h.same k hlist
  simp only [peer?, hitems, hsame, ne_eq, reduceCtorEq, not_false_eq_true]

namespace Outline

variable {ss ss' : List ConfigSection}

/-- Sections that are alike give the interface values that are alike. -/
theorem interface_alike (h : List.Forall₂ ConfigLine.SectionAlike ss ss') :
    Option.Rel (ValuesAlike InterfaceKey.wordRules.IsList) (ofSections ss).interface
      (ofSections ss').interface := by
  induction h with
  | nil => exact .none
  | @cons s s' ss ss' hs _ ih =>
    have hheader := ConfigSection.isInterface_congr hs.header
    cases hi : s'.isInterface with
    | true =>
      simp only [ofSections, List.find?_cons, hheader, hi, Option.map_some]
      exact .some hs.body.interface.values
    | false => simpa only [ofSections, List.find?_cons, hheader, hi] using ih

/-- Sections that are alike give the peers values that are alike. -/
theorem peers_alike (h : List.Forall₂ ConfigLine.SectionAlike ss ss') :
    List.Forall₂ (ValuesAlike PeerKey.wordRules.IsList) (ofSections ss).peers
      (ofSections ss').peers := by
  have hfilter : List.Forall₂ ConfigLine.SectionAlike (ss.filter (·.isPeer))
      (ss'.filter (·.isPeer)) :=
    List.rel_filter (fun _ _ hs => by simp only [ConfigSection.isPeer_congr hs.header]) h
  simp only [ofSections, List.forall₂_map_left_iff, List.forall₂_map_right_iff]
  exact hfilter.imp fun s s' hs => hs.body.peer.values

theorem mapM_peer?_congr {vs ws : List PeerValues}
    (h : List.Forall₂ (ValuesAlike PeerKey.wordRules.IsList) vs ws) :
    vs.mapM PeerValues.peer? = ws.mapM PeerValues.peer? := by
  induction h with
  | nil => rfl
  | cons hv _ ih => rw [List.mapM_cons, List.mapM_cons, PeerValues.peer?_congr hv, ih]

/-- Sections that are alike stand for the same configuration. -/
theorem config?_congr (h : List.Forall₂ ConfigLine.SectionAlike ss ss') :
    (ofSections ss).config? = (ofSections ss').config? := by
  have hpeers := mapM_peer?_congr (peers_alike h)
  have hinterface := interface_alike h
  rw [config?, config?, hpeers]
  generalize (ofSections ss).interface = v at hinterface
  generalize (ofSections ss').interface = w at hinterface
  cases hinterface with
  | none => rfl
  | some hv =>
    simp only [Option.bind_eq_bind, Option.bind_some, InterfaceValues.interface?_congr hv]

/-- The only section of the interface may stand behind others as well as before them. -/
theorem ofSections_move {s : ConfigSection} {before others after : List ConfigSection}
    (hs : s.isInterface = true)
    (hone : (before ++ ([s] ++ (others ++ after))).countP (·.isInterface) ≤ 1) :
    ofSections (before ++ ([s] ++ (others ++ after))) =
      ofSections (before ++ (others ++ ([s] ++ after))) := by
  simp only [List.countP_append, List.countP_singleton, hs, if_true] at hone
  have hnone (ss : List ConfigSection) (h : ss.countP (·.isInterface) = 0) :
      ss.find? (·.isInterface) = none := List.find?_eq_none.mpr (List.countP_eq_zero.mp h)
  have hbefore := hnone before (by omega)
  have hothers := hnone others (by omega)
  have hpeer : s.isPeer = false := ConfigSection.isPeer_eq_false hs
  simp [ofSections, hbefore, hothers, hs, hpeer]

end Outline

namespace ConfigLine

variable {ls ls' front back own others : List ConfigLine}

theorem Headed.append (hothers : Headed others) (hback : Headed back) :
    Headed (others ++ back) := by
  cases others with
  | nil => exact hback
  | cons l others => exact hothers

theorem aboveHeaders_append_headed (h : Headed back) (front : List ConfigLine) :
    aboveHeaders (front ++ back) = aboveHeaders front := by
  induction front with
  | nil =>
    cases back with
    | nil => rfl
    | cons l back =>
      have hl : l.isHeader = true := h l rfl
      rw [List.nil_append, aboveHeaders, List.takeWhile_cons_of_neg (by simp [hl])]
      rfl
  | cons l front ih =>
    cases hl : l.isHeader with
    | false => rw [List.cons_append, aboveHeaders_cons hl, aboveHeaders_cons hl, ih]
    | true => simp only [List.cons_append, aboveHeaders, List.takeWhile_cons, hl, Bool.not_true,
        Bool.false_eq_true, if_false]

/-- Whole sections stay whole. -/
theorem sections_append_headed (h : Headed back) (front : List ConfigLine) :
    sections (front ++ back) = sections front ++ sections back := by
  induction front with
  | nil => rfl
  | cons l front ih =>
    cases l with
    | header text =>
      rw [List.cons_append, sections, sections, aboveHeaders_append_headed h, ih]
      rfl
    | _ => exact ih

/-- A header and lines without headers make one section. -/
theorem sections_single (hown : ∀ l ∈ own, l.isHeader = false) (text : List Char) :
    sections (header text :: own) = [⟨text, own⟩] := by
  have habove := aboveHeaders_append hown []
  have hsections := sections_append hown []
  rw [List.append_nil] at habove hsections
  rw [sections, habove, hsections]
  simp [aboveHeaders, sections]

/-- Sections that are alike fit alike. -/
theorem forall_fits_congr {ss ss' : List ConfigSection} (h : List.Forall₂ SectionAlike ss ss') :
    (∀ s ∈ ss, s.Fits) ↔ ∀ s ∈ ss', s.Fits := by
  induction h with
  | nil => rfl
  | cons hs _ ih => rw [List.forall_mem_cons, List.forall_mem_cons, ConfigSection.fits_congr hs, ih]

theorem countP_isInterface_congr {ss ss' : List ConfigSection}
    (h : List.Forall₂ SectionAlike ss ss') :
    ss.countP (·.isInterface) = ss'.countP (·.isInterface) := by
  rw [List.countP_eq_length_filter, List.countP_eq_length_filter]
  exact (List.rel_filter (fun _ _ hs => by
    simp only [ConfigSection.isInterface_congr hs.header]) h).length_eq

/-- Lines that are alike above the headers and section by section fit alike. -/
theorem allFit_congr (habove : Alike (aboveHeaders ls) (aboveHeaders ls'))
    (hsections : List.Forall₂ SectionAlike (sections ls) (sections ls')) :
    AllFit ls ↔ AllFit ls' := by
  rw [allFit_iff, allFit_iff, habove.blank, forall_fits_congr hsections,
    countP_isInterface_congr hsections]

/-- Sections fit in any order. -/
theorem allFit_of_perm (habove : aboveHeaders ls = aboveHeaders ls')
    (hperm : (sections ls).Perm (sections ls')) : AllFit ls ↔ AllFit ls' := by
  rw [allFit_iff, allFit_iff, habove, hperm.countP_eq]
  simp only [hperm.mem_iff]

/-- One change of the order keeps what the lines stand for. -/
theorem Rearranged.allFit_and_config? (h : Rearranged ls ls') : (AllFit ls ↔ AllFit ls') ∧
    (AllFit ls → (Outline.ofLines ls).config? = (Outline.ofLines ls').config?) := by
  cases h with
  | permute front back hbody hperm hwords =>
    have hbody' := fun l hl => hbody l (hperm.mem_iff.mpr hl)
    have halike : Alike _ _ := ⟨by simp only [hperm.mem_iff],
      WordRules.alike_of_perm hperm hwords, WordRules.alike_of_perm hperm hwords⟩
    obtain ⟨habove, hsections⟩ := alike_replace hbody hbody' halike front back
    exact ⟨allFit_congr habove hsections, fun _ => Outline.config?_congr hsections⟩
  | split front back hlist hkey₁ hkey₂ hs ht =>
    have halike : Alike _ _ := ⟨by simp, WordRules.alike_of_split hlist hkey₁ hkey₂ hs ht,
      WordRules.alike_of_split hlist hkey₁ hkey₂ hs ht⟩
    obtain ⟨habove, hsections⟩ :=
      alike_replace (by simp [isHeader]) (by simp [isHeader]) halike front back
    exact ⟨allFit_congr habove hsections, fun _ => Outline.config?_congr hsections⟩
  | @move front text own others back htext hown hothers hback =>
    have hmine (ls : List ConfigLine) : Headed (header text :: own ++ ls) := by
      rintro l ⟨⟩
      rfl
    have habove : aboveHeaders (front ++ (header text :: own ++ (others ++ back))) =
        aboveHeaders (front ++ (others ++ (header text :: own ++ back))) := by
      rw [aboveHeaders_append_headed (hmine _),
        aboveHeaders_append_headed (hothers.append (hmine back))]
    have hsections : sections (front ++ (header text :: own ++ (others ++ back))) =
        sections front ++ ([⟨text, own⟩] ++ (sections others ++ sections back)) := by
      rw [sections_append_headed (hmine _), sections_append_headed (hothers.append hback),
        sections_append_headed hback, sections_single hown]
    have hsections' : sections (front ++ (others ++ (header text :: own ++ back))) =
        sections front ++ (sections others ++ ([⟨text, own⟩] ++ sections back)) := by
      rw [sections_append_headed (hothers.append (hmine back)), sections_append_headed (hmine back),
        sections_append_headed hback, sections_single hown]
    refine ⟨allFit_of_perm habove ?_, fun hfit => ?_⟩
    · rw [hsections, hsections']
      exact (List.perm_append_left_iff _).mpr (List.perm_append_comm_assoc _ _ _)
    · have hone := hfit.single
      rw [hsections] at hone
      have hs : (⟨text, own⟩ : ConfigSection).isInterface = true := htext
      rw [Outline.ofLines, Outline.ofLines, hsections, hsections', Outline.ofSections_move hs hone]

/-- Neighbouring entries for different words change places. -/
theorem Rearranged.swap (front back : List ConfigLine) {key key' value value' : List Char}
    (hkey : Text.sameWord key key' = false) :
    Rearranged (front ++ ([entry key value, entry key' value'] ++ back))
      (front ++ ([entry key' value', entry key value] ++ back)) := by
  refine .permute front back ?_ (.swap ..) fun word => ?_
  · intro l hl
    rcases List.mem_pair.mp hl with rfl | rfl <;> rfl
  · have hone : (entry key value).isFor word = true → (entry key' value').isFor word = false := by
      intro h
      by_contra h'
      rw [Bool.not_eq_false] at h'
      rw [isFor, Text.sameWord_iff] at h h'
      rw [Text.sameWord_iff.mpr (h.trans h'.symm)] at hkey
      cases hkey
    by_cases h : (entry key value).isFor word = true
    · simp [h, hone h]
    · simp [List.filter_cons, h]

end ConfigLine

namespace Config

open ConfigLine (Rearranged)

/-- What is read is a function of the values that each section gives to each key. So any number of
changes of the order leaves it as it is. -/
theorem parse_eq_ok_of_outline (text : String) (c : Config) :
    (parse text = .ok c ↔
      AllFit (classified text) ∧ (Outline.ofLines (classified text)).config? = some c) ∧
    ∀ text' : String, Relation.EqvGen Rearranged (classified text) (classified text') →
      (parse text = .ok c ↔ parse text' = .ok c) := by
  have hstep {ls ls' : List ConfigLine} (h : Relation.EqvGen Rearranged ls ls') :
      (AllFit ls ∧ (Outline.ofLines ls).config? = some c) ↔
        AllFit ls' ∧ (Outline.ofLines ls').config? = some c := by
    induction h with
    | rel ls ls' h =>
      obtain ⟨hfit, hconfig⟩ := h.allFit_and_config?
      rw [← hfit]
      exact and_congr_right fun hls => by rw [hconfig hls]
    | refl ls => rfl
    | symm _ _ _ ih => exact ih.symm
    | trans _ _ _ _ _ ih₁ ih₂ => exact ih₁.trans ih₂
  refine ⟨parse_eq_ok_iff_outline, fun text' h => ?_⟩
  rw [parse_eq_ok_iff_outline, parse_eq_ok_iff_outline]
  exact hstep h

/-- Two resolvers on one line before the key, or on two lines with the key between them. -/
theorem parse_resolvers_apart : ∃ c,
    parse ("[Interface]\nDNS=1.1.1.1,1.0.0.1\n" ++
      "PrivateKey=AAAAAAAAAAAAAAAAAAAAAAAAAAAAAAAAAAAAAAAAAAA=") = .ok c ∧
    parse ("[Interface]\ndns=1.1.1.1\n" ++
      "PrivateKey=AAAAAAAAAAAAAAAAAAAAAAAAAAAAAAAAAAAAAAAAAAA=\nDNS=1.0.0.1") = .ok c := by
  have hread : ∃ c, parse ("[Interface]\nDNS=1.1.1.1,1.0.0.1\n" ++
      "PrivateKey=AAAAAAAAAAAAAAAAAAAAAAAAAAAAAAAAAAAAAAAAAAA=") = .ok c := ⟨_, rfl⟩
  obtain ⟨c, hc⟩ := hread
  have hsplit := @Rearranged.split [.header "[Interface]".toList]
    [.entry "PrivateKey".toList "AAAAAAAAAAAAAAAAAAAAAAAAAAAAAAAAAAAAAAAAAAA=".toList]
    "DNS".toList "dns".toList "DNS".toList "1.1.1.1".toList "1.0.0.1".toList
    ⟨InterfaceKey.dns.name, by decide, by decide⟩ (by decide) (by decide) (by decide) (by decide)
  have hswap := @Rearranged.swap
    [.header "[Interface]".toList, .entry "dns".toList "1.1.1.1".toList] []
    "DNS".toList "PrivateKey".toList "1.0.0.1".toList
    "AAAAAAAAAAAAAAAAAAAAAAAAAAAAAAAAAAAAAAAAAAA=".toList (by decide)
  refine ⟨c, hc, ((parse_eq_ok_of_outline _ c).2 _ ?_).mp hc⟩
  exact .trans _ _ _ (.rel _ _ hsplit) (.rel _ _ hswap)

end Config

end VpnTunnel
