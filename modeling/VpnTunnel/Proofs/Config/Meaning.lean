import Mathlib.Data.List.Forall2
import VpnTunnel.Proofs.Config.Gathering

/-!
# What a text means

A text is taken up if and only if every line fits where it stands, and what has then been gathered
is its outline. So a configuration is read exactly if every line fits and the outline stands for it;
and if every line fits, what the outline lacks is the error.
-/

namespace VpnTunnel

namespace ConfigLine

variable {κ : Type} [DecidableEq κ] {key? : List Char → Option κ}

/-- The values of more lines come behind the others. -/
theorem values_append (body more : List ConfigLine) (k : κ) :
    values key? (body ++ more) k = values key? body k ++ values key? more k :=
  List.filterMap_append

theorem values_entry (key value : List Char) (k : κ) :
    values key? [entry key value] k = if key? key = some k then [value] else [] := by
  by_cases h : key? key = some k <;> simp [values, h]

theorem not_isHeader_of_mem_aboveHeaders {ls : List ConfigLine} :
    ∀ l ∈ aboveHeaders ls, l.isHeader = false := by
  intro l hl
  simpa using List.all_eq_true.mp List.all_takeWhile l hl

theorem aboveHeaders_cons {l : ConfigLine} (h : l.isHeader = false) (ls : List ConfigLine) :
    aboveHeaders (l :: ls) = l :: aboveHeaders ls := by
  rw [aboveHeaders, List.takeWhile_cons_of_pos (by simp [h])]
  rfl

theorem sections_cons {l : ConfigLine} (h : l.isHeader = false) (ls : List ConfigLine) :
    sections (l :: ls) = sections ls := by
  cases l with
  | header text => cases h
  | _ => rfl

/-- A text consists of the lines above its headers and of its sections. -/
theorem above_append_sections (ls : List ConfigLine) :
    aboveHeaders ls ++ (sections ls).flatMap ConfigSection.lines = ls := by
  induction ls with
  | nil => rfl
  | cons l ls ih =>
    cases hl : l.isHeader with
    | false => rw [aboveHeaders_cons hl, sections_cons hl, List.cons_append, ih]
    | true =>
      cases l with
      | header text =>
        rw [sections, List.flatMap_cons, ConfigSection.lines, List.cons_append, ih]
        rfl
      | _ => cases hl

theorem not_isHeader_of_mem_sections {ls : List ConfigLine} :
    ∀ s ∈ sections ls, ∀ l ∈ s.body, l.isHeader = false := by
  induction ls with
  | nil => simp [sections]
  | cons l ls ih =>
    cases l with
    | header text =>
      rw [sections, List.forall_mem_cons]
      exact ⟨not_isHeader_of_mem_aboveHeaders, ih⟩
    | _ => exact ih

end ConfigLine

namespace Gathering

variable {κ σ : Type} [DecidableEq κ] {g : Gathering κ σ} {state : σ → PartialConfig}
  {body : List ConfigLine}

/-- What the lines of such a section do to a configuration, `state` being its current part. -/
structure Governs (g : Gathering κ σ) (state : σ → PartialConfig) : Prop where
  known : ∀ {d k key value}, g.key? key = some k →
    (state d).addEntry key value = (g.set d k key value).map state
  unknown : ∀ {d key value}, g.key? key = none → ∃ e, (state d).addEntry key value = .error e

/-- One line below a header that is taken up fits, and its value is added to what was gathered. -/
theorem of_addLine (hstate : g.Governs state) {l : ConfigLine} (hl : l.isHeader = false) {d : σ}
    {v : κ → List (List Char)} (hd : g.Gathers d v) {p : PartialConfig}
    (h : (state d).addLine l = .ok p) : l.Fits g.key? g.Reads ∧
      ∃ d', p = state d' ∧ g.Gathers d' fun k => v k ++ ConfigLine.values g.key? [l] k := by
  cases l with
  | header text => cases hl
  | stray => cases h
  | blank =>
    cases h
    exact ⟨trivial, d, rfl, by simpa [ConfigLine.values] using hd⟩
  | entry key value =>
    rw [PartialConfig.addLine] at h
    split at h
    · cases h
    · rename_i hvalue
      cases hk : g.key? key with
      | none =>
        obtain ⟨e, he⟩ : ∃ e, (state d).addEntry key value = .error e := hstate.unknown hk
        rw [he] at h
        cases h
      | some k =>
        rw [hstate.known hk] at h
        cases hset : g.set d k key value with
        | error e =>
          rw [hset] at h
          cases h
        | ok d' =>
          rw [hset] at h
          cases h
          refine ⟨⟨hvalue, k, hk, g.reads_of_set hset⟩, d', rfl, ?_⟩
          have hvalues : (fun k' => v k' ++ ConfigLine.values g.key? [.entry key value] k') =
              Function.update v k (v k ++ [value]) := by
            funext k'
            by_cases hk' : k = k'
            · simp [ConfigLine.values_entry, hk, hk']
            · simp [ConfigLine.values_entry, hk, hk', Function.update_of_ne (Ne.symm hk')]
          rw [hvalues]
          exact g.gathers_set hd hset

/-- Lines below a header that are taken up all fit, and their values are gathered. -/
theorem of_takeUp (hstate : g.Governs state) (hbody : ∀ l ∈ body, l.isHeader = false) {d : σ}
    {v : κ → List (List Char)} (hd : g.Gathers d v) {p : PartialConfig}
    (h : (state d).takeUp body = .ok p) : (∀ l ∈ body, l.Fits g.key? g.Reads) ∧
      ∃ d', p = state d' ∧ g.Gathers d' fun k => v k ++ ConfigLine.values g.key? body k := by
  induction body generalizing d v with
  | nil =>
    cases h
    exact ⟨by simp, d, rfl, by simpa [ConfigLine.values] using hd⟩
  | cons l body ih =>
    obtain ⟨hl, hbody⟩ := List.forall_mem_cons.mp hbody
    rw [PartialConfig.takeUp_cons] at h
    obtain ⟨p₁, hfirst, hrest⟩ := exists_of_bind_eq_ok h
    obtain ⟨hfits, d₁, rfl, hd₁⟩ := of_addLine hstate hl hd hfirst
    obtain ⟨hall, d', rfl, hd'⟩ := ih hbody hd₁ hrest
    refine ⟨List.forall_mem_cons.mpr ⟨hfits, hall⟩, d', rfl, ?_⟩
    have hvalues (k : κ) : ConfigLine.values g.key? (l :: body) k =
        ConfigLine.values g.key? [l] k ++ ConfigLine.values g.key? body k :=
      ConfigLine.values_append [l] body k
    simpa only [hvalues, List.append_assoc] using hd'

/-- Lines that fit are taken up. -/
theorem exists_takeUp (hstate : g.Governs state) (hfits : ∀ l ∈ body, l.Fits g.key? g.Reads)
    (d : σ) : ∃ d', (state d).takeUp body = .ok (state d') := by
  induction body generalizing d with
  | nil => exact ⟨d, rfl⟩
  | cons l body ih =>
    obtain ⟨hl, hbody⟩ := List.forall_mem_cons.mp hfits
    rw [PartialConfig.takeUp_cons]
    cases l with
    | header text => exact hl.elim
    | stray => exact hl.elim
    | blank => exact ih hbody d
    | entry key value =>
      obtain ⟨hvalue, k, hk, hreads⟩ := hl
      obtain ⟨d₁, hset⟩ := g.exists_set hreads d key
      rw [PartialConfig.addLine, if_neg hvalue, hstate.known hk, hset]
      exact ih hbody d₁

end Gathering

theorem PartialInterface.gathering_governs (peers : List PartialPeer) :
    gathering.Governs fun i => ⟨some i, peers, .interface⟩ := by
  constructor
  · intro d k key value hk
    have hkey : InterfaceKey.ofChars? key = some k := hk
    simp only [PartialConfig.addEntry, hkey, gathering]
    cases d.set k key value <;> rfl
  · intro d key value hk
    have hkey : InterfaceKey.ofChars? key = none := hk
    simp [PartialConfig.addEntry, hkey]

theorem PartialPeer.gathering_governs (i : Option PartialInterface) (rest : List PartialPeer) :
    gathering.Governs fun p => ⟨i, p :: rest, .peer⟩ := by
  constructor
  · intro d k key value hk
    have hkey : PeerKey.ofChars? key = some k := hk
    simp only [PartialConfig.addEntry, hkey, gathering]
    cases d.set k key value <;> rfl
  · intro d key value hk
    have hkey : PeerKey.ofChars? key = none := hk
    simp [PartialConfig.addEntry, hkey]

namespace ConfigSection

variable {s : ConfigSection}

/-- No header begins sections of both kinds. -/
theorem isPeer_eq_false (h : s.isInterface = true) : s.isPeer = false := by
  rw [isInterface, Text.sameWord, beq_iff_eq] at h
  rw [isPeer, Text.sameWord, h]
  decide

end ConfigSection

namespace Outline

variable {ss : List ConfigSection} {s : ConfigSection}

theorem interface_eq_none_iff :
    (ofSections ss).interface = none ↔ ss.countP (·.isInterface) = 0 := by
  simp [ofSections, List.countP_eq_zero]

theorem ofSections_append_interface (h : s.isInterface = true)
    (hnone : (ofSections ss).interface = none) : ofSections (ss ++ [s]) =
      ⟨some (ConfigLine.values InterfaceKey.ofChars? s.body), (ofSections ss).peers⟩ := by
  have hfind : ss.find? (·.isInterface) = none := Option.map_eq_none_iff.mp hnone
  simp [ofSections, hfind, h, s.isPeer_eq_false h]

theorem ofSections_append_peer (h : s.isInterface = false) (hpeer : s.isPeer = true) :
    ofSections (ss ++ [s]) = ⟨(ofSections ss).interface,
      (ofSections ss).peers ++ [ConfigLine.values PeerKey.ofChars? s.body]⟩ := by
  simp [ofSections, h, hpeer]

end Outline

namespace PartialConfig

structure Gathers (d : PartialConfig) (o : Outline) : Prop where
  interface : Option.Rel PartialInterface.Gathers d.interface o.interface
  peers : List.Forall₂ PartialPeer.Gathers d.peers.reverse o.peers

variable {d d' : PartialConfig} {ss : List ConfigSection} {s : ConfigSection}

theorem gathers_empty : empty.Gathers (.ofSections []) := ⟨.none, .nil⟩

theorem Gathers.interface_eq_none_iff (h : d.Gathers (.ofSections ss)) :
    d.interface = none ↔ ss.countP (·.isInterface) = 0 := by
  rw [← Outline.interface_eq_none_iff]
  have hrel := h.interface
  revert hrel
  cases d.interface <;> cases (Outline.ofSections ss).interface <;> simp

/-- A section is taken up header first. -/
theorem takeUp_lines (d : PartialConfig) (s : ConfigSection) :
    d.takeUp s.lines = d.startSection s.header >>= fun d => d.takeUp s.body :=
  takeUp_cons d _ _

/-- A section that is taken up fits and is not a second one for the interface, and what it says is
added to what was said. -/
theorem of_takeUp_section (hbody : ∀ l ∈ s.body, l.isHeader = false)
    (hd : d.Gathers (.ofSections ss)) (h : d.takeUp s.lines = .ok d') :
    s.Fits ∧ (s.isInterface → ss.countP (·.isInterface) = 0) ∧
      d'.Gathers (.ofSections (ss ++ [s])) := by
  rw [takeUp_lines] at h
  obtain ⟨d₁, hstart, h⟩ := exists_of_bind_eq_ok h
  rw [startSection] at hstart
  split at hstart
  · rename_i hinterface
    split at hstart
    · rename_i hnone
      cases hstart
      have hcount := hd.interface_eq_none_iff.mp hnone
      obtain ⟨hfits, i, rfl, hi⟩ := Gathering.of_takeUp
        (PartialInterface.gathering_governs d.peers) hbody PartialInterface.gathers_empty h
      refine ⟨.inl ⟨hinterface, hfits⟩, fun _ => hcount, ?_⟩
      rw [Outline.ofSections_append_interface hinterface
        (Outline.interface_eq_none_iff.mpr hcount)]
      exact ⟨.some hi, hd.peers⟩
    · cases hstart
  · rename_i hinterface
    split at hstart
    · rename_i hpeer
      cases hstart
      obtain ⟨hfits, p, rfl, hp⟩ := Gathering.of_takeUp
        (PartialPeer.gathering_governs d.interface d.peers) hbody PartialPeer.gathers_empty h
      refine ⟨.inr ⟨hpeer, hfits⟩, fun hyes => absurd hyes hinterface, ?_⟩
      rw [Outline.ofSections_append_peer (Bool.eq_false_iff.mpr hinterface) hpeer]
      refine ⟨hd.interface, ?_⟩
      rw [List.reverse_cons]
      exact List.rel_append hd.peers (.cons hp .nil)
    · cases hstart

/-- A section that fits and is not a second one for the interface is taken up. -/
theorem exists_takeUp_section (hd : d.Gathers (.ofSections ss)) (hfits : s.Fits)
    (hsingle : s.isInterface → ss.countP (·.isInterface) = 0) :
    ∃ d', d.takeUp s.lines = .ok d' := by
  rw [takeUp_lines, startSection]
  rcases hfits with ⟨hinterface, hfits⟩ | ⟨hpeer, hfits⟩
  · obtain ⟨i, hi⟩ := Gathering.exists_takeUp (PartialInterface.gathering_governs d.peers) hfits
      .empty
    have hheader : Text.sameWord s.header interfaceHeader = true := hinterface
    rw [if_pos hheader, hd.interface_eq_none_iff.mpr (hsingle hinterface)]
    exact ⟨_, hi⟩
  · obtain ⟨p, hp⟩ := Gathering.exists_takeUp
      (PartialPeer.gathering_governs d.interface d.peers) hfits .empty
    have hheader : ¬Text.sameWord s.header interfaceHeader = true := by
      intro h
      rw [s.isPeer_eq_false h] at hpeer
      cases hpeer
    have hpeer : Text.sameWord s.header peerHeader = true := hpeer
    rw [if_neg hheader, if_pos hpeer]
    exact ⟨_, hp⟩

/-- Sections that are taken up all fit, one at most is for the interface, and what they say is what
has been said. -/
theorem of_takeUp_sections (hbodies : ∀ s ∈ ss, ∀ l ∈ s.body, l.isHeader = false)
    (h : empty.takeUp (ss.flatMap ConfigSection.lines) = .ok d) :
    (∀ s ∈ ss, s.Fits) ∧ ss.countP (·.isInterface) ≤ 1 ∧ d.Gathers (.ofSections ss) := by
  induction ss using List.reverseRecOn generalizing d with
  | nil =>
    cases h
    exact ⟨by simp, by simp, gathers_empty⟩
  | append_singleton ss s ih =>
    obtain ⟨hbodies, hbody⟩ := List.forall_mem_append.mp hbodies
    rw [List.flatMap_append, List.flatMap_singleton, takeUp_append] at h
    obtain ⟨d₁, hfirst, hlast⟩ := exists_of_bind_eq_ok h
    obtain ⟨hfits, hcount, hd₁⟩ := ih hbodies hfirst
    obtain ⟨hs, hsingle, hd⟩ :=
      of_takeUp_section (hbody s (List.mem_singleton_self s)) hd₁ hlast
    refine ⟨List.forall_mem_append.mpr ⟨hfits, by simpa using hs⟩, ?_, hd⟩
    rw [List.countP_append, List.countP_singleton]
    split
    · rw [hsingle ‹_›]
    · exact hcount

/-- Sections are taken up if all their lines fit and one at most is about the interface. -/
theorem exists_takeUp_sections (hbodies : ∀ s ∈ ss, ∀ l ∈ s.body, l.isHeader = false)
    (hfits : ∀ s ∈ ss, s.Fits) (hsingle : ss.countP (·.isInterface) ≤ 1) :
    ∃ d, empty.takeUp (ss.flatMap ConfigSection.lines) = .ok d := by
  induction ss using List.reverseRecOn with
  | nil => exact ⟨empty, rfl⟩
  | append_singleton ss s ih =>
    obtain ⟨hbodies, _⟩ := List.forall_mem_append.mp hbodies
    obtain ⟨hfits, hs⟩ := List.forall_mem_append.mp hfits
    rw [List.countP_append, List.countP_singleton] at hsingle
    obtain ⟨d₁, hd₁⟩ := ih hbodies hfits (by omega)
    obtain ⟨_, _, hgathers⟩ := of_takeUp_sections hbodies hd₁
    have hlast : s.isInterface → ss.countP (·.isInterface) = 0 := by
      intro h
      rw [if_pos h] at hsingle
      omega
    obtain ⟨d', hd'⟩ := exists_takeUp_section hgathers (hs s (List.mem_singleton_self s)) hlast
    refine ⟨d', ?_⟩
    rw [List.flatMap_append, List.flatMap_singleton, takeUp_append, hd₁]
    exact hd'

/-- Above the first header nothing can be said. -/
theorem takeUp_above_eq_ok_iff {ls : List ConfigLine} (hls : ∀ l ∈ ls, l.isHeader = false) :
    empty.takeUp ls = .ok d ↔ (∀ l ∈ ls, l = .blank) ∧ d = empty := by
  induction ls with
  | nil => simp [eq_comm]
  | cons l ls ih =>
    obtain ⟨hl, hrest⟩ := List.forall_mem_cons.mp hls
    rw [takeUp_cons, List.forall_mem_cons]
    cases l with
    | header text => cases hl
    | blank => exact (ih hrest).trans (by simp)
    | stray => simp [addLine, bind, Except.bind]
    | entry key value =>
      rw [addLine]
      split <;> simp [addEntry, empty, bind, Except.bind]

variable {ls : List ConfigLine}

/-- Lines that are taken up all fit, and their outline is what they say. -/
theorem of_takeUp (h : empty.takeUp ls = .ok d) : AllFit ls ∧ d.Gathers (.ofLines ls) := by
  rw [← ConfigLine.above_append_sections ls, takeUp_append] at h
  obtain ⟨d₁, habove, hsections⟩ := exists_of_bind_eq_ok h
  obtain ⟨hblank, rfl⟩ :=
    (takeUp_above_eq_ok_iff ConfigLine.not_isHeader_of_mem_aboveHeaders).mp habove
  obtain ⟨hfits, hsingle, hd⟩ :=
    of_takeUp_sections ConfigLine.not_isHeader_of_mem_sections hsections
  exact ⟨⟨hblank, hfits, hsingle⟩, hd⟩

/-- Lines that all fit are taken up. -/
theorem exists_takeUp_iff : (∃ d, empty.takeUp ls = .ok d) ↔ AllFit ls := by
  constructor
  · rintro ⟨d, hd⟩
    exact (of_takeUp hd).1
  · intro h
    obtain ⟨d, hd⟩ := exists_takeUp_sections ConfigLine.not_isHeader_of_mem_sections h.sections
      h.single
    refine ⟨d, ?_⟩
    rw [← ConfigLine.above_append_sections ls, takeUp_append, (takeUp_above_eq_ok_iff
      ConfigLine.not_isHeader_of_mem_aboveHeaders).mpr ⟨h.above, rfl⟩]
    exact hd

end PartialConfig

namespace PartialInterface

variable {d : PartialInterface} {v : InterfaceValues}

theorem Gathers.bindsTwice_iff (h : d.Gathers v) :
    v.BindsTwice ↔ d.included.isSome ∧ d.excluded.isSome := by
  rw [← h.included, ← h.excluded, InterfaceValues.BindsTwice]
  simp [namesOf]

theorem Gathers.privateKey_eq_none_iff (h : d.Gathers v) :
    d.privateKey = none ↔ v .privateKey = [] := by
  rw [← lastOf?_eq_some_none_iff (PrivateKey.ofChars · |>.toOption), h.privateKey]
  simp

theorem Gathers.obfuscation?_eq (h : d.Gathers v) : v.obfuscation? = some d.obfuscation := by
  rw [InterfaceValues.obfuscation?]
  split
  · obtain ⟨o, ho⟩ := Option.isSome_iff_exists.mp (h.obfuscated.mpr ‹_›)
    simp [h.parameters, ho]
  · have hnone : d.obfuscation = none := by simpa [← h.obfuscated] using ‹¬v.Obfuscates›
    rw [hnone]

/-- What the section has said is completed to the interface that the values stand for. -/
theorem complete_eq_ok_iff (h : d.Gathers v) {i : Interface} :
    d.complete = .ok i ↔ v.interface? = some i := by
  rw [InterfaceValues.interface?, h.privateKey, h.addresses, h.dns, h.mtu, h.obfuscation?_eq,
    InterfaceValues.apps?, h.included, h.excluded, complete, apps]
  cases d.privateKey <;> cases d.included <;> cases d.excluded <;>
    simp [bind, Except.bind, pure, Except.pure]

/-- What is missing in the values is the error. -/
theorem complete_eq_error_iff (h : d.Gathers v) {e : ConfigError} :
    d.complete = .error e ↔ v.Lacks e := by
  have hlacks : v.Lacks e ↔ v.BindsTwice ∧ e = .parse 0 .appsExclusive ∨
      ¬v.BindsTwice ∧ v .privateKey = [] ∧ e = .noPrivateKey := by
    constructor
    · rintro (htwice | ⟨honce, hkey⟩)
      · exact .inl ⟨htwice, rfl⟩
      · exact .inr ⟨honce, hkey, rfl⟩
    · rintro (⟨htwice, rfl⟩ | ⟨honce, hkey, rfl⟩)
      · exact .oneBinding htwice
      · exact .privateKey honce hkey
  rw [hlacks, h.bindsTwice_iff, ← h.privateKey_eq_none_iff, complete, apps]
  cases d.privateKey <;> cases d.included <;> cases d.excluded <;>
    simp [bind, Except.bind, pure, Except.pure, eq_comm]

end PartialInterface

namespace PartialPeer

variable {d : PartialPeer} {v : PeerValues}

theorem Gathers.publicKey_eq_none_iff (h : d.Gathers v) :
    d.publicKey = none ↔ v .publicKey = [] := by
  rw [← lastOf?_eq_some_none_iff (PublicKey.ofChars · |>.toOption), h.publicKey]
  simp

theorem Gathers.endpoint_eq_none_iff (h : d.Gathers v) : d.endpoint = none ↔ v .endpoint = [] := by
  rw [← lastOf?_eq_some_none_iff Endpoint.ofChars?, h.endpoint]
  simp

/-- What the section has said is completed to the peer that the values stand for. -/
theorem complete_eq_ok_iff (h : d.Gathers v) {p : Peer} :
    d.complete = .ok p ↔ v.peer? = some p := by
  obtain ⟨keepalive, hlast, hkeepalive⟩ := Option.map_eq_some_iff.mp h.keepalive
  rw [PeerValues.peer?, h.publicKey, h.endpoint, h.allowedIps, hlast, complete]
  cases d.publicKey <;> cases d.endpoint <;> simp [← hkeepalive]

/-- What is missing in the values is the error. -/
theorem complete_eq_error_iff (h : d.Gathers v) {e : ConfigError} :
    d.complete = .error e ↔ v.Lacks e := by
  have hlacks : v.Lacks e ↔ v .publicKey = [] ∧ e = .noPeerKey ∨
      v .publicKey ≠ [] ∧ v .endpoint = [] ∧ e = .noEntry := by
    constructor
    · rintro (hkey | ⟨hkey, hendpoint⟩)
      · exact .inl ⟨hkey, rfl⟩
      · exact .inr ⟨hkey, hendpoint, rfl⟩
    · rintro (⟨hkey, rfl⟩ | ⟨hkey, hendpoint, rfl⟩)
      · exact .publicKey hkey
      · exact .endpoint hkey hendpoint
  rw [hlacks, Ne, ← h.publicKey_eq_none_iff, ← h.endpoint_eq_none_iff, complete]
  cases d.publicKey <;> cases d.endpoint <;> simp [eq_comm]

variable {ds : List PartialPeer} {vs : List PeerValues}

/-- Peers are completed one by one. -/
theorem mapM_complete_eq_ok_iff (h : List.Forall₂ Gathers ds vs) {ps : List Peer} :
    ds.mapM complete = .ok ps ↔ vs.mapM PeerValues.peer? = some ps := by
  induction h generalizing ps with
  | nil => simp [pure, Except.pure]
  | @cons d v ds vs hd hds ih =>
    rw [List.mapM_cons, List.mapM_cons]
    constructor
    · intro h
      obtain ⟨p, hp, h⟩ := exists_of_bind_eq_ok h
      obtain ⟨rest, hrest, h⟩ := exists_of_bind_eq_ok h
      cases h
      rw [(complete_eq_ok_iff hd).mp hp, ih.mp hrest]
      rfl
    · intro h
      obtain ⟨p, hp, h⟩ := Option.bind_eq_some_iff.mp h
      obtain ⟨rest, hrest, h⟩ := Option.bind_eq_some_iff.mp h
      cases h
      rw [(complete_eq_ok_iff hd).mpr hp, ih.mpr hrest]
      rfl

/-- The first peer for which something is missing decides the error. -/
theorem mapM_complete_eq_error_iff (h : List.Forall₂ Gathers ds vs) {e : ConfigError} :
    ds.mapM complete = .error e ↔ ∃ before v after, vs = before ++ v :: after ∧
      (∀ w ∈ before, ∀ e, ¬w.Lacks e) ∧ v.Lacks e := by
  induction h with
  | nil => simp [pure, Except.pure]
  | @cons d v ds vs hd hds ih =>
    rw [List.mapM_cons]
    cases hcomplete : d.complete with
    | error e₁ =>
      constructor
      · intro h
        cases h
        exact ⟨[], v, vs, rfl, by simp, (complete_eq_error_iff hd).mp hcomplete⟩
      · rintro ⟨before, w, after, hsplit, hbefore, hw⟩
        cases before with
        | nil =>
          cases hsplit
          have herror := (complete_eq_error_iff hd).mpr hw
          rw [hcomplete] at herror
          cases herror
          rfl
        | cons u before =>
          cases hsplit
          exact absurd ((complete_eq_error_iff hd).mp hcomplete) (hbefore v List.mem_cons_self e₁)
    | ok p =>
      have hfull : ∀ e, ¬v.Lacks e := by
        intro e₁ hlacks
        rw [(complete_eq_error_iff hd).mpr hlacks] at hcomplete
        cases hcomplete
      have hrest : (do return p :: (← ds.mapM complete)) = Except.error e ↔
          ds.mapM complete = .error e := by
        cases ds.mapM complete <;> simp [bind, Except.bind, pure, Except.pure]
      refine hrest.trans (ih.trans ?_)
      constructor
      · rintro ⟨before, w, after, rfl, hbefore, hw⟩
        exact ⟨v :: before, w, after, rfl, List.forall_mem_cons.mpr ⟨hfull, hbefore⟩, hw⟩
      · rintro ⟨before, w, after, hsplit, hbefore, hw⟩
        cases before with
        | nil =>
          cases hsplit
          exact absurd hw (hfull e)
        | cons u before =>
          cases hsplit
          exact ⟨before, w, after, rfl, (List.forall_mem_cons.mp hbefore).2, hw⟩

end PartialPeer

namespace PartialConfig

variable {d : PartialConfig} {o : Outline}

/-- What has been said is completed to the configuration that the outline stands for. -/
theorem complete_eq_ok_iff (h : d.Gathers o) {c : Config} :
    d.complete = .ok c ↔ o.config? = some c := by
  obtain ⟨hinterface, hpeers⟩ := h
  obtain ⟨interface, peers, current⟩ := d
  obtain ⟨values, peerValues⟩ := o
  cases hinterface with
  | none => simp [complete, Outline.config?]
  | @some i v hi =>
    simp only [complete, Outline.config?, Option.bind_eq_bind, Option.bind_some]
    constructor
    · intro h
      obtain ⟨interface, hinterface, h⟩ := exists_of_bind_eq_ok h
      obtain ⟨ps, hps, h⟩ := exists_of_bind_eq_ok h
      cases h
      simp [(PartialInterface.complete_eq_ok_iff hi).mp hinterface,
        (PartialPeer.mapM_complete_eq_ok_iff hpeers).mp hps]
    · intro h
      obtain ⟨interface, hinterface, h⟩ := Option.bind_eq_some_iff.mp h
      obtain ⟨ps, hps, h⟩ := Option.bind_eq_some_iff.mp h
      cases h
      rw [(PartialInterface.complete_eq_ok_iff hi).mpr hinterface,
        (PartialPeer.mapM_complete_eq_ok_iff hpeers).mpr hps]
      rfl

/-- What the outline lacks is the error. -/
theorem complete_eq_error_iff (h : d.Gathers o) {e : ConfigError} :
    d.complete = .error e ↔ o.Lacks e := by
  obtain ⟨hinterface, hpeers⟩ := h
  obtain ⟨interface, peers, current⟩ := d
  obtain ⟨values, peerValues⟩ := o
  cases hinterface with
  | none =>
    constructor
    · intro h
      cases h
      exact .interface rfl
    · rintro (_ | ⟨h, _⟩ | ⟨h, _⟩)
      · rfl
      · cases h
      · cases h
  | @some i v hi =>
    simp only [complete]
    cases hcomplete : i.complete with
    | error e₁ =>
      have hlacks := (PartialInterface.complete_eq_error_iff hi).mp hcomplete
      constructor
      · intro h
        cases h
        exact .ofInterface rfl hlacks
      · rintro (h | ⟨h, hv⟩ | ⟨h, hfull, _⟩)
        · cases h
        · cases h
          have herror := (PartialInterface.complete_eq_error_iff hi).mpr hv
          rw [hcomplete] at herror
          cases herror
          rfl
        · cases h
          exact absurd hlacks (hfull e₁)
    | ok interface =>
      have hfull : ∀ e, ¬v.Lacks e := by
        intro e₁ hlacks
        rw [(PartialInterface.complete_eq_error_iff hi).mpr hlacks] at hcomplete
        cases hcomplete
      have hrest : (do return (⟨interface, ← peers.reverse.mapM PartialPeer.complete⟩ : Config)) =
          Except.error e ↔ peers.reverse.mapM PartialPeer.complete = .error e := by
        cases peers.reverse.mapM PartialPeer.complete <;>
          simp [bind, Except.bind, pure, Except.pure]
      refine hrest.trans ((PartialPeer.mapM_complete_eq_error_iff hpeers).trans ?_)
      constructor
      · rintro ⟨before, w, after, hsplit, hbefore, hw⟩
        exact .ofPeer rfl hfull hsplit hbefore hw
      · rintro (h | ⟨h, hv⟩ | ⟨h, hv, hsplit, hbefore, hw⟩)
        · cases h
        · cases h
          exact absurd hv (hfull e)
        · exact ⟨_, _, _, hsplit, hbefore, hw⟩

end PartialConfig

namespace Config

def classified (text : String) : List ConfigLine := (Text.lines text.toList).map .ofChars

variable {text : String} {d : PartialConfig}

/-- Where no line is refused, it matters only whether something is missing. -/
theorem parse_of_takeUp (h : PartialConfig.empty.takeUp (classified text) = .ok d) :
    parse text = d.complete := by
  rw [parse_eq_lines, PartialConfig.addLines_of_takeUp h]
  rfl

/-- A line that is refused decides the outcome. -/
theorem parse_of_stopsAt {n : Nat} {e : LineError}
    (h : PartialConfig.empty.StopsAt (Text.lines text.toList) n e) :
    parse text = .error (e.inLine n) := by
  rw [parse_eq_lines, PartialConfig.addLines_of_stopsAt h]
  rfl

/-- A configuration is read if and only if every line fits and the outline stands for it. -/
theorem parse_eq_ok_iff_outline {c : Config} : parse text = .ok c ↔
    AllFit (classified text) ∧ (Outline.ofLines (classified text)).config? = some c := by
  constructor
  · intro h
    rcases PartialConfig.empty.takeUp_or_stopsAt (Text.lines text.toList) with
      ⟨d, hd⟩ | ⟨n, e, hstop⟩
    · obtain ⟨hfit, hgathers⟩ := PartialConfig.of_takeUp hd
      rw [parse_of_takeUp hd] at h
      exact ⟨hfit, (PartialConfig.complete_eq_ok_iff hgathers).mp h⟩
    · rw [parse_of_stopsAt hstop] at h
      cases h
  · rintro ⟨hfit, hconfig⟩
    obtain ⟨d, hd⟩ := PartialConfig.exists_takeUp_iff.mpr hfit
    rw [parse_of_takeUp hd]
    exact (PartialConfig.complete_eq_ok_iff (PartialConfig.of_takeUp hd).2).mpr hconfig

end Config

end VpnTunnel
