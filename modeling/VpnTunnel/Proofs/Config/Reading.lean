import VpnTunnel.Proofs.Config.Line
import VpnTunnel.Proofs.Config.WireSafe

/-!
# What reading produces

Whatever text is read, its free texts end up clean: each value is trimmed and free of comments and
line breaks, and so is each name of an application, which has no comma either.
-/

namespace VpnTunnel

/-- Names that have been read can be written. -/
theorem appName_of_mem_readNames {value : List Char} (h : Text.Clean value) :
    ∀ name ∈ (readNames value).toList, AppName name := by
  intro name hname
  obtain ⟨w, hw, rfl⟩ := List.mem_map.mp (NameSet.mem_toList_ofList.mp hname)
  have hitem := Text.item_of_mem_commaItems hw
  apply appName_ofList hitem
  refine ⟨hitem.trimmed, ?_, ?_⟩
  · exact fun hc => h.no_comment (Text.mem_of_mem_commaItems hw hc)
  · exact fun hc => h.no_break (Text.mem_of_mem_commaItems hw hc)

namespace PartialInterface

structure Clean (d : PartialInterface) : Prop where
  obfuscation : ∀ o, d.obfuscation = some o → o.Clean
  included : ∀ apps, d.included = some apps → ∀ name ∈ apps.toList, AppName name
  excluded : ∀ apps, d.excluded = some apps → ∀ name ∈ apps.toList, AppName name

theorem clean_empty : empty.Clean := by
  constructor <;> simp [empty]

namespace Clean

variable {d d' : PartialInterface}

theorem getD (hd : d.Clean) : (d.obfuscation.getD .blank).Clean := by
  cases ho : d.obfuscation with
  | none => exact Obfuscation.clean_blank
  | some o => exact hd.obfuscation o ho

/-- Obfuscation parameters take the place of clean ones. -/
theorem with_obfuscation (hd : d.Clean) {o : Obfuscation} (ho : o.Clean) :
    Clean { d with obfuscation := some o } := by
  refine ⟨?_, hd.included, hd.excluded⟩
  intro o' ho'
  cases ho'
  exact ho

theorem setNumber (hd : d.Clean) {key value : List Char} {set : Obfuscation → UInt32 → Obfuscation}
    (hset : ∀ o n, o.Clean → (set o n).Clean) (h : d.setNumber key value set = .ok d') :
    d'.Clean := by
  obtain ⟨n, _, h⟩ := exists_of_bind_eq_ok h
  cases h
  exact hd.with_obfuscation (hset _ n hd.getD)

theorem setText (hd : d.Clean) {value : List Char} {set : Obfuscation → String → Obfuscation}
    (hvalue : Text.Clean value)
    (hset : ∀ o t, o.Clean → Text.Clean t.toList → (set o t).Clean)
    (h : d.setText value set = .ok d') : d'.Clean := by
  cases h
  apply hd.with_obfuscation
  apply hset _ _ hd.getD
  rw [String.toList_ofList]
  exact hvalue

/-- Taking up a clean value leaves everything clean. -/
theorem set (hd : d.Clean) {k : InterfaceKey} {key value : List Char} (hvalue : Text.Clean value)
    (h : d.set k key value = .ok d') : d'.Clean := by
  have hnames := appName_of_mem_readNames hvalue
  cases k with
  | privateKey | address | dns | mtu =>
    obtain ⟨_, _, h⟩ := exists_of_bind_eq_ok h
    cases h
    exact ⟨hd.obfuscation, hd.included, hd.excluded⟩
  | jc | jmin | jmax | s1 | s2 =>
    rw [PartialInterface.set] at h
    refine hd.setNumber ?_ h
    exact fun _ _ ho => ⟨ho.h1, ho.h2, ho.h3, ho.h4, ho.i1⟩
  | h1 =>
    rw [PartialInterface.set] at h
    refine hd.setText hvalue ?_ h
    exact fun _ _ ho ht => ⟨ht, ho.h2, ho.h3, ho.h4, ho.i1⟩
  | h2 =>
    rw [PartialInterface.set] at h
    refine hd.setText hvalue ?_ h
    exact fun _ _ ho ht => ⟨ho.h1, ht, ho.h3, ho.h4, ho.i1⟩
  | h3 =>
    rw [PartialInterface.set] at h
    refine hd.setText hvalue ?_ h
    exact fun _ _ ho ht => ⟨ho.h1, ho.h2, ht, ho.h4, ho.i1⟩
  | h4 =>
    rw [PartialInterface.set] at h
    refine hd.setText hvalue ?_ h
    exact fun _ _ ho ht => ⟨ho.h1, ho.h2, ho.h3, ht, ho.i1⟩
  | i1 =>
    rw [PartialInterface.set] at h
    refine hd.setText hvalue ?_ h
    exact fun _ _ ho ht => ⟨ho.h1, ho.h2, ho.h3, ho.h4, ht⟩
  | includedApplications =>
    cases h
    refine ⟨hd.obfuscation, ?_, hd.excluded⟩
    intro apps happs
    cases happs
    exact hnames
  | excludedApplications =>
    cases h
    refine ⟨hd.obfuscation, hd.included, ?_⟩
    intro apps happs
    cases happs
    exact hnames

theorem apps (hd : d.Clean) {b : AppBinding} (h : d.apps = .ok b) : b.Clean := by
  rw [PartialInterface.apps] at h
  split at h
  · cases h
  · cases h
    intro apps happs
    cases happs
    exact hd.included _ ‹_›
  · cases h
    intro apps happs
    cases happs
    exact hd.excluded _ ‹_›
  · cases h
    intro apps happs
    cases happs

theorem complete (hd : d.Clean) {i : Interface} (h : d.complete = .ok i) : i.Clean := by
  obtain ⟨b, hb, h⟩ := exists_of_bind_eq_ok h
  split at h
  · cases h
  · cases h
    exact ⟨hd.obfuscation, hd.apps hb⟩

end Clean

end PartialInterface

namespace PartialConfig

def Clean (d : PartialConfig) : Prop := ∀ i, d.interface = some i → i.Clean

theorem clean_empty : empty.Clean := fun _ h => nomatch h

namespace Clean

variable {d d' : PartialConfig}

theorem startSection (hd : d.Clean) {header : List Char} (h : d.startSection header = .ok d') :
    d'.Clean := by
  rw [PartialConfig.startSection] at h
  split at h
  · split at h
    · cases h
      intro i hi
      cases hi
      exact PartialInterface.clean_empty
    · cases h
  · split at h
    · cases h
      exact hd
    · cases h

theorem addEntry (hd : d.Clean) {key value : List Char} (hvalue : Text.Clean value)
    (h : d.addEntry key value = .ok d') : d'.Clean := by
  rw [PartialConfig.addEntry] at h
  split at h
  · rename_i i _ hi
    split at h
    · obtain ⟨i', hset, h⟩ := exists_of_bind_eq_ok h
      cases h
      intro j hj
      cases hj
      exact (hd i hi).set hvalue hset
    · cases h
  · split at h
    · obtain ⟨p', _, h⟩ := exists_of_bind_eq_ok h
      cases h
      exact hd
    · cases h
  · cases h

/-- Taking up a line without breaks leaves everything clean. -/
theorem addLine (hd : d.Clean) {raw : List Char} (hbreak : '\n' ∉ raw)
    (h : d.addLine (.ofChars raw) = .ok d') : d'.Clean := by
  cases hline : ConfigLine.ofChars raw with
  | blank =>
    rw [hline] at h
    cases h
    exact hd
  | header text =>
    rw [hline] at h
    exact hd.startSection h
  | stray =>
    rw [hline] at h
    cases h
  | entry key value =>
    rw [hline, PartialConfig.addLine] at h
    split at h
    · cases h
    · exact hd.addEntry (ConfigLine.clean_of_ofChars hbreak hline) h

/-- Reading line by line keeps free texts clean. -/
theorem addLines {lines : List (List Char)} (hd : d.Clean) (hbreak : ∀ l ∈ lines, '\n' ∉ l)
    {line : Nat} (h : d.addLines line lines = .ok d') : d'.Clean := by
  induction lines generalizing d line with
  | nil =>
    cases h
    exact hd
  | cons raw rest ih =>
    obtain ⟨hraw, hrest⟩ := List.forall_mem_cons.mp hbreak
    rw [PartialConfig.addLines] at h
    split at h
    · exact ih (hd.addLine hraw ‹_›) hrest h
    · cases h

theorem complete (hd : d.Clean) {c : Config} (h : d.complete = .ok c) : c.interface.Clean := by
  rw [PartialConfig.complete] at h
  split at h
  · cases h
  · rename_i i hi
    obtain ⟨interface, hinterface, h⟩ := exists_of_bind_eq_ok h
    obtain ⟨peers, _, h⟩ := exists_of_bind_eq_ok h
    cases h
    exact (hd i hi).complete hinterface

end Clean

end PartialConfig

/-- Every configuration that is read has clean texts. -/
theorem Config.clean_of_parse {text : String} {c : Config} (h : parse text = .ok c) :
    c.interface.Clean := by
  obtain ⟨d, hlines, hcomplete⟩ := exists_of_bind_eq_ok h
  have hbreak : ∀ l ∈ text.toList.splitOn '\n', '\n' ∉ l := fun _ hl => (Text.of_mem_splitOn hl).1
  exact (PartialConfig.clean_empty.addLines hbreak hlines).complete hcomplete

end VpnTunnel
