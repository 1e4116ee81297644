import VpnTunnel.Proofs.Config.TakingUp
import VpnTunnel.Proofs.Text.Folding

/-!
# The gist of a text

The gist of a text is what its lines say, without those that say nothing and with headers and keys
in one spelling. What is read depends on the gist alone; an error does so up to the number of the
line and the spelling in its message.
-/

namespace VpnTunnel

open Text (sameWord foldAscii)

def ConfigFault.unnamed : ConfigFault → ConfigFault
  | unknownSection _ => unknownSection ""
  | emptyValue _ => emptyValue ""
  | invalidValue _ value => invalidValue "" value
  | unknownInterfaceKey _ => unknownInterfaceKey ""
  | unknownPeerKey _ => unknownPeerKey ""
  | fault => fault

def ConfigError.unplaced : ConfigError → ConfigError
  | parse _ fault => parse 0 fault.unnamed
  | e => e

def LineError.unnamed : LineError → LineError
  | fault f => fault f.unnamed
  | key cause => key cause

theorem LineError.unplaced_inLine (e : LineError) (n : Nat) :
    (e.inLine n).unplaced = e.unnamed.inLine 0 := by
  cases e <;> rfl

/-- Two steps fail alike if the first ones do and the second ones do. -/
theorem mapError_bind_congr {ε ε' α β : Type} {g : ε → ε'} {x x' : Except ε α}
    {f f' : α → Except ε β} (hx : x.mapError g = x'.mapError g)
    (hf : ∀ a, (f a).mapError g = (f' a).mapError g) :
    (x >>= f).mapError g = (x' >>= f').mapError g := by
  cases x with
  | error e =>
    cases x' with
    | error e' => exact congrArg Except.error (Except.error.inj hx)
    | ok a' => cases hx
  | ok a =>
    cases x' with
    | error e' => cases hx
    | ok a' =>
      cases hx
      exact hf a

namespace ConfigLine

/-- The line with its header or its key in one spelling. Headers that begin no section are all
alike. -/
def respelled : ConfigLine → ConfigLine
  | header text =>
    if sameWord text interfaceHeader then header interfaceHeader
    else if sameWord text peerHeader then header peerHeader
    else header []
  | entry key value => entry (foldAscii key) value
  | l => l

def gist (raw : List Char) : ConfigLine := (ofChars raw).respelled

end ConfigLine

/-- What a text says line by line, without the lines that say nothing. -/
def Text.gist (s : List Char) : List ConfigLine :=
  ((s.splitOn '\n').map ConfigLine.gist).filter (· ≠ .blank)

section Values

variable {α : Type} {read? : List Char → Option α} {key key' : List Char}

theorem unnamed_readValue (value : List Char) :
    (readValue read? key value).mapError LineError.unnamed =
      (readValue read? key' value).mapError .unnamed := by
  rw [readValue, readValue]
  cases read? value <;> rfl

theorem unnamed_readItems (value : List Char) :
    (readItems read? key value).mapError LineError.unnamed =
      (readItems read? key' value).mapError .unnamed := by
  rw [readItems, readItems]
  induction Text.commaItems value with
  | nil => rfl
  | cons item items ih =>
    rw [List.mapM_cons, List.mapM_cons]
    exact mapError_bind_congr (unnamed_readValue item) fun a =>
      mapError_bind_congr ih fun as => rfl

theorem PartialInterface.unnamed_set (d : PartialInterface) (k : InterfaceKey)
    (value : List Char) : (d.set k key value).mapError LineError.unnamed =
      (d.set k key' value).mapError .unnamed := by
  cases k with
  | address | dns => exact mapError_bind_congr (unnamed_readItems value) fun _ => rfl
  | mtu | jc | jmin | jmax | s1 | s2 =>
    exact mapError_bind_congr (unnamed_readValue value) fun _ => rfl
  | _ => rfl

theorem PartialPeer.unnamed_set (d : PartialPeer) (k : PeerKey) (value : List Char) :
    (d.set k key value).mapError LineError.unnamed =
      (d.set k key' value).mapError .unnamed := by
  cases k with
  | allowedIps => exact mapError_bind_congr (unnamed_readItems value) fun _ => rfl
  | persistentKeepalive =>
    rw [set, set]
    split
    · rfl
    · exact mapError_bind_congr (unnamed_readValue value) fun _ => rfl
  | _ => rfl

end Values

namespace PartialConfig

theorem unnamed_startSection (d : PartialConfig) (text : List Char) :
    (d.addLine (ConfigLine.header text).respelled).mapError LineError.unnamed =
      (d.startSection text).mapError .unnamed := by
  rw [ConfigLine.respelled]
  split
  · rename_i hinterface
    rw [addLine, startSection, startSection, if_pos hinterface, if_pos (by decide)]
  · rename_i hinterface
    split
    · rename_i hpeer
      rw [addLine, startSection, startSection, if_neg hinterface, if_pos hpeer,
        if_neg (by decide), if_pos (by decide)]
    · rename_i hpeer
      rw [addLine, startSection, startSection, if_neg hinterface, if_neg hpeer,
        if_neg (by decide), if_neg (by decide)]
      rfl

/-- An entry is taken up in any spelling of its key. -/
theorem unnamed_addEntry (d : PartialConfig) (key value : List Char) :
    (d.addEntry (foldAscii key) value).mapError LineError.unnamed =
      (d.addEntry key value).mapError .unnamed := by
  have hinterface : InterfaceKey.ofChars? (foldAscii key) = InterfaceKey.ofChars? key := by
    simp only [InterfaceKey.ofChars?, Text.sameWord_foldAscii]
  have hpeer : PeerKey.ofChars? (foldAscii key) = PeerKey.ofChars? key := by
    simp only [PeerKey.ofChars?, Text.sameWord_foldAscii]
  rw [addEntry, addEntry, hinterface, hpeer]
  split
  · split
    · exact mapError_bind_congr (PartialInterface.unnamed_set _ _ value) fun _ => rfl
    · rfl
  · split
    · exact mapError_bind_congr (PartialPeer.unnamed_set _ _ value) fun _ => rfl
    · rfl
  · rfl

/-- A respelled line does the same. -/
theorem unnamed_addLine (d : PartialConfig) (l : ConfigLine) :
    (d.addLine l.respelled).mapError LineError.unnamed = (d.addLine l).mapError .unnamed := by
  cases l with
  | header text => exact unnamed_startSection d text
  | entry key value =>
    rw [ConfigLine.respelled, addLine, addLine]
    split
    · rfl
    · exact unnamed_addEntry d key value
  | _ => rfl

/-- Blank lines are passed over. -/
theorem takeUp_filter (d : PartialConfig) (ls : List ConfigLine) :
    d.takeUp (ls.filter (· ≠ .blank)) = d.takeUp ls := by
  induction ls generalizing d with
  | nil => rfl
  | cons l ls ih =>
    by_cases hl : l = .blank
    · subst hl
      exact ih d
    · rw [List.filter_cons_of_pos (by simpa using hl), takeUp_cons, takeUp_cons]
      exact congrArg _ (funext ih)

/-- Lines do what their gist does. -/
theorem unnamed_takeUp (d : PartialConfig) (raws : List (List Char)) :
    (d.takeUp ((raws.map ConfigLine.gist).filter (· ≠ .blank))).mapError LineError.unnamed =
      (d.takeUp (raws.map .ofChars)).mapError .unnamed := by
  rw [takeUp_filter]
  induction raws generalizing d with
  | nil => rfl
  | cons raw raws ih =>
    rw [List.map_cons, List.map_cons, takeUp_cons, takeUp_cons]
    exact mapError_bind_congr (unnamed_addLine d _) ih

/-- But for its place, an error is that of the lines alone. -/
theorem unplaced_addLines (d : PartialConfig) (line : Nat) (raws : List (List Char)) :
    (d.addLines line raws).mapError ConfigError.unplaced =
      ((d.takeUp (raws.map .ofChars)).mapError .unnamed).mapError (LineError.inLine 0) := by
  induction raws generalizing d line with
  | nil => rfl
  | cons raw raws ih =>
    rw [List.map_cons, takeUp_cons, addLines]
    cases d.addLine (.ofChars raw) with
    | ok d' => exact ih d' (line + 1)
    | error e => exact congrArg Except.error (e.unplaced_inLine line)

end PartialConfig

/-- Texts with the same gist are read alike, or refused for the same cause. -/
theorem Config.unplaced_parse_congr {text text' : String}
    (h : Text.gist text.toList = Text.gist text'.toList) :
    (parse text).mapError ConfigError.unplaced = (parse text').mapError .unplaced := by
  have hlines {raws raws' : List (List Char)}
      (h : (raws.map ConfigLine.gist).filter (· ≠ .blank) =
        (raws'.map ConfigLine.gist).filter (· ≠ .blank)) :
      (PartialConfig.empty.takeUp (raws.map .ofChars)).mapError LineError.unnamed =
        (PartialConfig.empty.takeUp (raws'.map .ofChars)).mapError .unnamed := by
    rw [← PartialConfig.unnamed_takeUp, h, PartialConfig.unnamed_takeUp]
  apply mapError_bind_congr
  · rw [PartialConfig.unplaced_addLines, PartialConfig.unplaced_addLines, hlines h]
  · exact fun _ => rfl

end VpnTunnel
