import Mathlib.Data.List.TakeWhile
import VpnTunnel.Config.Parse
import VpnTunnel.Config.Render
import VpnTunnel.Proofs.Text.Pieces

/-!
# Lines of a configuration

What a written line is read as, and what can be said of the value of any line that is an entry.
-/

namespace VpnTunnel

open Text (Clean Plain cut? trim trimEnd isPlain isBlank)

theorem exists_of_bind_eq_ok {ε α β : Type} {x : Except ε α} {f : α → Except ε β} {b : β}
    (h : x >>= f = .ok b) : ∃ a, x = .ok a ∧ f a = .ok b := by
  cases x with
  | error e => cases h
  | ok a => exact ⟨a, rfl, h⟩

@[simp] theorem mapError_ok {ε ε' α : Type} (f : ε → ε') (a : α) :
    (Except.ok a : Except ε α).mapError f = .ok a := rfl

@[simp] theorem mapError_error {ε ε' α : Type} (f : ε → ε') (e : ε) :
    (Except.error e : Except ε α).mapError f = .error (f e) := rfl

namespace Text

/-- What a line carries of a value: the part before a comment, without the blanks around it. -/
def carried (s : List Char) : List Char := trim (s.takeWhile (· ≠ '#'))

theorem takeWhile_no_comment {s : List Char} (h : '#' ∉ s) : s.takeWhile (· ≠ '#') = s := by
  rw [List.takeWhile_eq_self_iff]
  exact fun c hc => decide_eq_true fun he => h (he ▸ hc)

theorem no_comment_takeWhile (s : List Char) : '#' ∉ s.takeWhile (· ≠ '#') := by
  intro hc
  have hkept := List.all_eq_true.mp List.all_takeWhile '#' hc
  simp at hkept

/-- What a line carries is clean. -/
theorem clean_carried {s : List Char} (h : '\n' ∉ s) : Clean (carried s) :=
  clean_trim (no_comment_takeWhile s) fun hc => h ((List.takeWhile_prefix _).mem hc)

/-- A line carries a clean text as it is. -/
theorem carried_of_clean {s : List Char} (h : Clean s) : carried s = s := by
  rw [carried, takeWhile_no_comment h.no_comment, h.trimmed]

theorem carried_carried (s : List Char) : carried (carried s) = carried s := by
  have hcomment : '#' ∉ carried s := fun hc => no_comment_takeWhile s (mem_of_mem_trim hc)
  change trim ((carried s).takeWhile (· ≠ '#')) = carried s
  rw [takeWhile_no_comment hcomment]
  exact trim_trim _

end Text

open Text (carried)

structure KeyWord (w : List Char) : Prop where
  ne_nil : w ≠ []
  plain : Plain w
  no_equals : '=' ∉ w
  no_bracket : '[' ∉ w

theorem keyWord_of_all {w : List Char} (hne : w ≠ [])
    (h : (w.all fun c => isPlain c && c != '=' && c != '[') = true) : KeyWord w := by
  have hall : ∀ c ∈ w, (isPlain c = true ∧ c ≠ '=') ∧ c ≠ '[' := by simpa using h
  refine ⟨hne, fun c hc => (hall c hc).1.1, ?_, ?_⟩
  · intro hc
    exact (hall _ hc).1.2 rfl
  · intro hc
    exact (hall _ hc).2 rfl

theorem InterfaceKey.keyWord (k : InterfaceKey) : KeyWord k.name.toList := by
  cases k <;> exact keyWord_of_all (by decide) (by decide)

theorem PeerKey.keyWord (k : PeerKey) : KeyWord k.name.toList := by
  cases k <;> exact keyWord_of_all (by decide) (by decide)

/-- A key is read back from its name. -/
theorem InterfaceKey.ofChars?_name (k : InterfaceKey) : ofChars? k.name.toList = some k := by
  cases k <;> decide

theorem PeerKey.ofChars?_name (k : PeerKey) : ofChars? k.name.toList = some k := by
  cases k <;> decide

namespace KeyWord

variable {w : List Char}

theorem head (h : KeyWord w) : ∀ c ∈ w.head?, isBlank c = false ∧ c ≠ '[' := by
  intro c hc
  have hmem := List.mem_of_mem_head? hc
  refine ⟨(Text.isPlain_iff.mp (h.plain c hmem)).1, ?_⟩
  rintro rfl
  exact h.no_bracket hmem

theorem head_append (h : KeyWord w) (s : List Char) :
    ∀ c ∈ (w ++ s).head?, isBlank c = false ∧ c ≠ '[' := by
  rw [List.head?_append, Option.or_of_isSome (List.isSome_head?.mpr h.ne_nil)]
  exact h.head

end KeyWord

namespace ConfigLine

/-- A line with an equals sign that does not begin with a bracket is an entry. -/
theorem ofChars_eq_entry {raw s key value : List Char} (hs : trim (raw.takeWhile (· ≠ '#')) = s)
    (hhead : '[' ∉ s.head?) (hcut : cut? '=' s = some (key, value)) :
    ofChars raw = entry (trim key) (trim value) := by
  rw [ofChars, hs]
  split
  · cases hcut
  · exact absurd rfl hhead
  · rw [hcut]

/-- The line that sets a key is read as the entry with what the line carries of the value. -/
theorem ofChars_entryLine_eq {name : String} (hname : KeyWord name.toList)
    (value : List Char) : ofChars (entryLine name value) = entry name.toList (carried value) := by
  let kept := value.takeWhile (· ≠ '#')
  have hcomment : ∀ c ∈ name.toList ++ [' ', '=', ' '], c ≠ '#' := by
    have hno := hname.plain.not_mem (show isPlain '#' = false by decide)
    rintro c hc rfl
    simp [hno] at hc
  have hline : trim ((entryLine name value).takeWhile (· ≠ '#')) =
      name.toList ++ [' '] ++ '=' :: trimEnd (' ' :: kept) := by
    have hkept : (entryLine name value).takeWhile (· ≠ '#') =
        name.toList ++ [' '] ++ '=' :: ' ' :: kept := by
      rw [entryLine, List.takeWhile_append_of_pos (by simpa using hcomment)]
      simp [kept]
    have hstart : ∀ c ∈ (name.toList ++ [' '] ++ '=' :: ' ' :: kept).head?, isBlank c = false := by
      rw [List.append_assoc]
      exact fun c hc => (hname.head_append _ c hc).1
    rw [hkept, trim, Text.trimStart_of_head hstart, Text.trimEnd_append_cons (by decide)]
  have hcut := Text.cut?_append (show '=' ∉ name.toList ++ [' '] by simp [hname.no_equals])
    (trimEnd (' ' :: kept))
  rw [ofChars_eq_entry hline ?_ hcut, Text.trim_append_blank (by decide), hname.plain.trim_eq,
    Text.trim_trimEnd, Text.trim_cons_blank (by decide)]
  · rfl
  · intro hc
    rw [List.append_assoc] at hc
    exact (hname.head_append _ _ hc).2 rfl

/-- A written entry is read as one, with its key and its value. -/
theorem ofChars_entryLine {name : String} {value : List Char} (hname : KeyWord name.toList)
    (hvalue : Clean value) : ofChars (entryLine name value) = entry name.toList value := by
  rw [ofChars_entryLine_eq hname, Text.carried_of_clean hvalue]

/-- The value of an entry is clean, whatever the line was. -/
theorem clean_of_ofChars {raw key value : List Char} (hbreak : '\n' ∉ raw)
    (h : ofChars raw = entry key value) : Clean value := by
  have hmem : ∀ c ∈ trim (raw.takeWhile (· ≠ '#')), c ≠ '#' ∧ c ≠ '\n' := by
    intro c hc
    have hline := Text.mem_of_mem_trim hc
    constructor
    · rintro rfl
      exact Text.no_comment_takeWhile raw hline
    · rintro rfl
      exact hbreak ((List.takeWhile_prefix _).mem hline)
  rw [ofChars] at h
  split at h
  · cases h
  · cases h
  · split at h
    · rename_i k v hcut
      cases h
      have happend := Text.eq_append_of_cut? hcut
      have hv : ∀ c ∈ v, c ≠ '#' ∧ c ≠ '\n' := fun c hc =>
        hmem c (happend ▸ List.mem_append_right _ (List.mem_cons_of_mem _ hc))
      exact Text.clean_trim (fun hc => (hv _ hc).1 rfl) (fun hc => (hv _ hc).2 rfl)
    · cases h

theorem ofChars_interfaceHeader : ofChars interfaceHeader = header interfaceHeader := by decide

theorem ofChars_peerHeader : ofChars peerHeader = header peerHeader := by decide

end ConfigLine

end VpnTunnel
