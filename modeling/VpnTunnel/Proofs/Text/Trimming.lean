import Mathlib.Data.List.Induction
import VpnTunnel.Text.Cut

/-!
# Trimming

What trimming leaves of a text, and the texts that it leaves as they are. Plain texts hold no
character that a list or a line gives a meaning to.
-/

namespace VpnTunnel.Text

theorem trimStart_of_head {s : List Char} (h : ∀ c ∈ s.head?, isBlank c = false) :
    trimStart s = s := by
  cases s with
  | nil => rfl
  | cons c r =>
    have hc : isBlank c = false := h c rfl
    rw [trimStart, List.dropWhile_cons_of_neg (by simp [hc])]

theorem head_trimStart (s : List Char) : ∀ c ∈ (trimStart s).head?, isBlank c = false := by
  induction s with
  | nil => simp [trimStart]
  | cons b r ih =>
    cases hb : isBlank b with
    | true => simpa [trimStart, hb] using ih
    | false => simp [trimStart, hb]

theorem trimEnd_eq_reverse (s : List Char) : trimEnd s = (trimStart s.reverse).reverse := rfl

theorem trimEnd_of_getLast {s : List Char} (h : ∀ c ∈ s.getLast?, isBlank c = false) :
    trimEnd s = s := by
  rw [trimEnd_eq_reverse, trimStart_of_head, List.reverse_reverse]
  rwa [List.head?_reverse]

theorem getLast_trimEnd (s : List Char) : ∀ c ∈ (trimEnd s).getLast?, isBlank c = false := by
  rw [trimEnd_eq_reverse, List.getLast?_reverse]
  exact head_trimStart s.reverse

theorem trimStart_suffix (s : List Char) : trimStart s <:+ s := List.dropWhile_suffix _

theorem trimEnd_prefix_self (s : List Char) : trimEnd s <+: s := by
  have h := List.reverse_prefix.mpr (trimStart_suffix s.reverse)
  rwa [List.reverse_reverse] at h

theorem mem_of_mem_trim {c : Char} {s : List Char} (h : c ∈ trim s) : c ∈ s :=
  (trimStart_suffix s).mem ((trimEnd_prefix_self _).mem h)

/-- A text is trimmed when no blank stands at either end. -/
theorem trim_of_ends {s : List Char} (hhead : ∀ c ∈ s.head?, isBlank c = false)
    (hlast : ∀ c ∈ s.getLast?, isBlank c = false) : trim s = s := by
  rw [trim, trimStart_of_head hhead, trimEnd_of_getLast hlast]

theorem head_trim (s : List Char) : ∀ c ∈ (trim s).head?, isBlank c = false := by
  intro c hc
  obtain ⟨r, hr⟩ := trimEnd_prefix_self (trimStart s)
  apply head_trimStart s c
  rw [← hr]
  simp only [List.head?_append, Option.mem_def] at hc ⊢
  rw [show (trimEnd (trimStart s)).head? = some c from hc]
  rfl

theorem getLast_trim (s : List Char) : ∀ c ∈ (trim s).getLast?, isBlank c = false :=
  getLast_trimEnd _

@[simp] theorem trim_trim (s : List Char) : trim (trim s) = trim s :=
  trim_of_ends (head_trim s) (getLast_trim s)

theorem head_of_trimmed {s : List Char} (h : trim s = s) : ∀ c ∈ s.head?, isBlank c = false :=
  h ▸ head_trim s

theorem getLast_of_trimmed {s : List Char} (h : trim s = s) :
    ∀ c ∈ s.getLast?, isBlank c = false :=
  h ▸ getLast_trim s

theorem trim_cons_blank {b : Char} (hb : isBlank b = true) (s : List Char) :
    trim (b :: s) = trim s := by
  rw [trim, trimStart, List.dropWhile_cons_of_pos hb]
  rfl

theorem trimEnd_append_blank {b : Char} (hb : isBlank b = true) (s : List Char) :
    trimEnd (s ++ [b]) = trimEnd s := by
  rw [trimEnd, List.reverse_append, List.reverse_singleton, List.singleton_append,
    List.dropWhile_cons_of_pos hb]
  rfl

/-- Blanks at the end are trimmed. -/
theorem trim_append_blank {b : Char} (hb : isBlank b = true) (s : List Char) :
    trim (s ++ [b]) = trim s := by
  induction s with
  | nil => simp [trim_cons_blank hb]
  | cons c r ih =>
    cases hc : isBlank c with
    | true => rw [List.cons_append, trim_cons_blank hc, trim_cons_blank hc, ih]
    | false =>
      have hstart (t : List Char) : trimStart (c :: t) = c :: t :=
        trimStart_of_head (by simp [hc])
      rw [List.cons_append, trim, trim, hstart, hstart, ← List.cons_append,
        trimEnd_append_blank hb]

theorem trimEnd_append_of_not_blank {b : Char} (hb : isBlank b = false) (s : List Char) :
    trimEnd (s ++ [b]) = s ++ [b] :=
  trimEnd_of_getLast (by simpa using hb)

/-- A text is trimmed to the same without the blanks at its end. -/
theorem trim_trimEnd (s : List Char) : trim (trimEnd s) = trim s := by
  induction s using List.reverseRecOn with
  | nil => rfl
  | append_singleton r b ih =>
    cases hb : isBlank b with
    | true => rw [trimEnd_append_blank hb, trim_append_blank hb, ih]
    | false => rw [trimEnd_append_of_not_blank hb]

/-- Behind a character that is no blank only the blanks at the end go. -/
theorem trimEnd_append_cons {c : Char} (hc : isBlank c = false) (s t : List Char) :
    trimEnd (s ++ c :: t) = s ++ c :: trimEnd t := by
  induction t using List.reverseRecOn with
  | nil => exact trimEnd_append_of_not_blank hc s
  | append_singleton r b ih =>
    have hassoc : s ++ c :: (r ++ [b]) = (s ++ c :: r) ++ [b] := by simp
    cases hb : isBlank b with
    | true => rw [hassoc, trimEnd_append_blank hb, trimEnd_append_blank hb, ih]
    | false =>
      rw [hassoc, trimEnd_append_of_not_blank hb, trimEnd_append_of_not_blank hb, hassoc]

/-- A character without a meaning of its own in lists and lines. -/
def isPlain (c : Char) : Bool := !isBlank c && c != ',' && c != '#'

def Plain (s : List Char) : Prop := ∀ c ∈ s, isPlain c = true

theorem isPlain_iff {c : Char} : isPlain c = true ↔ isBlank c = false ∧ c ≠ ',' ∧ c ≠ '#' := by
  simp [isPlain, and_assoc]

namespace Plain

variable {s t : List Char}

theorem not_mem {c : Char} (h : Plain s) (hc : isPlain c = false) : c ∉ s := by
  intro hmem
  rw [h c hmem] at hc
  cases hc

theorem trim_eq (h : Plain s) : trim s = s := by
  apply trim_of_ends
  · intro c hc
    exact (isPlain_iff.mp (h c (List.mem_of_mem_head? hc))).1
  · intro c hc
    exact (isPlain_iff.mp (h c (List.mem_of_mem_getLast? hc))).1

theorem append (hs : Plain s) (ht : Plain t) : Plain (s ++ t) := by
  intro c hc
  rcases List.mem_append.mp hc with hc | hc
  · exact hs c hc
  · exact ht c hc

theorem cons {c : Char} (hc : isPlain c = true) (hs : Plain s) : Plain (c :: s) := by
  intro d hd
  rcases List.mem_cons.mp hd with rfl | hd
  · exact hc
  · exact hs d hd

end Plain

/-- A text that stands on a line as it is: no blank at its ends, no comment and no line break. -/
structure Clean (s : List Char) : Prop where
  trimmed : trim s = s
  no_comment : '#' ∉ s
  no_break : '\n' ∉ s

theorem Plain.clean {s : List Char} (h : Plain s) : Clean s :=
  ⟨h.trim_eq, h.not_mem (by decide), h.not_mem (by decide)⟩

theorem clean_nil : Clean [] := ⟨rfl, List.not_mem_nil, List.not_mem_nil⟩

/-- What trimming leaves of a part of a line without its comment is clean. -/
theorem clean_trim {s : List Char} (hcomment : '#' ∉ s) (hbreak : '\n' ∉ s) : Clean (trim s) :=
  ⟨trim_trim s, fun h => hcomment (mem_of_mem_trim h), fun h => hbreak (mem_of_mem_trim h)⟩

end VpnTunnel.Text
