import VpnTunnel.Proofs.Config.Line

/-!
# Taking up lines

What a text is read as does not depend on the carriage returns before its line feeds, nor on whether
the last line is ended. A run over lines stops at the first one that is refused; what has been taken
up before it does not depend on anything that follows.
-/

namespace VpnTunnel

namespace Text

variable {s blanks : List Char}

theorem takeWhile_append_no_comment (h : '#' ∉ s) (t : List Char) :
    (s ++ t).takeWhile (· ≠ '#') = s ++ t.takeWhile (· ≠ '#') :=
  List.takeWhile_append_of_pos fun _ hc => decide_eq_true fun he => h (he ▸ hc)

theorem takeWhile_before_comment (h : '#' ∉ s) (note : List Char) :
    (s ++ '#' :: note).takeWhile (· ≠ '#') = s := by
  rw [takeWhile_append_no_comment h, List.takeWhile_cons_of_neg (by simp), List.append_nil]

theorem no_comment_of_blanks (h : ∀ c ∈ blanks, isBlank c = true) : '#' ∉ blanks := by
  intro hc
  have hblank : isBlank '#' = true := h '#' hc
  revert hblank
  decide

theorem trim_append_blanks (h : ∀ c ∈ blanks, isBlank c = true) : trim (s ++ blanks) = trim s := by
  induction blanks using List.reverseRecOn with
  | nil => rw [List.append_nil]
  | append_singleton blanks b ih =>
    obtain ⟨hblanks, hb⟩ := List.forall_mem_append.mp h
    rw [← List.append_assoc, trim_append_blank (hb b (List.mem_singleton_self b)), ih hblanks]

/-- Behind a comment a line may hold anything. -/
theorem carried_append_of_comment (h : '#' ∈ s) (t : List Char) : carried (s ++ t) = carried s := by
  obtain ⟨kept, note, rfl, hkept⟩ := List.eq_append_cons_of_mem h
  rw [carried, carried, List.append_assoc, List.cons_append, takeWhile_before_comment hkept,
    takeWhile_before_comment hkept]

theorem carried_append_blanks (h : ∀ c ∈ blanks, isBlank c = true) :
    carried (s ++ blanks) = carried s := by
  by_cases hs : '#' ∈ s
  · exact carried_append_of_comment hs blanks
  · have hno : '#' ∉ s ++ blanks := by simp [hs, no_comment_of_blanks h]
    rw [carried, carried, takeWhile_no_comment hno, takeWhile_no_comment hs, trim_append_blanks h]

theorem isBlank_of_mem_return : ∀ c ∈ ['\r'], isBlank c = true :=
  List.forall_mem_singleton.mpr (by decide)

def dropReturn (s : List Char) : List Char := if s.getLast? = some '\r' then s.dropLast else s

/-- A line carries nothing of a carriage return at its end. -/
theorem carried_dropReturn (s : List Char) : carried (dropReturn s) = carried s := by
  rw [dropReturn]
  split
  · rename_i hlast
    obtain ⟨line, rfl⟩ := List.getLast?_eq_some_iff.mp hlast
    rw [List.dropLast_concat, carried_append_blanks isBlank_of_mem_return]
  · rfl

/-- The lines that the pieces between line feeds stand for. Nothing behind the last line feed is no
line, and a carriage return belongs to the line feed that follows it. -/
def linesOf : List (List Char) → List (List Char)
  | [] => []
  | [rest] => if rest = [] then [] else [rest]
  | piece :: next :: pieces => dropReturn piece :: linesOf (next :: pieces)

/-- The lines of a text. A line ends at a line feed, with or without a carriage return before it,
or at the end of the text. -/
def lines (s : List Char) : List (List Char) := linesOf (s.splitOn '\n')

example : lines "a\r\n\nb\r".toList = ["a".toList, [], "b\r".toList] := by decide

end Text

/-- A line is read as what it carries. -/
theorem ConfigLine.ofChars_congr {raw raw' : List Char}
    (h : Text.carried raw = Text.carried raw') : ofChars raw = ofChars raw' := by
  rw [ofChars, ofChars]
  change Text.trim _ = Text.trim _ at h
  rw [h]

namespace PartialConfig

def takeUp (d : PartialConfig) (ls : List ConfigLine) : Except LineError PartialConfig :=
  ls.foldlM addLine d

variable {d d' : PartialConfig} {before after : List (List Char)} {raw : List Char}
  {e : LineError}

@[simp] theorem takeUp_nil (d : PartialConfig) : d.takeUp [] = .ok d := rfl

theorem takeUp_cons (d : PartialConfig) (l : ConfigLine) (ls : List ConfigLine) :
    d.takeUp (l :: ls) = d.addLine l >>= fun d => d.takeUp ls :=
  List.foldlM_cons

theorem takeUp_append (d : PartialConfig) (ls more : List ConfigLine) :
    d.takeUp (ls ++ more) = d.takeUp ls >>= fun d => d.takeUp more :=
  List.foldlM_append

theorem takeUp_concat (d : PartialConfig) (ls : List ConfigLine) (l : ConfigLine) :
    d.takeUp (ls ++ [l]) = d.takeUp ls >>= fun d => d.addLine l := by
  have hlast (d : PartialConfig) : d.takeUp [l] = d.addLine l := by
    rw [takeUp_cons]
    cases d.addLine l <;> rfl
  simp only [takeUp_append, hlast]

/-- The reading of the lines stops at the one with number `n`, counted from one: those before it
are taken up in turn, and it is refused. -/
def StopsAt (d : PartialConfig) (ls : List (List Char)) (n : Nat) (e : LineError) : Prop :=
  ∃ before raw after d', ls = before ++ raw :: after ∧ n = before.length + 1 ∧
    d.takeUp (before.map .ofChars) = .ok d' ∧ d'.addLine (.ofChars raw) = .error e

/-- Lines that are taken up are left behind; their number is all that remains of them. -/
theorem addLines_append (h : d.takeUp (before.map .ofChars) = .ok d') (line : Nat)
    (rest : List (List Char)) :
    d.addLines line (before ++ rest) = d'.addLines (line + before.length) rest := by
  induction before generalizing d line with
  | nil =>
    cases h
    rfl
  | cons raw before ih =>
    rw [List.map_cons, takeUp_cons] at h
    obtain ⟨d₁, hfirst, hrest⟩ := exists_of_bind_eq_ok h
    rw [List.cons_append, addLines, hfirst, List.length_cons, Nat.add_comm before.length 1,
      ← Nat.add_assoc]
    exact ih hrest (line + 1)

/-- Every run over lines takes all of them up or stops at one of them. -/
theorem takeUp_or_stopsAt (d : PartialConfig) (ls : List (List Char)) :
    (∃ d', d.takeUp (ls.map .ofChars) = .ok d') ∨ ∃ n e, d.StopsAt ls n e := by
  induction ls using List.reverseRecOn with
  | nil => exact .inl ⟨d, rfl⟩
  | append_singleton ls raw ih =>
    rcases ih with ⟨d₁, hall⟩ | ⟨n, e, before, raw', after, d₁, rfl, hn, hbefore, hraw⟩
    · cases hraw : d₁.addLine (.ofChars raw) with
      | ok d₂ =>
        refine .inl ⟨d₂, ?_⟩
        rw [List.map_append, List.map_singleton, takeUp_concat, hall]
        exact hraw
      | error e => exact .inr ⟨_, e, ls, raw, [], d₁, rfl, rfl, hall, hraw⟩
    · exact .inr ⟨n, e, before, raw', after ++ [raw], d₁, by simp, hn, hbefore, hraw⟩

theorem addLines_of_takeUp {ls : List (List Char)} (h : d.takeUp (ls.map .ofChars) = .ok d')
    (line : Nat) : d.addLines line ls = .ok d' := by
  have happend := addLines_append h line []
  rwa [List.append_nil] at happend

/-- What is refused is reported with its number, whatever follows. -/
theorem addLines_of_stopsAt {ls : List (List Char)} {n : Nat} (h : d.StopsAt ls n e) :
    d.addLines 1 ls = .error (e.inLine n) := by
  obtain ⟨before, raw, after, d', rfl, rfl, hbefore, hraw⟩ := h
  rw [addLines_append hbefore, addLines, hraw, Nat.add_comm before.length 1]

/-- Where the reading stops is settled by the lines up to there. -/
theorem StopsAt.of_take_eq {ls ls' : List (List Char)} {n : Nat} (h : d.StopsAt ls n e)
    (htake : ls'.take n = ls.take n) : d.StopsAt ls' n e := by
  obtain ⟨before, raw, after, d', rfl, rfl, hbefore, hraw⟩ := h
  refine ⟨before, raw, ls'.drop (before.length + 1), d', ?_, rfl, hbefore, hraw⟩
  have hfirst : (before ++ raw :: after).take (before.length + 1) = before ++ [raw] := by
    rw [List.take_length_add_append]
    rfl
  rw [← List.take_append_drop (before.length + 1) ls', htake, hfirst]
  simp

/-- A text is read line by line. -/
theorem addLines_linesOf (d : PartialConfig) (line : Nat) (pieces : List (List Char)) :
    d.addLines line (Text.linesOf pieces) = d.addLines line pieces := by
  induction pieces generalizing d line with
  | nil => rfl
  | cons piece pieces ih =>
    cases pieces with
    | nil =>
      rw [Text.linesOf]
      split
      · rename_i hempty
        rw [hempty]
        rfl
      · rfl
    | cons next pieces =>
      rw [Text.linesOf, addLines, addLines,
        ConfigLine.ofChars_congr (Text.carried_dropReturn piece)]
      cases d.addLine (.ofChars piece) with
      | ok d₁ => exact ih d₁ (line + 1)
      | error e => rfl

end PartialConfig

/-- A text is parsed line by line. -/
theorem Config.parse_eq_lines (text : String) : parse text =
    PartialConfig.empty.addLines 1 (Text.lines text.toList) >>= PartialConfig.complete := by
  rw [Text.lines, PartialConfig.addLines_linesOf]
  rfl

end VpnTunnel
