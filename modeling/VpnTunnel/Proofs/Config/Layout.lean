import Mathlib.Logic.Relation
import VpnTunnel.Proofs.Config.Gist

/-!
# Layout

Comments, lines that say nothing, carriage returns, blanks around what a line says and the case of
headers and keys are layout. An edit of the layout keeps the gist of a text, so the text is read as
before.
-/

namespace VpnTunnel

namespace Text

variable {s k blanks : List Char}

theorem carried_append_comment (s note : List Char) : carried (s ++ '#' :: note) = carried s := by
  by_cases hs : '#' ∈ s
  · exact carried_append_of_comment hs ('#' :: note)
  · rw [carried, carried, takeWhile_before_comment hs, takeWhile_no_comment hs]

theorem trim_blanks_append (h : ∀ c ∈ blanks, isBlank c = true) (s : List Char) :
    trim (blanks ++ s) = trim s := by
  induction blanks with
  | nil => rfl
  | cons b blanks ih =>
    obtain ⟨hb, hblanks⟩ := List.forall_mem_cons.mp h
    rw [List.cons_append, trim_cons_blank hb, ih hblanks]

theorem carried_blanks_append (h : ∀ c ∈ blanks, isBlank c = true) (s : List Char) :
    carried (blanks ++ s) = carried s := by
  rw [carried, carried, takeWhile_append_no_comment (no_comment_of_blanks h),
    trim_blanks_append h]

theorem trim_trimStart (s : List Char) : trim (trimStart s) = trim s := by
  rw [trim, trimStart_of_head (head_trimStart s)]
  rfl

theorem head?_trim (s : List Char) : (trim s).head? = (trimStart s).head? := by
  rw [trim]
  cases hs : trimStart s with
  | nil => rfl
  | cons c r =>
    have hc : isBlank c = false := head_trimStart s c (by rw [hs]; rfl)
    rw [← List.nil_append (c :: r), trimEnd_append_cons hc]
    rfl

theorem trim_append_equals (k w : List Char) :
    trim (k ++ '=' :: w) = trimStart k ++ '=' :: trimEnd w := by
  rw [trim]
  induction k with
  | nil =>
    rw [List.nil_append, trimStart_of_head (by simp; decide)]
    exact trimEnd_append_cons (by decide) [] w
  | cons c k ih =>
    cases hc : isBlank c with
    | true =>
      rw [trimStart, trimStart, List.cons_append, List.dropWhile_cons_of_pos hc,
        List.dropWhile_cons_of_pos hc]
      exact ih
    | false =>
      have hhead (t : List Char) : trimStart (c :: t) = c :: t := trimStart_of_head (by simp [hc])
      rw [List.cons_append, hhead, hhead, ← List.cons_append, trimEnd_append_cons (by decide)]

theorem carried_equals (hcomment : '#' ∉ k) (v : List Char) :
    carried (k ++ '=' :: v) = trimStart k ++ '=' :: trimEnd (v.takeWhile (· ≠ '#')) := by
  rw [carried, takeWhile_append_no_comment hcomment, List.takeWhile_cons_of_pos (by decide),
    trim_append_equals]

theorem foldAscii_carried (s : List Char) : foldAscii (carried s) = carried (foldAscii s) := by
  have hsign : (fun c => decide (c ≠ '#')) ∘ Char.toLower = fun c => decide (c ≠ '#') := by
    funext c
    simp [toLower_eq_iff (show IsSign '#' by decide)]
  rw [carried, carried, foldAscii_trim, foldAscii, foldAscii, List.takeWhile_map, hsign]

end Text

open Text (carried isBlank sameWord foldAscii trim trimStart)

namespace ConfigLine

variable {raw raw' k k' : List Char}

/-- The gist of a line depends on what the line carries. -/
theorem gist_congr (h : carried raw = carried raw') : gist raw = gist raw' := by
  rw [gist, gist, ofChars_congr h]

theorem ofChars_of_carried_eq_nil (h : carried raw = []) : ofChars raw = blank := by
  rw [carried] at h
  rw [ofChars, h]

theorem ofChars_of_bracket (h : (carried raw).head? = some '[') :
    ofChars raw = header (carried raw) := by
  obtain ⟨r, hr⟩ := List.head?_eq_some_iff.mp h
  rw [hr]
  rw [carried] at hr
  rw [ofChars, hr]
  rfl

theorem ofChars_of_no_equals (hne : carried raw ≠ []) (hhead : (carried raw).head? ≠ some '[')
    (hno : '=' ∉ carried raw) : ofChars raw = stray := by
  rw [carried] at hne hhead hno
  rw [ofChars]
  split
  · rename_i hnil
    exact absurd hnil hne
  · rename_i hbracket
    exact absurd (by rw [hbracket]; rfl) hhead
  · rw [Text.cut?_eq_none hno]

theorem respelled_header_congr {text text' : List Char} (h : sameWord text text' = true) :
    (header text).respelled = (header text').respelled := by
  simp only [respelled, Text.sameWord_congr h]

/-- A header with an equals sign begins no section. -/
theorem respelled_header_of_equals {text : List Char} (h : '=' ∈ text) :
    (header text).respelled = header [] := by
  have hno {w : List Char} (hw : '=' ∉ w) : sameWord text w = false := by
    rw [Bool.eq_false_iff]
    exact fun hsame => hw ((Text.mem_iff_of_sameWord hsame (by decide)).mp h)
  rw [respelled, hno (by decide), hno (by decide)]
  rfl

/-- A line that is no entry says the same in any case. -/
theorem gist_congr_of_sameWord (h : sameWord raw raw' = true)
    (hno : (carried raw).head? = some '[' ∨ '=' ∉ carried raw) : gist raw = gist raw' := by
  have hfold : foldAscii (carried raw) = foldAscii (carried raw') := by
    rw [Text.foldAscii_carried, Text.foldAscii_carried, Text.sameWord_iff.mp h]
  have hhead : (carried raw).head? = some '[' ↔ (carried raw').head? = some '[' := by
    rw [← Text.head?_foldAscii_eq_iff (by decide), hfold, Text.head?_foldAscii_eq_iff (by decide)]
  have hequals : '=' ∈ carried raw ↔ '=' ∈ carried raw' :=
    Text.mem_iff_of_sameWord (Text.sameWord_iff.mpr hfold) (by decide)
  have hnil : carried raw = [] ↔ carried raw' = [] := by
    have hlength : (carried raw).length = (carried raw').length := by
      simpa [foldAscii] using congrArg List.length hfold
    rw [← List.length_eq_zero_iff, hlength, List.length_eq_zero_iff]
  by_cases hblank : carried raw = []
  · rw [gist, gist, ofChars_of_carried_eq_nil hblank, ofChars_of_carried_eq_nil (hnil.mp hblank)]
  · by_cases hbracket : (carried raw).head? = some '['
    · rw [gist, gist, ofChars_of_bracket hbracket, ofChars_of_bracket (hhead.mp hbracket)]
      exact respelled_header_congr (Text.sameWord_iff.mpr hfold)
    · have hstray := hno.resolve_left hbracket
      rw [gist, gist, ofChars_of_no_equals hblank hbracket hstray,
        ofChars_of_no_equals (mt hnil.mpr hblank) (mt hhead.mpr hbracket) (mt hequals.mpr hstray)]

/-- What a line with an equals sign says, if the sign is not in a comment. -/
theorem gist_equals (hk : '=' ∉ k) (hcomment : '#' ∉ k) (v : List Char) :
    gist (k ++ '=' :: v) =
      if (foldAscii (trim k)).head? = some '[' then header []
      else entry (foldAscii (trim k)) (carried v) := by
  have hline := Text.carried_equals hcomment v
  have hstart : '=' ∉ trimStart k := fun h => hk ((Text.trimStart_suffix k).mem h)
  have hhead : (carried (k ++ '=' :: v)).head? = some '[' ↔
      (foldAscii (trim k)).head? = some '[' := by
    rw [Text.head?_foldAscii_eq_iff (by decide), Text.head?_trim, hline]
    cases trimStart k <;> simp
  split
  · rename_i hbracket
    rw [gist, ofChars_of_bracket (hhead.mpr hbracket)]
    exact respelled_header_of_equals (by rw [hline]; simp)
  · rename_i hbracket
    have hentry := ofChars_eq_entry hline (hline ▸ mt hhead.mp hbracket)
      (Text.cut?_append hstart _)
    rw [gist, hentry, Text.trim_trimStart, Text.trim_trimEnd]
    rfl

end ConfigLine

def Spacing (s : List Char) : Prop := ∀ c ∈ s, isBlank c = true ∧ c ≠ '\n'

/-- One edit of the layout of a line. -/
inductive LineEdit : List Char → List Char → Prop
  /-- A comment is appended. -/
  | comment (line : List Char) {note : List Char} (hnote : '\n' ∉ note) :
    LineEdit line (line ++ '#' :: note)
  /-- Blanks are added at the ends. -/
  | ends (line : List Char) {before after : List Char} (hbefore : Spacing before)
    (hafter : Spacing after) : LineEdit line (before ++ line ++ after)
  /-- Blanks are added around the first equals sign. -/
  | equals {key value before after : List Char} (hkey : '=' ∉ key) (hbefore : Spacing before)
    (hafter : Spacing after) :
    LineEdit (key ++ '=' :: value) (key ++ before ++ '=' :: (after ++ value))
  /-- What stands before the first equals sign changes its case. -/
  | keyCase {key key' : List Char} (hkey : '=' ∉ key) (hsame : sameWord key key' = true)
    (value : List Char) : LineEdit (key ++ '=' :: value) (key' ++ '=' :: value)
  /-- A header changes its case. -/
  | headerCase {line line' : List Char} (hheader : (carried line).head? = some '[')
    (hsame : sameWord line line' = true) : LineEdit line line'

def BeginsLine (before : List Char) : Prop := before = [] ∨ before.getLast? = some '\n'

def EndsLine (after : List Char) : Prop :=
  after = [] ∨ ['\n'] <+: after ∨ ['\r', '\n'] <+: after

/-- One edit of the layout of a text. -/
inductive LayoutEdit : List Char → List Char → Prop
  /-- A line is edited. -/
  | line {before line line' after : List Char} (hbefore : BeginsLine before)
    (hafter : EndsLine after) (hline : '\n' ∉ line) (hedit : LineEdit line line') :
    LayoutEdit (before ++ (line ++ after)) (before ++ (line' ++ after))
  /-- A line feed is replaced by a carriage return and a line feed. -/
  | carriageReturn (before after : List Char) :
    LayoutEdit (before ++ '\n' :: after) (before ++ '\r' :: '\n' :: after)
  /-- A line that carries nothing is inserted before another one. -/
  | insert {before blank : List Char} (hbefore : BeginsLine before) (hblank : carried blank = [])
    (hbreak : '\n' ∉ blank) (after : List Char) :
    LayoutEdit (before ++ after) (before ++ (blank ++ '\n' :: after))
  /-- A line that carries nothing is added behind the last one. -/
  | append (before : List Char) {blank : List Char} (hblank : carried blank = [])
    (hbreak : '\n' ∉ blank) : LayoutEdit before (before ++ '\n' :: blank)

namespace Spacing

variable {s : List Char}

theorem blanks (h : Spacing s) : ∀ c ∈ s, isBlank c = true := fun c hc => (h c hc).1

theorem no_break (h : Spacing s) : '\n' ∉ s := fun hc => (h '\n' hc).2 rfl

theorem not_mem {c : Char} (h : Spacing s) (hc : isBlank c = false) : c ∉ s := by
  intro hmem
  rw [h.blanks c hmem] at hc
  cases hc

end Spacing

namespace LineEdit

open ConfigLine (gist gist_congr gist_equals gist_congr_of_sameWord)

variable {line line' : List Char}

/-- An edited line says the same. -/
theorem gist_eq (h : LineEdit line line') : gist line = gist line' := by
  cases h with
  | comment _ _ => exact gist_congr (Text.carried_append_comment _ _).symm
  | ends _ hbefore hafter =>
    apply gist_congr
    rw [Text.carried_append_blanks hafter.blanks, Text.carried_blanks_append hbefore.blanks]
  | @equals key value before after hkey hbefore hafter =>
    by_cases hcomment : '#' ∈ key
    · apply gist_congr
      rw [List.append_assoc, Text.carried_append_of_comment hcomment,
        Text.carried_append_of_comment hcomment]
    · have hkey' : '=' ∉ key ++ before :=
        List.not_mem_append hkey (hbefore.not_mem (by decide))
      have hcomment' : '#' ∉ key ++ before :=
        List.not_mem_append hcomment (hbefore.not_mem (by decide))
      rw [gist_equals hkey hcomment, gist_equals hkey' hcomment',
        Text.trim_append_blanks hbefore.blanks, Text.carried_blanks_append hafter.blanks]
  | @keyCase key key' hkey hsame value =>
    have hfold := Text.sameWord_iff.mp hsame
    have hcommentSign : '#' ∈ key ↔ '#' ∈ key' := Text.mem_iff_of_sameWord hsame (by decide)
    have hequalsSign : '=' ∈ key ↔ '=' ∈ key' := Text.mem_iff_of_sameWord hsame (by decide)
    by_cases hcomment : '#' ∈ key
    · rw [gist_congr (Text.carried_append_of_comment hcomment _),
        gist_congr (Text.carried_append_of_comment (hcommentSign.mp hcomment) _)]
      refine gist_congr_of_sameWord hsame (.inr fun h => hkey ?_)
      exact (List.takeWhile_prefix _).mem (Text.mem_of_mem_trim h)
    · rw [gist_equals hkey hcomment, gist_equals (mt hequalsSign.mpr hkey)
        (mt hcommentSign.mpr hcomment), Text.foldAscii_trim, Text.foldAscii_trim, hfold]
  | headerCase hheader hsame => exact gist_congr_of_sameWord hsame (.inl hheader)

/-- An edited line is still one line. -/
theorem no_break (h : LineEdit line line') (hline : '\n' ∉ line) : '\n' ∉ line' := by
  have hsame {s t : List Char} (h : sameWord s t = true) (hs : '\n' ∉ s) : '\n' ∉ t :=
    mt (Text.mem_iff_of_sameWord h (by decide)).mpr hs
  cases h with
  | comment _ hnote => simp [hline, hnote]
  | ends _ hbefore hafter => simp [hline, hbefore.no_break, hafter.no_break]
  | equals _ hbefore hafter => simpa [hbefore.no_break, hafter.no_break] using hline
  | keyCase _ hkey _ =>
    simp only [List.mem_append, List.mem_cons, not_or] at hline ⊢
    exact ⟨hsame hkey hline.1, hline.2⟩
  | headerCase _ h => exact hsame h hline

end LineEdit

namespace Text

variable {before after line blank s s' : List Char}

/-- A text says what its parts say, one after the other. -/
theorem gist_append (s t : List Char) : gist (s ++ '\n' :: t) = gist s ++ gist t := by
  rw [gist, List.splitOn_append_cons_self, List.map_append, List.filter_append]
  rfl

theorem gist_line (h : '\n' ∉ line) :
    gist line = [ConfigLine.gist line].filter (· ≠ .blank) := by
  rw [gist, List.splitOn_eq_singleton h, List.map_singleton]

theorem gist_congr (hline : '\n' ∉ line) (hs : '\n' ∉ s)
    (h : ConfigLine.gist line = ConfigLine.gist s) : gist line = gist s := by
  rw [gist_line hline, gist_line hs, h]

theorem gist_of_carried_eq_nil (h : carried blank = []) (hbreak : '\n' ∉ blank) :
    gist blank = [] := by
  rw [gist_line hbreak, ConfigLine.gist, ConfigLine.ofChars_of_carried_eq_nil h]
  rfl

/-- A carriage return at the end of a line does not matter. -/
theorem gist_return (h : '\n' ∉ line) : gist (line ++ ['\r']) = gist line := by
  apply gist_congr (List.not_mem_append h (by decide)) h
  exact ConfigLine.gist_congr (carried_append_blanks isBlank_of_mem_return)

/-- Behind the last line feed a line has begun. -/
theorem exists_last_line (s : List Char) :
    ∃ before line, s = before ++ line ∧ BeginsLine before ∧ '\n' ∉ line := by
  induction s using List.reverseRecOn with
  | nil => exact ⟨[], [], rfl, .inl rfl, List.not_mem_nil⟩
  | append_singleton s c ih =>
    obtain ⟨before, line, rfl, hbefore, hline⟩ := ih
    by_cases hc : c = '\n'
    · exact ⟨before ++ line ++ [c], [], by simp, .inr (by simp [hc]), List.not_mem_nil⟩
    · refine ⟨before, line ++ [c], List.append_assoc _ _ _, hbefore, ?_⟩
      exact List.not_mem_append hline (by simpa using Ne.symm hc)

/-- What a line and those behind it say stands behind what those before it say. -/
theorem gist_behind (h : BeginsLine before) (s : List Char) :
    gist (before ++ s) = gist before ++ gist s := by
  rcases h with rfl | hlast
  · rfl
  · obtain ⟨front, rfl⟩ := List.getLast?_eq_some_iff.mp hlast
    have hnil : gist [] = [] := rfl
    rw [List.append_assoc, List.singleton_append, gist_append, gist_append, hnil, List.append_nil]

theorem gist_before (h : EndsLine after) : ∃ rest, ∀ line, '\n' ∉ line →
    gist (line ++ after) = gist line ++ rest := by
  rcases h with rfl | ⟨rest, rfl⟩ | ⟨rest, rfl⟩
  · exact ⟨[], fun line _ => by rw [List.append_nil, List.append_nil]⟩
  · exact ⟨gist rest, fun line _ => gist_append line rest⟩
  · refine ⟨gist rest, fun line hline => ?_⟩
    rw [← gist_return hline, ← gist_append, List.append_assoc]
    rfl

/-- An edit of the layout keeps what a text says. -/
theorem gist_of_layoutEdit (h : LayoutEdit s s') : gist s = gist s' := by
  cases h with
  | line hbefore hafter hline hedit =>
    obtain ⟨rest, hrest⟩ := gist_before hafter
    have hline' := hedit.no_break hline
    rw [gist_behind hbefore, gist_behind hbefore, hrest _ hline, hrest _ hline',
      gist_congr hline hline' hedit.gist_eq]
  | carriageReturn before after =>
    obtain ⟨front, line, rfl, hfront, hline⟩ := exists_last_line before
    have hsplit : front ++ line ++ '\r' :: '\n' :: after =
        front ++ (line ++ ['\r'] ++ '\n' :: after) := by simp
    rw [hsplit, List.append_assoc, gist_behind hfront, gist_behind hfront, gist_append,
      gist_append, gist_return hline]
  | insert hbefore hblank hbreak after =>
    rw [gist_behind hbefore, gist_behind hbefore, gist_append,
      gist_of_carried_eq_nil hblank hbreak, List.nil_append]
  | append before hblank hbreak =>
    rw [gist_append, gist_of_carried_eq_nil hblank hbreak, List.append_nil]

/-- Edits of the layout leave the gist of a text, however many. -/
theorem gist_of_layoutEdits (h : Relation.ReflTransGen LayoutEdit s s') : gist s = gist s' := by
  induction h with
  | refl => rfl
  | tail _ hedit ih => exact ih.trans (gist_of_layoutEdit hedit)

end Text

/-- However often the layout of a text is edited, it is read as before. Where it is refused, it is
refused for the same cause; only the number of the line may differ and the spelling of a header or a
key. -/
theorem Config.parse_of_layoutEdits {text text' : String}
    (h : Relation.ReflTransGen LayoutEdit text.toList text'.toList) :
    (parse text').mapError ConfigError.unplaced = (parse text).mapError .unplaced :=
  unplaced_parse_congr (Text.gist_of_layoutEdits h).symm

/-- A text whose only line with an entry is refused, with a header in small letters, a carriage
return and a comment added. -/
theorem Config.parse_of_layoutEdits_unknown_key :
    Relation.ReflTransGen LayoutEdit "[Peer]\nMTU=9".toList "[peer]\r\nMTU=9# x".toList ∧
      (parse "[peer]\r\nMTU=9# x").mapError ConfigError.unplaced =
        (parse "[Peer]\nMTU=9").mapError .unplaced := by
  have hheader : LayoutEdit "[Peer]\nMTU=9".toList "[peer]\nMTU=9".toList :=
    @LayoutEdit.line [] "[Peer]".toList "[peer]".toList "\nMTU=9".toList (.inl rfl)
      (.inr (.inl (by decide))) (by decide) (.headerCase (by decide) (by decide))
  have hreturn : LayoutEdit "[peer]\nMTU=9".toList "[peer]\r\nMTU=9".toList :=
    .carriageReturn "[peer]".toList "MTU=9".toList
  have hcomment : LayoutEdit "[peer]\r\nMTU=9".toList "[peer]\r\nMTU=9# x".toList :=
    @LayoutEdit.line "[peer]\r\n".toList "MTU=9".toList "MTU=9# x".toList [] (.inr (by decide))
      (.inl rfl) (by decide) (@LineEdit.comment "MTU=9".toList " x".toList (by decide))
  have hedits := ((Relation.ReflTransGen.single hheader).tail hreturn).tail hcomment
  exact ⟨hedits, parse_of_layoutEdits hedits⟩

end VpnTunnel
