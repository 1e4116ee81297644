import VpnTunnel.Proofs.Text.Trimming

/-!
# Pieces of a text

Cutting a text at its first separator, splitting it at all of them, and comma lists: the items of a
written list are the ones it was written from.
-/

namespace VpnTunnel.Text

theorem cut?_append {sep : Char} {s : List Char} (h : sep ∉ s) (t : List Char) :
    cut? sep (s ++ sep :: t) = some (s, t) := by
  induction s with
  | nil => simp [cut?]
  | cons c r ih =>
    obtain ⟨hc, hr⟩ := List.ne_and_not_mem_of_not_mem_cons h
    rw [List.cons_append, cut?, if_neg (Ne.symm hc), ih hr]
    rfl

theorem cut?_eq_none {sep : Char} {s : List Char} (h : sep ∉ s) : cut? sep s = none := by
  induction s with
  | nil => rfl
  | cons c r ih =>
    obtain ⟨hc, hr⟩ := List.ne_and_not_mem_of_not_mem_cons h
    rw [cut?, if_neg (Ne.symm hc), ih hr]
    rfl

theorem eq_append_of_cut? {sep : Char} {s a b : List Char} (h : cut? sep s = some (a, b)) :
    s = a ++ sep :: b := by
  induction s generalizing a with
  | nil => simp [cut?] at h
  | cons c r ih =>
    rw [cut?] at h
    split at h
    · rename_i hc
      cases h
      rw [hc, List.nil_append]
    · obtain ⟨⟨a', b'⟩, hcut, heq⟩ := Option.map_eq_some_iff.mp h
      cases heq
      rw [List.cons_append, ← ih hcut]

/-- No piece holds the separator, and all its characters come from the text. -/
theorem of_mem_splitOn {sep : Char} {s w : List Char} (h : w ∈ s.splitOn sep) :
    sep ∉ w ∧ ∀ c ∈ w, c ∈ s := by
  induction s generalizing w with
  | nil =>
    rw [List.splitOn_nil, List.mem_singleton] at h
    subst h
    simp
  | cons d r ih =>
    rw [List.splitOn_cons_eq_if_modifyHead] at h
    split at h
    · rcases List.mem_cons.mp h with rfl | h
      · simp
      · exact ⟨(ih h).1, fun c hc => List.mem_cons_of_mem _ ((ih h).2 c hc)⟩
    · rename_i hd
      obtain ⟨p, ps, hp⟩ := List.exists_cons_of_ne_nil (List.splitOn_ne_nil sep r)
      rw [hp, List.modifyHead_cons] at h
      rcases List.mem_cons.mp h with rfl | h
      · have hhead := ih (hp ▸ List.mem_cons_self)
        have hne : sep ≠ d := fun he => hd (by simp [he])
        refine ⟨List.not_mem_cons_of_ne_of_not_mem hne hhead.1, ?_⟩
        intro c hc
        rcases List.mem_cons.mp hc with rfl | hc
        · exact List.mem_cons_self
        · exact List.mem_cons_of_mem _ (hhead.2 c hc)
      · have htail := ih (hp ▸ List.mem_cons_of_mem _ h)
        exact ⟨htail.1, fun c hc => List.mem_cons_of_mem _ (htail.2 c hc)⟩

theorem mem_of_mem_intercalate {c : Char} {sep : List Char} {ws : List (List Char)}
    (h : c ∈ sep.intercalate ws) : c ∈ sep ∨ ∃ w ∈ ws, c ∈ w := by
  induction ws with
  | nil => simp at h
  | cons w ws ih =>
    cases ws with
    | nil =>
      rw [List.intercalate_singleton] at h
      exact .inr ⟨w, List.mem_cons_self, h⟩
    | cons v vs =>
      rw [List.intercalate_cons_cons, List.mem_append, List.mem_append] at h
      rcases h with (h | h) | h
      · exact .inr ⟨w, List.mem_cons_self, h⟩
      · exact .inl h
      · rcases ih h with h | ⟨u, hu, hc⟩
        · exact .inl h
        · exact .inr ⟨u, List.mem_cons_of_mem _ hu, hc⟩

/-- Every character of a text is a separator or stands in a piece. -/
theorem mem_splitOn_of_mem {c : Char} (sep : Char) {s : List Char} (h : c ∈ s) :
    c = sep ∨ ∃ w ∈ s.splitOn sep, c ∈ w := by
  have hjoin : [sep].intercalate (s.splitOn sep) = s := List.intercalate_splitOn sep
  rw [← hjoin] at h
  exact (mem_of_mem_intercalate h).imp_left List.mem_singleton.mp

/-- Lines that each end in a separator are the pieces, with nothing behind the last separator. -/
theorem splitOn_flatMap_append {sep : Char} {ls : List (List Char)} (h : ∀ l ∈ ls, sep ∉ l) :
    (ls.flatMap (· ++ [sep])).splitOn sep = ls ++ [[]] := by
  induction ls with
  | nil => exact List.splitOn_nil sep
  | cons l ls ih =>
    obtain ⟨hl, hls⟩ := List.forall_mem_cons.mp h
    rw [List.flatMap_cons, List.append_assoc, List.singleton_append,
      List.splitOn_append_cons_self_of_not_mem hl, ih hls, List.cons_append]

/-- The pieces of a written list carry the space behind each comma. -/
theorem splitOn_commaJoin {w : List Char} {ws : List (List Char)} (h : ∀ v ∈ w :: ws, ',' ∉ v) :
    (commaJoin (w :: ws)).splitOn ',' = w :: ws.map (' ' :: ·) := by
  induction ws generalizing w with
  | nil =>
    rw [commaJoin, List.intercalate_singleton, List.map_nil]
    exact List.splitOn_eq_singleton (h w List.mem_cons_self)
  | cons v vs ih =>
    obtain ⟨hw, hvs⟩ := List.forall_mem_cons.mp h
    obtain ⟨hv, hrest⟩ := List.forall_mem_cons.mp hvs
    have hjoin : commaJoin (w :: v :: vs) = w ++ ',' :: commaJoin ((' ' :: v) :: vs) := by
      simp only [commaJoin, List.intercalate_cons_cons_left, List.intercalate_cons_cons,
        List.append_assoc, List.cons_append, List.nil_append]
    have hspace : ',' ∉ ' ' :: v := List.not_mem_cons_of_ne_of_not_mem (by decide) hv
    rw [hjoin, List.splitOn_append_cons_self_of_not_mem hw,
      ih (List.forall_mem_cons.mpr ⟨hspace, hrest⟩), List.map_cons]

structure Item (w : List Char) : Prop where
  ne_nil : w ≠ []
  trimmed : trim w = w
  no_comma : ',' ∉ w

theorem Plain.item {w : List Char} (h : Plain w) (hne : w ≠ []) : Item w :=
  ⟨hne, h.trim_eq, h.not_mem (by decide)⟩

/-- A written list is read back. -/
theorem commaItems_commaJoin {ws : List (List Char)} (h : ∀ w ∈ ws, Item w) :
    commaItems (commaJoin ws) = ws := by
  cases ws with
  | nil => rfl
  | cons w ws =>
    have hcomma : ∀ v ∈ w :: ws, ',' ∉ v := fun v hv => (h v hv).no_comma
    have htrim : ∀ v ∈ w :: ws, trim v = v := fun v hv => (h v hv).trimmed
    have hspaced : (ws.map (' ' :: ·)).map trim = ws := by
      rw [List.map_map]
      refine (List.map_congr_left fun v hv => ?_).trans (List.map_id ws)
      exact (trim_cons_blank (by decide) v).trans (htrim v (List.mem_cons_of_mem _ hv))
    rw [commaItems, splitOn_commaJoin hcomma, List.map_cons, hspaced, htrim w List.mem_cons_self,
      List.filter_eq_self]
    intro v hv
    exact decide_eq_true (h v hv).ne_nil

theorem item_of_mem_commaItems {s w : List Char} (h : w ∈ commaItems s) : Item w := by
  obtain ⟨hmem, hne⟩ := List.mem_filter.mp h
  obtain ⟨v, hv, rfl⟩ := List.mem_map.mp hmem
  exact ⟨of_decide_eq_true hne, trim_trim v, fun hc => (of_mem_splitOn hv).1 (mem_of_mem_trim hc)⟩

theorem mem_of_mem_commaItems {c : Char} {s w : List Char} (h : w ∈ commaItems s) (hc : c ∈ w) :
    c ∈ s := by
  obtain ⟨v, hv, rfl⟩ := List.mem_map.mp (List.mem_filter.mp h).1
  exact (of_mem_splitOn hv).2 c (mem_of_mem_trim hc)

theorem mem_commaJoin {c : Char} {ws : List (List Char)} (h : c ∈ commaJoin ws) :
    c = ',' ∨ c = ' ' ∨ ∃ w ∈ ws, c ∈ w := by
  rcases mem_of_mem_intercalate h with h | h
  · simp only [List.mem_cons, List.not_mem_nil, or_false] at h
    exact h.imp_right .inl
  · exact .inr (.inr h)

theorem commaJoin_eq_nil_iff {ws : List (List Char)} (h : ∀ w ∈ ws, w ≠ []) :
    commaJoin ws = [] ↔ ws = [] := by
  cases ws with
  | nil => simp [commaJoin]
  | cons w ws =>
    have hw := h w List.mem_cons_self
    cases ws with
    | nil => simp [commaJoin, hw]
    | cons v vs => simp [commaJoin, List.intercalate_cons_cons]

theorem head_commaJoin {w : List Char} (ws : List (List Char)) (hw : w ≠ []) :
    (commaJoin (w :: ws)).head? = w.head? := by
  obtain ⟨c, r, rfl⟩ := List.exists_cons_of_ne_nil hw
  cases ws with
  | nil => simp [commaJoin]
  | cons v vs => simp [commaJoin, List.intercalate_cons_cons]

theorem getLast_commaJoin {ws : List (List Char)} (h : ∀ w ∈ ws, w ≠ []) :
    ∀ c ∈ (commaJoin ws).getLast?, ∃ w ∈ ws, c ∈ w.getLast? := by
  induction ws with
  | nil => simp [commaJoin]
  | cons w ws ih =>
    intro c hc
    cases ws with
    | nil =>
      rw [commaJoin, List.intercalate_singleton] at hc
      exact ⟨w, List.mem_cons_self, hc⟩
    | cons v vs =>
      have hrest := List.forall_mem_cons.mp h
      have hne : commaJoin (v :: vs) ≠ [] := fun he => by
        cases (commaJoin_eq_nil_iff hrest.2).mp he
      have hlast : (commaJoin (w :: v :: vs)).getLast? = (commaJoin (v :: vs)).getLast? := by
        rw [commaJoin, List.intercalate_cons_cons, List.getLast?_append]
        exact Option.or_of_isSome (List.getLast?_isSome.mpr hne)
      obtain ⟨u, hu, huc⟩ := ih hrest.2 c (hlast ▸ hc)
      exact ⟨u, List.mem_cons_of_mem _ hu, huc⟩

/-- A list of clean items without commas makes a clean value. -/
theorem clean_commaJoin {ws : List (List Char)} (hitem : ∀ w ∈ ws, Item w)
    (hclean : ∀ w ∈ ws, Clean w) : Clean (commaJoin ws) := by
  have hne : ∀ w ∈ ws, w ≠ [] := fun w hw => (hitem w hw).ne_nil
  have hplain {c : Char} (hcomma : c ≠ ',') (hspace : c ≠ ' ') (hno : ∀ w ∈ ws, c ∉ w) :
      c ∉ commaJoin ws := by
    intro hc
    rcases mem_commaJoin hc with h | h | ⟨w, hw, h⟩
    · exact hcomma h
    · exact hspace h
    · exact hno w hw h
  refine ⟨trim_of_ends ?_ ?_, hplain (by decide) (by decide) fun w hw => (hclean w hw).no_comment,
    hplain (by decide) (by decide) fun w hw => (hclean w hw).no_break⟩
  · cases ws with
    | nil => simp [commaJoin]
    | cons w ws =>
      rw [head_commaJoin ws (hne w List.mem_cons_self)]
      exact head_of_trimmed (hitem w List.mem_cons_self).trimmed
  · intro c hc
    obtain ⟨w, hw, hwc⟩ := getLast_commaJoin hne c hc
    exact getLast_of_trimmed (hitem w hw).trimmed c hwc

/-- On either side of a comma the items are found apart. -/
theorem commaItems_append (s t : List Char) :
    commaItems (s ++ ',' :: t) = commaItems s ++ commaItems t := by
  rw [commaItems, List.splitOn_append_cons_self, List.map_append, List.filter_append]
  rfl

theorem commaItems_of_not_mem {s : List Char} (h : ',' ∉ s) :
    commaItems s = [trim s].filter (· ≠ []) := by
  rw [commaItems, List.splitOn_eq_singleton h]
  rfl

theorem commaItems_cons_blank {b : Char} (hb : isBlank b = true) (s : List Char) :
    commaItems (b :: s) = commaItems s := by
  have hcomma : b ≠ ',' := by
    rintro rfl
    revert hb
    decide
  by_cases h : ',' ∈ s
  · obtain ⟨p, r, rfl, hp⟩ := List.eq_append_cons_of_mem h
    rw [← List.cons_append, commaItems_append, commaItems_append, commaItems_of_not_mem hp,
      commaItems_of_not_mem (List.not_mem_cons_of_ne_of_not_mem hcomma.symm hp),
      trim_cons_blank hb]
  · rw [commaItems_of_not_mem h, commaItems_of_not_mem
      (List.not_mem_cons_of_ne_of_not_mem hcomma.symm h), trim_cons_blank hb]

theorem commaItems_append_blank {b : Char} (hb : isBlank b = true) (s : List Char) :
    commaItems (s ++ [b]) = commaItems s := by
  have hcomma : b ≠ ',' := by
    rintro rfl
    revert hb
    decide
  by_cases h : ',' ∈ s
  · -- the first comma leaves a shorter text behind it
    obtain ⟨p, r, rfl, hp⟩ := List.eq_append_cons_of_mem h
    rw [List.append_assoc, List.cons_append, commaItems_append, commaItems_append,
      commaItems_append_blank hb r]
  · have hno : ',' ∉ s ++ [b] := by simp [h, hcomma.symm]
    rw [commaItems_of_not_mem hno, commaItems_of_not_mem h, trim_append_blank hb]
termination_by s.length
decreasing_by simp_all; omega

/-- Blanks around a list do not belong to its items. -/
theorem commaItems_trim (s : List Char) : commaItems (trim s) = commaItems s := by
  have hend (t : List Char) : commaItems (trimEnd t) = commaItems t := by
    induction t using List.reverseRecOn with
    | nil => rfl
    | append_singleton r b ih =>
      cases hb : isBlank b with
      | true => rw [trimEnd_append_blank hb, commaItems_append_blank hb, ih]
      | false => rw [trimEnd_append_of_not_blank hb]
  rw [trim, hend]
  induction s with
  | nil => rfl
  | cons c r ih =>
    cases hc : isBlank c with
    | true =>
      rw [commaItems_cons_blank hc, ← ih, trimStart, List.dropWhile_cons_of_pos hc]
      rfl
    | false => rw [trimStart_of_head (by simp [hc])]

end VpnTunnel.Text
