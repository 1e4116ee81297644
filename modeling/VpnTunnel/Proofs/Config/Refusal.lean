import VpnTunnel.Proofs.Config.Meaning

/-!
# Refused texts

A text is refused at its first line that does not fit, whatever follows. Only if every line fits is
it looked at as a whole, and then the first thing that its outline lacks is the error.
-/

namespace VpnTunnel

namespace PartialConfig

variable {ls : List (List Char)} {n : Nat}

/-- The reading stops at a line if the lines before it all fit, and do so no longer with it. -/
theorem exists_stopsAt_iff (hn : 1 ≤ n) : (∃ e, empty.StopsAt ls n e) ↔
    AllFit ((ls.take (n - 1)).map .ofChars) ∧ ¬AllFit ((ls.take n).map .ofChars) := by
  constructor
  · rintro ⟨e, before, raw, after, d, rfl, rfl, hbefore, hraw⟩
    have hfirst : (before ++ raw :: after).take (before.length + 1) = before ++ [raw] := by
      rw [List.take_length_add_append]
      rfl
    rw [Nat.add_sub_cancel, List.take_left, hfirst]
    refine ⟨(of_takeUp hbefore).1, fun hfit => ?_⟩
    obtain ⟨d', hd'⟩ := exists_takeUp_iff.mpr hfit
    rw [List.map_append, List.map_singleton, takeUp_concat, hbefore] at hd'
    cases hraw.symm.trans hd'
  · rintro ⟨hbefore, hline⟩
    obtain ⟨d, hd⟩ := exists_takeUp_iff.mpr hbefore
    have hlength : n - 1 < ls.length := by
      by_contra hlong
      rw [List.take_of_length_le (by omega)] at hbefore hline
      exact hline hbefore
    have htake : ls.take n = ls.take (n - 1) ++ [ls[n - 1]] := by
      rw [List.take_append_getElem hlength, Nat.sub_add_cancel hn]
    cases hraw : d.addLine (.ofChars ls[n - 1]) with
    | ok d' =>
      refine absurd (exists_takeUp_iff.mp ⟨d', ?_⟩) hline
      rw [htake, List.map_append, List.map_singleton, takeUp_concat, hd]
      exact hraw
    | error e =>
      refine ⟨e, ls.take (n - 1), ls[n - 1], ls.drop n, d, ?_, ?_, hd, hraw⟩
      · conv_lhs => rw [← List.take_append_drop n ls, htake]
        rw [List.append_assoc, List.singleton_append]
      · rw [List.length_take]
        omega

theorem StopsAt.pos {d : PartialConfig} {e : LineError} (h : d.StopsAt ls n e) : 1 ≤ n := by
  obtain ⟨before, _, _, _, _, rfl, _, _⟩ := h
  exact Nat.le_add_left 1 before.length

end PartialConfig

namespace Config

open PartialConfig (empty)

/-- A text is refused for the line that the reading stops at, or else for what its outline lacks. -/
theorem parse_eq_error_iff_stops_or_lacks {text : String} {err : ConfigError} :
    parse text = .error err ↔
      (∃ n e, empty.StopsAt (Text.lines text.toList) n e ∧ err = e.inLine n) ∨
        AllFit (classified text) ∧ (Outline.ofLines (classified text)).Lacks err := by
  constructor
  · intro h
    rcases empty.takeUp_or_stopsAt (Text.lines text.toList) with ⟨d, hd⟩ | ⟨n, e, hstop⟩
    · obtain ⟨hfit, hgathers⟩ := PartialConfig.of_takeUp hd
      rw [parse_of_takeUp hd] at h
      exact .inr ⟨hfit, (PartialConfig.complete_eq_error_iff hgathers).mp h⟩
    · rw [parse_of_stopsAt hstop] at h
      cases h
      exact .inl ⟨n, e, hstop, rfl⟩
  · rintro (⟨n, e, hstop, rfl⟩ | ⟨hfit, hlacks⟩)
    · exact parse_of_stopsAt hstop
    · obtain ⟨d, hd⟩ := PartialConfig.exists_takeUp_iff.mpr hfit
      rw [parse_of_takeUp hd]
      exact (PartialConfig.complete_eq_error_iff (PartialConfig.of_takeUp hd).2).mpr hlacks

/-- What an outline lacks is not reported for a line. -/
theorem ne_inLine_of_lacks {o : Outline} {err : ConfigError} (h : o.Lacks err) (e : LineError)
    {n : Nat} (hn : 1 ≤ n) : err ≠ e.inLine n := by
  have hinterface {v : InterfaceValues} {err : ConfigError} (hv : v.Lacks err) :
      err ≠ e.inLine n := by
    cases hv <;> cases e <;> simp [LineError.inLine]
    omega
  cases h with
  | interface => cases e <;> simp [LineError.inLine]; omega
  | ofInterface _ hv => exact hinterface hv
  | ofPeer _ _ _ _ hp => cases hp <;> cases e <;> simp [LineError.inLine]

/-- Reading is fail-fast. It stops at line `n` just if the lines before fit and this one does not;
that line is then blamed in every text which begins with the same `n` lines. The errors of lines are
the ones with a positive line, and those of keys; all others arise only if every line fits, and they
name the first thing that the outline lacks. -/
theorem parse_stops_or_lacks (text : String) :
    (∀ n, 1 ≤ n → ((∃ e, empty.StopsAt (Text.lines text.toList) n e) ↔
      AllFit ((classified text).take (n - 1)) ∧ ¬AllFit ((classified text).take n))) ∧
    (∀ n e, empty.StopsAt (Text.lines text.toList) n e → 1 ≤ n ∧ ∀ text' : String,
      (Text.lines text'.toList).take n = (Text.lines text.toList).take n →
        parse text' = .error (e.inLine n)) ∧
    (∀ n fault, 1 ≤ n → (parse text = .error (.parse n fault) ↔
      empty.StopsAt (Text.lines text.toList) n (.fault fault))) ∧
    (∀ cause, parse text = .error (.badKey cause) ↔
      ∃ n, empty.StopsAt (Text.lines text.toList) n (.key cause)) ∧
    ∀ err, (∀ n e, 1 ≤ n → err ≠ LineError.inLine n e) → (parse text = .error err ↔
      AllFit (classified text) ∧ (Outline.ofLines (classified text)).Lacks err) := by
  refine ⟨?_, ?_, ?_, ?_, ?_⟩
  · intro n hn
    simp only [classified, ← List.map_take]
    exact PartialConfig.exists_stopsAt_iff hn
  · intro n e hstop
    exact ⟨hstop.pos, fun text' htake => parse_of_stopsAt (hstop.of_take_eq htake)⟩
  · intro n fault hn
    refine ⟨fun h => ?_, fun h => parse_of_stopsAt h⟩
    rcases parse_eq_error_iff_stops_or_lacks.mp h with ⟨n', e, hstop, he⟩ | ⟨_, hlacks⟩
    · cases e with
      | fault f =>
        cases he
        exact hstop
      | key cause => cases he
    · exact absurd rfl (ne_inLine_of_lacks hlacks (.fault fault) hn)
  · intro cause
    refine ⟨fun h => ?_, fun ⟨n, h⟩ => parse_of_stopsAt h⟩
    rcases parse_eq_error_iff_stops_or_lacks.mp h with ⟨n', e, hstop, he⟩ | ⟨_, hlacks⟩
    · cases e with
      | fault f => cases he
      | key cause' =>
        cases he
        exact ⟨n', hstop⟩
    · exact absurd rfl (ne_inLine_of_lacks hlacks (.key cause) Nat.one_pos)
  · intro err herr
    rw [parse_eq_error_iff_stops_or_lacks]
    refine ⟨fun h => h.resolve_left ?_, .inr⟩
    rintro ⟨n, e, hstop, he⟩
    exact herr n e hstop.pos he

/-- A second line with an unknown key is blamed, whatever is wrong with the third. -/
theorem parse_stops_at_unknown_key :
    empty.StopsAt (Text.lines "[Peer]\nMTU=9".toList) 2 (.fault (.unknownPeerKey "MTU")) ∧
      parse "[Peer]\nMTU=9\n[Interface" = .error (.parse 2 (.unknownPeerKey "MTU")) := by
  have hstop : empty.StopsAt (Text.lines "[Peer]\nMTU=9".toList) 2
      (.fault (.unknownPeerKey "MTU")) :=
    ⟨["[Peer]".toList], "MTU=9".toList, [], ⟨none, [.empty], .peer⟩, by decide, rfl, by decide,
      by decide⟩
  obtain ⟨-, hsame⟩ := (parse_stops_or_lacks _).2.1 2 _ hstop
  exact ⟨hstop, hsame _ (by decide)⟩

end Config

end VpnTunnel
