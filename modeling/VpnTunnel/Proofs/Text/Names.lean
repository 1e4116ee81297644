import VpnTunnel.Text.NameSet

/-!
# Sets and tables from lists

The set of a list has the members of the list, and a set is the one of its own members in order. In a
list of entries with different names each name is looked up to its own entry.
-/

namespace VpnTunnel

section Entries

variable {α : Type} {entries : List (String × α)} {name : String} {value : α}

theorem lookup_eq_some_iff_mem (h : (entries.map Prod.fst).Nodup) :
    entries.lookup name = some value ↔ (name, value) ∈ entries := by
  rw [List.lookup_eq_some_iff]
  constructor
  · rintro ⟨before, after, rfl, -⟩
    exact List.mem_append_right before List.mem_cons_self
  · intro hmem
    obtain ⟨before, after, rfl⟩ := List.append_of_mem hmem
    refine ⟨before, after, rfl, fun e he => ?_⟩
    rw [List.map_append, List.nodup_append] at h
    exact bne_iff_ne.mpr (h.2.2 e.1 (List.mem_map_of_mem he) name (by simp)).symm

theorem lookup_eq_none_of_not_mem (h : name ∉ entries.map Prod.fst) :
    entries.lookup name = none := by
  rw [List.lookup_eq_none_iff]
  intro e he
  exact bne_iff_ne.mpr fun hname => h (hname ▸ List.mem_map_of_mem he)

end Entries

namespace NameSet

theorem eq_of_toList_eq {s t : NameSet} (h : s.toList = t.toList) : s = t := by
  obtain ⟨xs, _⟩ := s
  obtain ⟨ys, _⟩ := t
  cases h
  rfl

theorem mem_toList_insert {s : NameSet} {name n : String} :
    n ∈ (s.insert name).toList ↔ n = name ∨ n ∈ s.toList := mem_insertInto

theorem mem_toList_foldl_insert {names : List String} {s : NameSet} {n : String} :
    n ∈ (names.foldl insert s).toList ↔ n ∈ names ∨ n ∈ s.toList := by
  induction names generalizing s with
  | nil => simp
  | cons name names ih =>
    rw [List.foldl_cons, ih, mem_toList_insert, List.mem_cons, ← or_assoc, or_comm (a := n ∈ names)]

theorem mem_toList_ofList {names : List String} {n : String} :
    n ∈ (ofList names).toList ↔ n ∈ names := by
  rw [ofList, mem_toList_foldl_insert]
  simp [empty]

/-- A name above all others goes to the end. -/
theorem insertInto_of_forall_lt {name : String} {xs : List String} (h : ∀ x ∈ xs, x < name) :
    insertInto name xs = xs ++ [name] := by
  induction xs with
  | nil => rfl
  | cons x xs ih =>
    obtain ⟨hx, hxs⟩ := List.forall_mem_cons.mp h
    have hne : name ≠ x := fun he => String.lt_irrefl x (he ▸ hx)
    have hnlt : ¬name < x := String.lt_asymm hx
    rw [insertInto, if_neg hnlt, if_neg hne, ih hxs, List.cons_append]

/-- Names that come in ascending order are kept as they come. -/
theorem toList_foldl_insert {names : List String} {s : NameSet}
    (h : (s.toList ++ names).Pairwise (· < ·)) :
    (names.foldl insert s).toList = s.toList ++ names := by
  induction names generalizing s with
  | nil => simp
  | cons name names ih =>
    have hbelow : ∀ x ∈ s.toList, x < name := fun x hx =>
      (List.pairwise_append.mp h).2.2 x hx name List.mem_cons_self
    have hinsert : (s.insert name).toList = s.toList ++ [name] := insertInto_of_forall_lt hbelow
    have happend : s.toList ++ name :: names = (s.insert name).toList ++ names := by
      rw [hinsert, List.append_assoc, List.singleton_append]
    rw [List.foldl_cons, happend]
    exact ih (happend ▸ h)

/-- A set is the set of its members. -/
theorem ofList_toList (s : NameSet) : ofList s.toList = s :=
  eq_of_toList_eq (toList_foldl_insert (s := empty) s.ascending)

theorem toList_eq_nil_iff {s : NameSet} : s.toList = [] ↔ s = empty := by
  constructor
  · intro h
    exact eq_of_toList_eq h
  · rintro rfl
    rfl

end NameSet

end VpnTunnel
