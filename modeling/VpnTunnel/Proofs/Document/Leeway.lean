import Mathlib.Data.List.Nodup
import Mathlib.Data.List.Perm.Basic
import VpnTunnel.Document.Reader
import VpnTunnel.Proofs.Text.Names

/-!
# What a writer of objects may do

The members of an object may stand in any order, some of them may be left out where they have the
value that stands for them anyway, and members may be there that no reader knows. A reader finds each
member that has been kept, with a value that is as free as its name allows, and misses only such as
may be left out.
-/

namespace VpnTunnel.Document

/-- How free the writer of a value is. -/
inductive Leeway where
  /-- The value is written as it is. -/
  | asIs
  /-- The value is an object. The members in `spare` may be left out, the order is free, members may be
  added with names other than `names`, and `inner` says how free the value of each member is. -/
  | object (names : List String) (spare : Fields) (inner : String → Leeway)

/-- The second list has the members of the first in their order, but for some that are spare, and
with values that are related to those of the first. -/
inductive Kept (spare : Fields) (R : String → Value → Value → Prop) : Fields → Fields → Prop
  | nil : Kept spare R [] []
  | keep {name : String} {v w : Value} {full kept : Fields} (hvalue : R name v w)
    (hrest : Kept spare R full kept) : Kept spare R ((name, v) :: full) ((name, w) :: kept)
  | leaveOut {name : String} {v : Value} {full kept : Fields} (hspare : (name, v) ∈ spare)
    (hrest : Kept spare R full kept) : Kept spare R ((name, v) :: full) kept

/-- The value `w` may be written for `v`. -/
def Leeway.Allows : Leeway → Value → Value → Prop
  | .asIs, v, w => w = v
  | .object names spare inner, v, w => ∃ full kept added ms,
      v = .obj full ∧ Kept spare (fun name => (inner name).Allows) full kept ∧
      (∀ m ∈ added, m.1 ∉ names) ∧ ms.Perm (kept ++ added) ∧ w = .obj ms

variable {names : List String} {spare full kept fs : Fields} {name : String} {v w : Value}
  {R : String → Value → Value → Prop}

namespace Kept

theorem names_sublist (h : Kept spare R full kept) :
    (kept.map Prod.fst).Sublist (full.map Prod.fst) := by
  induction h with
  | nil => exact .slnil
  | keep _ _ ih => exact ih.cons_cons _
  | leaveOut _ _ ih => exact ih.cons _

/-- Each member has been kept or is spare. -/
theorem exists_mem_or_mem_spare (h : Kept spare R full kept) (hnodup : (full.map Prod.fst).Nodup)
    (hmem : (name, v) ∈ full) :
    (∃ w, R name v w ∧ (name, w) ∈ kept) ∨ (name, v) ∈ spare ∧ name ∉ kept.map Prod.fst := by
  induction h with
  | nil => exact absurd hmem List.not_mem_nil
  | keep hvalue hrest ih =>
    obtain ⟨hnew, hnodup⟩ := List.nodup_cons.mp hnodup
    rcases List.mem_cons.mp hmem with heq | hmem
    · obtain ⟨rfl, rfl⟩ := Prod.mk.inj heq
      exact .inl ⟨_, hvalue, List.mem_cons_self⟩
    · rcases ih hnodup hmem with ⟨w, hw, hkept⟩ | ⟨hspare, hmissing⟩
      · exact .inl ⟨w, hw, List.mem_cons_of_mem _ hkept⟩
      · refine .inr ⟨hspare, ?_⟩
        rw [List.map_cons, List.mem_cons, not_or]
        exact ⟨fun heq => hnew (heq ▸ List.mem_map_of_mem hmem), hmissing⟩
  | leaveOut hspare hrest ih =>
    obtain ⟨hnew, hnodup⟩ := List.nodup_cons.mp hnodup
    rcases List.mem_cons.mp hmem with heq | hmem
    · obtain ⟨rfl, rfl⟩ := Prod.mk.inj heq
      exact .inr ⟨hspare, fun hkept => hnew (hrest.names_sublist.subset hkept)⟩
    · exact ih hnodup hmem

theorem refl (hvalue : ∀ m ∈ full, R m.1 m.2 m.2) : Kept spare R full full := by
  induction full with
  | nil => exact .nil
  | cons m full ih =>
    obtain ⟨hm, hrest⟩ := List.forall_mem_cons.mp hvalue
    exact .keep hm (ih hrest)

/-- Where all members are spare, none has to be written. -/
theorem leaveOutAll (hspare : ∀ m ∈ full, m ∈ spare) : Kept spare R full [] := by
  induction full with
  | nil => exact .nil
  | cons m full ih =>
    obtain ⟨hm, hrest⟩ := List.forall_mem_cons.mp hspare
    exact .leaveOut hm (ih hrest)

end Kept

/-- An object may be written as it is. -/
theorem Leeway.allows_self {inner : String → Leeway}
    (hvalue : ∀ m ∈ full, (inner m.1).Allows m.2 m.2) :
    (object names spare inner).Allows (.obj full) (.obj full) :=
  ⟨full, full, [], full, rfl, .refl hvalue, by simp, by simp, rfl⟩

/-- An object of spare members may be written without any. -/
theorem Leeway.allows_empty {inner : String → Leeway} (hspare : ∀ m ∈ full, m ∈ spare) :
    (object names spare inner).Allows (.obj full) (.obj []) :=
  ⟨full, [], [], [], rfl, .leaveOutAll hspare, by simp, by simp, rfl⟩

/-- What a reader finds of a member among the members `fs`: a value that may be written there, or
nothing where it is spare. -/
def Given (spare : Fields) (R : String → Value → Value → Prop) (fs : Fields) (m : String × Value) :
    Prop :=
  (∃ w, R m.1 m.2 w ∧ fs.lookup m.1 = some w) ∨ m ∈ spare ∧ fs.lookup m.1 = none

/-- However freely an object has been written, its known members are all there, but for spare
ones. -/
theorem Leeway.Allows.exists_fields {inner : String → Leeway}
    (h : (object names spare inner).Allows (.obj full) w) (hnames : full.map Prod.fst = names)
    (hnodup : names.Nodup) (d : Dialect) :
    ∃ fs, fields d names w = some fs ∧
      ∀ m ∈ full, Given spare (fun name => (inner name).Allows) fs m := by
  obtain ⟨_, kept, added, ms, heq, hkept, hadded, hperm, rfl⟩ := h
  obtain rfl := Value.obj.inj heq
  have hsublist : (kept.map Prod.fst).Sublist names := hnames ▸ hkept.names_sublist
  have hknown : (ms.filter fun m => names.contains m.1).Perm kept := by
    have hall : kept.filter (fun m => names.contains m.1) = kept := by
      apply List.filter_eq_self.mpr
      intro m hm
      rw [List.contains_iff_mem]
      exact hsublist.subset (List.mem_map_of_mem hm)
    have hnone : added.filter (fun m => names.contains m.1) = [] := by
      apply List.filter_eq_nil_iff.mpr
      intro m hm
      rw [List.contains_iff_mem]
      exact hadded m hm
    have hfilter := hperm.filter fun m => names.contains m.1
    rwa [List.filter_append, hall, hnone, List.append_nil] at hfilter
  have hdistinct : ((ms.filter fun m => names.contains m.1).map Prod.fst).Nodup :=
    (hknown.map Prod.fst).nodup_iff.mpr (hsublist.nodup hnodup)
  refine ⟨_, if_pos hdistinct, fun m hmem => ?_⟩
  rcases hkept.exists_mem_or_mem_spare (hnames ▸ hnodup) hmem with ⟨w, hw, hin⟩ | ⟨hspare, hmissing⟩
  · exact .inl ⟨w, hw, (lookup_eq_some_iff_mem hdistinct).mpr (hknown.mem_iff.mpr hin)⟩
  · refine .inr ⟨hspare, lookup_eq_none_of_not_mem fun hin => hmissing ?_⟩
    exact (hknown.map Prod.fst).mem_iff.mp hin

namespace Given

variable {α : Type} {r : Reader α} {x default : α}

/-- A member that has no default is read as it was written. -/
theorem required_eq (h : Given spare R fs (name, v)) (hspare : name ∉ spare.map Prod.fst)
    (hread : ∀ w, R name v w → r w = some x) : fs.required name r = some x := by
  rcases h with ⟨w, hw, hlookup⟩ | ⟨hin, -⟩
  · rw [Fields.required, hlookup]
    exact hread w hw
  · exact absurd (List.mem_map_of_mem hin) hspare

/-- A member that has a default is read as it was written, or left out at the default. -/
theorem optional_eq (h : Given spare R fs (name, v)) (hspare : (name, v) ∈ spare → x = default)
    (hread : ∀ w, R name v w → r w = some x) : fs.optional name default r = some x := by
  rcases h with ⟨w, hw, hlookup⟩ | ⟨hin, hlookup⟩
  · rw [Fields.optional, hlookup]
    exact hread w hw
  · rw [Fields.optional, hlookup, hspare hin]

end Given

end VpnTunnel.Document
