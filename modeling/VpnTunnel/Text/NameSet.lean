/-!
# Sets and tables of names

Finite sets of strings, and finite maps from strings, kept as strictly ascending lists. Strings
compare by code point, which is also the order of their UTF-8 bytes. Two sets with the same members
are equal as values.
-/

namespace VpnTunnel

/-- A finite set of strings in ascending order. -/
structure NameSet where
  toList : List String
  ascending : toList.Pairwise (· < ·)
deriving DecidableEq

namespace NameSet

def empty : NameSet := ⟨[], .nil⟩

def isEmpty (s : NameSet) : Bool := s.toList.isEmpty

/-- Ordered insertion into a list of names; a name already there is not repeated. -/
def insertInto (name : String) : List String → List String
  | [] => [name]
  | x :: xs =>
    if name < x then name :: x :: xs
    else if name = x then x :: xs
    else x :: insertInto name xs

theorem mem_insertInto {name y : String} {xs : List String} :
    y ∈ insertInto name xs ↔ y = name ∨ y ∈ xs := by
  induction xs with
  | nil => simp [insertInto]
  | cons x xs ih =>
    simp only [insertInto]
    split
    · simp
    · split
      · rename_i h; subst h; simp
      · simp only [List.mem_cons, ih]
        constructor <;> (rintro (h | h | h) <;> simp [h])

theorem lt_of_not_lt_of_ne {a b : String} (h : ¬a < b) (hne : a ≠ b) : b < a := by
  rcases String.le_total a b with h' | h'
  · exact absurd (String.le_antisymm h' (String.not_lt.1 h)) hne
  · exact String.not_le.1 fun h'' => hne (String.le_antisymm h'' h')

theorem pairwise_insertInto {name : String} {xs : List String} (h : xs.Pairwise (· < ·)) :
    (insertInto name xs).Pairwise (· < ·) := by
  induction xs with
  | nil => simp [insertInto]
  | cons x xs ih =>
    obtain ⟨hx, hxs⟩ := List.pairwise_cons.1 h
    simp only [insertInto]
    split
    · rename_i hlt
      refine List.pairwise_cons.2 ⟨fun y hy => ?_, h⟩
      rcases List.mem_cons.1 hy with rfl | hy
      · exact hlt
      · exact String.lt_trans hlt (hx y hy)
    · split
      · exact h
      · rename_i hlt hne
        refine List.pairwise_cons.2 ⟨fun y hy => ?_, ih hxs⟩
        rcases mem_insertInto.1 hy with rfl | hy
        · exact lt_of_not_lt_of_ne hlt hne
        · exact hx y hy

def insert (s : NameSet) (name : String) : NameSet :=
  ⟨insertInto name s.toList, pairwise_insertInto s.ascending⟩

/-- The set of the names in a list. -/
def ofList (names : List String) : NameSet := names.foldl insert empty

end NameSet

/-- A finite map from strings, its entries in ascending order of their keys. -/
structure NameTable (α : Type) where
  entries : List (String × α)
  ascending : (entries.map Prod.fst).Pairwise (· < ·)
deriving DecidableEq

namespace NameTable

variable {α : Type}

def empty : NameTable α := ⟨[], .nil⟩

/-- Ordered insertion into a list of entries; an entry already there is replaced. -/
def insertInto (key : String) (value : α) : List (String × α) → List (String × α)
  | [] => [(key, value)]
  | e :: es =>
    if key < e.1 then (key, value) :: e :: es
    else if key = e.1 then (key, value) :: es
    else e :: insertInto key value es

theorem keys_insertInto (key : String) (value : α) (es : List (String × α)) :
    (insertInto key value es).map Prod.fst = NameSet.insertInto key (es.map Prod.fst) := by
  induction es with
  | nil => rfl
  | cons e es ih =>
    simp only [insertInto, List.map_cons, NameSet.insertInto]
    split
    · rfl
    · split
      · rename_i h; simp [h]
      · simp [ih]

def insert (t : NameTable α) (key : String) (value : α) : NameTable α :=
  ⟨insertInto key value t.entries,
    keys_insertInto key value t.entries ▸ NameSet.pairwise_insertInto t.ascending⟩

/-- The table of a list of entries; of entries with one key the last counts. -/
def ofList (entries : List (String × α)) : NameTable α :=
  entries.foldl (fun t e => t.insert e.1 e.2) empty

def find? (t : NameTable α) (key : String) : Option α := t.entries.lookup key

end NameTable

end VpnTunnel
