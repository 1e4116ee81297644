import VpnTunnel.Document.Value

/-!
# TOML tables

The tables of a document while it is read. A table is opened once by its header or by dotted keys,
not by both; a header may still open a table that deeper headers have implied.
-/

namespace VpnTunnel.Document.Toml

/-- How a table came to be. -/
inductive Origin where
  /-- Its own header opened it. -/
  | header
  /-- The header of a table inside it implied it. -/
  | implied
  /-- Dotted keys made it. -/
  | dotted
deriving DecidableEq, Repr

inductive Node where
  | value (v : Value)
  | table (origin : Origin) (entries : List (String × Node))
  /-- An array of tables, the latest one last. -/
  | tables (items : List (List (String × Node)))
deriving Inhabited

abbrev Entries := List (String × Node)

/-- Replaces what a key holds, if anything, by what `f` makes of it. -/
def onEntry (key : String) (f : Option Node → Option Node) : Entries → Option Entries
  | [] => (f none).map fun n => [(key, n)]
  | (k, n) :: r =>
    if k = key then (f (some n)).map fun n' => (k, n') :: r
    else (onEntry key f r).map ((k, n) :: ·)

/-- Changes the latest table of an array. -/
def onLast (f : Entries → Option Entries) (items : List Entries) : Option (List Entries) := do
  let last ← items.getLast?
  return items.dropLast ++ [← f last]

/-- Changes the table that a path of headers leads to; tables on the way that are not there are
implied, and of an array of tables the latest is meant. -/
def within (f : Entries → Option Entries) : List String → Entries → Option Entries
  | [] => f
  | k :: path => onEntry k fun
    | none => (within f path []).map (.table .implied)
    | some (.table origin es) => (within f path es).map (.table origin)
    | some (.tables items) => (onLast (within f path) items).map .tables
    | some (.value _) => none

/-- Opens a table by its header. -/
def openTable (path : List String) (key : String) : Entries → Option Entries :=
  within (onEntry key fun
    | none => some (.table .header [])
    | some (.table .implied es) => some (.table .header es)
    | some _ => none) path

/-- Opens one more table of an array by its header. -/
def openItem (path : List String) (key : String) : Entries → Option Entries :=
  within (onEntry key fun
    | none => some (.tables [[]])
    | some (.tables items) => some (.tables (items ++ [[]]))
    | some _ => none) path

/-- Sets a key that is not set. -/
def setKey (key : String) (v : Value) : Entries → Option Entries :=
  onEntry key fun
    | none => some (.value v)
    | some _ => none

/-- Sets a key inside the tables that dotted keys name. The innermost of them is one that dotted
keys made. -/
def setDotted (key : String) (v : Value) : List String → Entries → Option Entries
  | [] => setKey key v
  | [k] => onEntry k fun
    | none => (setKey key v []).map (.table .dotted)
    | some (.table .dotted es) => (setKey key v es).map (.table .dotted)
    | some _ => none
  | k :: path => onEntry k fun
    | none => (setDotted key v path []).map (.table .dotted)
    | some (.table .header _) => none
    | some (.table origin es) => (setDotted key v path es).map (.table origin)
    | some (.tables items) => (onLast (setDotted key v path) items).map .tables
    | some (.value _) => none

mutual

/-- The value that a node stands for. -/
def Node.toValue : Node → Value
  | .value v => v
  | .table _ es => .obj (entriesToMembers es)
  | .tables items => .arr (itemsToValues items)

def entriesToMembers : List (String × Node) → List (String × Value)
  | [] => []
  | (k, n) :: r => (k, n.toValue) :: entriesToMembers r

def itemsToValues : List (List (String × Node)) → List Value
  | [] => []
  | es :: r => .obj (entriesToMembers es) :: itemsToValues r

end

end VpnTunnel.Document.Toml
