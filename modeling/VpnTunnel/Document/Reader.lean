import VpnTunnel.Address.Block
import VpnTunnel.Document.Value

/-!
# Reading values

Readers that take a document tree to the types of the domain. A structure is read from an object,
whose unknown members are passed over and whose known members may not repeat, or from an array that
holds the members in their order of declaration. A plain choice is read from its name.
-/

namespace VpnTunnel.Document

/-- Where the two document formats differ in what a structure is read from. -/
structure Dialect where
  /-- What stands beside the name of a choice when it is written as an object of one member. -/
  isUnit : Value → Bool
  /-- An array that stands for a structure may have items beyond its members. -/
  extraItems : Bool

/-- JSON writes nothing as null. -/
def Dialect.json : Dialect where
  isUnit
    | .null => true
    | _ => false
  extraItems := false

/-- TOML writes nothing as an empty table or array. -/
def Dialect.toml : Dialect where
  isUnit
    | .obj [] => true
    | .arr [] => true
    | _ => false
  extraItems := true

abbrev Reader (α : Type) := Value → Option α

/-- The members of a structure that a value gives. -/
abbrev Fields := List (String × Value)

/-- The members among `names` that a value gives, if it can stand for a structure that has them. -/
def fields (d : Dialect) (names : List String) : Reader Fields
  | .obj members =>
    let known := members.filter fun m => names.contains m.1
    if (known.map Prod.fst).Nodup then some known else none
  | .arr items =>
    if items.length ≤ names.length ∨ d.extraItems then some (names.zip items) else none
  | _ => none

variable {α : Type}

/-- A member that must be there. -/
def Fields.required (fs : Fields) (name : String) (r : Reader α) : Option α :=
  (fs.lookup name).bind r

/-- A member that has a default. -/
def Fields.optional (fs : Fields) (name : String) (default : α) (r : Reader α) : Option α :=
  match fs.lookup name with
  | some v => r v
  | none => some default

def readBool : Reader Bool
  | .bool b => some b
  | _ => none

def readString : Reader String
  | .str s => some s
  | _ => none

/-- An integer from zero up to and without `bound`. -/
def readBelow (bound : Nat) : Reader Nat
  | .int n => if 0 ≤ n ∧ n < bound then some n.toNat else none
  | _ => none

def readWord8 : Reader UInt8 := fun v => (readBelow (2 ^ 8) v).map UInt8.ofNat

def readWord32 : Reader UInt32 := fun v => (readBelow (2 ^ 32) v).map UInt32.ofNat

/-- A number, to the nearest single-precision one. -/
def readSingle : Reader Number.Single
  | .int n => some (.ofInt n)
  | .float x => some (.ofDouble x)
  | _ => none

def readAddress : Reader Address
  | .str s => Address.ofString? s
  | _ => none

def readList (r : Reader α) : Reader (List α)
  | .arr items => items.mapM r
  | _ => none

/-- A value, or null for none. -/
def readNullable (r : Reader α) : Reader (Option α)
  | .null => some none
  | v => (r v).map some

/-- One of some named choices, from its name or from an object with that one member. -/
def readChoice (d : Dialect) (choices : List (String × α)) : Reader α
  | .str s => choices.lookup s
  | .obj [(name, v)] => if d.isUnit v then choices.lookup name else none
  | _ => none

end VpnTunnel.Document
