import VpnTunnel.Number.Binary

/-!
# Documents

The tree that a JSON or TOML text stands for. Members keep the order of the text and may repeat.
-/

namespace VpnTunnel.Document

inductive Value where
  | null
  | bool (b : Bool)
  | int (n : Int)
  | float (x : Number.Double)
  | str (s : String)
  | arr (items : List Value)
  | obj (members : List (String × Value))
  /-- A text that the grammar admits and that stands for no value, such as a number out of range. It
  may be passed over but not read. -/
  | illFormed
deriving Inhabited

namespace Value

def ofStrings (names : List String) : Value := arr (names.map str)

/-- The members of an object, and of anything else none. -/
def members : Value → List (String × Value)
  | obj ms => ms
  | _ => []

/-- The object with some of its members replaced, and those it has not added. -/
def override (base : Value) (changes : List (String × Value)) : Value :=
  obj (base.members.filter (fun m => !changes.any (·.1 == m.1)) ++ changes)

end Value

end VpnTunnel.Document
