/-!
# Paths

A path is a text of names between slashes. Empty names count for nothing, nor does a single dot; two
dots lead one directory up.
-/

namespace VpnTunnel.Path

/-- The names that a path goes through. -/
def names (path : String) : List String :=
  ((path.toList.splitOn '/').filter fun p => p ≠ [] ∧ p ≠ ['.']).map String.ofList

/-- Whether the path starts from the root of all files. -/
def isAbsolute (path : String) : Bool := path.toList.head? == some '/'

/-- Whether the path can only be that of a directory, because of how it ends. -/
def asksForDirectory (path : String) : Bool :=
  match (path.toList.splitOn '/').getLast? with
  | some p => path ≠ "" && (p == [] || p == ['.'])
  | none => false

/-- What stands behind the last dot of a name that has one behind its first character. -/
def nameExtension? (name : List Char) : Option (List Char) :=
  match (name.splitOn '.').reverse with
  | [] | [_] => none
  | [_, []] => none
  | last :: _ => some last

/-- The extension of the last name of a path. A path that ends by going up has none. -/
def extension? (path : String) : Option String :=
  match (names path).getLast? with
  | some name => if name = ".." then none else (nameExtension? name.toList).map String.ofList
  | none => none

end VpnTunnel.Path
