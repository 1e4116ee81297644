import VpnTunnel.File.Path

/-!
# Trees of files

What reading a file may come to, and a tree of files with a directory that relative paths start
from.
-/

namespace VpnTunnel

inductive FileError where
  | notFound
  /-- A name on the way is that of a file. -/
  | notADirectory
  | isADirectory
  /-- A name on the way, or the whole path, is longer than any can be. -/
  | nameTooLong
  /-- The path has the character that ends all paths. -/
  | nulInName
  | notUtf8
  /-- Some other failure, in the words of the system. -/
  | other (text : String)
deriving DecidableEq, Repr

def FileError.message : FileError → String
  | notFound => "No such file or directory (os error 2)"
  | notADirectory => "Not a directory (os error 20)"
  | isADirectory => "Is a directory (os error 21)"
  | nameTooLong => "File name too long (os error 36)"
  | nulInName => "file name contained an unexpected NUL byte"
  | notUtf8 => "stream did not contain valid UTF-8"
  | other text => text

/-- The bytes of a file by its path. -/
abbrev FileReader := String → Except FileError ByteArray

/-- The text of a file. -/
def FileReader.text (read : FileReader) (path : String) : Except FileError String := do
  match String.fromUTF8? (← read path) with
  | some s => return s
  | none => .error .notUtf8

/-- Files by the names that lead to them from the root. -/
structure FileTree where
  files : List (List String × ByteArray)
  /-- The directory that relative paths start from. It is there even if it has no files. -/
  here : List String

namespace FileTree

/-- The files of one directory, by their paths from there. The null device, which is empty, is there
as well. -/
def ofFiles (here : List String) (files : List (String × ByteArray)) : FileTree :=
  ⟨(["dev", "null"], .empty) :: files.map fun f => (here ++ Path.names f.1, f.2), here⟩

def isFile (t : FileTree) (names : List String) : Bool := t.files.any (·.1 == names)

/-- A directory is there if it is on the way to the starting directory or to a file. -/
def isDirectory (t : FileTree) (names : List String) : Bool :=
  names.isPrefixOf t.here || t.files.any fun f => names.isPrefixOf f.1 && f.1 != names

/-- The most bytes that a name can have. -/
def longestName : Nat := 255

/-- The most bytes that a path can have. -/
def longestPath : Nat := 4095

/-- Follows names from a directory. Above the root there is only the root. -/
def resolve (t : FileTree) : List String → List String → Except FileError (List String)
  | dir, [] => .ok dir
  | dir, name :: rest =>
    if t.isFile dir then .error .notADirectory
    else if !t.isDirectory dir then .error .notFound
    else if name = ".." then t.resolve dir.dropLast rest
    else if longestName < name.utf8ByteSize then .error .nameTooLong
    else t.resolve (dir ++ [name]) rest

def reader (t : FileTree) : FileReader := fun path =>
  if path.toList.contains '\x00' then .error .nulInName
  else if longestPath < path.utf8ByteSize then .error .nameTooLong
  else if path = "" then .error .notFound
  else do
    let names ← t.resolve (if Path.isAbsolute path then [] else t.here) (Path.names path)
    match t.files.lookup names with
    | some bytes => if Path.asksForDirectory path then .error .notADirectory else .ok bytes
    | none => if t.isDirectory names then .error .isADirectory else .error .notFound

end FileTree

end VpnTunnel
