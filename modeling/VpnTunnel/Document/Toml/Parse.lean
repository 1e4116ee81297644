import VpnTunnel.Document.Toml.Lexeme
import VpnTunnel.Document.Toml.Table

/-!
# Reading TOML

Values, and the lines of a document: entries, headers of tables, and headers of tables in arrays.
-/

namespace VpnTunnel.Document.Toml

mutual

/-- A value and the text behind it. `depth` is how many levels of arrays and inline tables it may
have, and `fuel` bounds the items in a row. -/
def value? (fuel depth : Nat) (s : List Char) : Option (Value × List Char) :=
  match fuel with
  | 0 => none
  | fuel + 1 =>
    match s with
    | '[' :: r =>
      match depth with
      | 0 => none
      | depth + 1 =>
        match skipFill false r with
        | ']' :: r' => some (.arr [], r')
        | r' => (items? fuel depth r').map fun p => (.arr p.1, p.2)
    | '\x7b' :: r =>
      match depth with
      | 0 => none
      | depth + 1 =>
        match skipWs r with
        | '\x7d' :: r' => some (.obj [], r')
        | r' => (members? fuel depth [] r').map fun p => (.obj (entriesToMembers p.1), p.2)
    | 't' :: 'r' :: 'u' :: 'e' :: r => some (.bool true, r)
    | 'f' :: 'a' :: 'l' :: 's' :: 'e' :: r => some (.bool false, r)
    | '"' :: _ | '\'' :: _ => (string? s).map fun p => (.str p.1, p.2)
    | _ => number? s

/-- The items of an array that has some; a comma may follow the last. -/
def items? (fuel depth : Nat) (s : List Char) : Option (List Value × List Char) :=
  match fuel with
  | 0 => none
  | fuel + 1 => do
    let (v, r) ← value? fuel depth s
    match skipFill false r with
    | ']' :: r => some ([v], r)
    | ',' :: r =>
      match skipFill false r with
      | ']' :: r => some ([v], r)
      | r => (items? fuel depth r).map fun p => (v :: p.1, p.2)
    | _ => none

/-- The entries of an inline table that has some, after those already read. -/
def members? (fuel depth : Nat) (es : Entries) (s : List Char) : Option (Entries × List Char) :=
  match fuel with
  | 0 => none
  | fuel + 1 => do
    let (path, key, r) ← key? s
    let r ← expect? '=' r
    let (v, r) ← value? fuel depth (skipWs r)
    let es ← setDotted key v path es
    match skipWs r with
    | '\x7d' :: r => some (es, r)
    | ',' :: r => members? fuel depth es r
    | _ => none

end

/-- An entry of the table at `path`, and the text behind its line. -/
def entryLine? (path : List String) (es : Entries) (s : List Char) :
    Option (Entries × List Char) := do
  let (dots, key, r) ← key? s
  let r ← expect? '=' r
  let (v, r) ← value? (2 * s.length + 2) (tooDeep - 1) (skipWs r)
  return (← within (setDotted key v dots) path es, ← endLine? r)

/-- The header of a table, behind its bracket: the new current table. -/
def tableLine? (es : Entries) (s : List Char) : Option (List String × Entries × List Char) := do
  let (path, key, r) ← key? s
  let r ← endLine? (← expect? ']' r)
  return (path ++ [key], ← openTable path key es, r)

/-- The header of a table in an array, behind its brackets. -/
def itemLine? (es : Entries) (s : List Char) : Option (List String × Entries × List Char) := do
  let (path, key, r) ← key? s
  let r ← endLine? (← expect? ']' (← expect? ']' r))
  return (path ++ [key], ← openItem path key es, r)

/-- The lines of a document, of which `path` is the current table. The first argument bounds their
number. -/
def lines? : Nat → List String → Entries → List Char → Option Entries
  | 0, _, _, _ => none
  | fuel + 1, path, es, s =>
    match skipWs s with
    | [] => some es
    | '[' :: '[' :: r => do
      let (path, es, r) ← itemLine? es r
      lines? fuel path es r
    | '[' :: r => do
      let (path, es, r) ← tableLine? es r
      lines? fuel path es r
    | '#' :: r => do lines? fuel path es (← endLine? ('#' :: r))
    | '\n' :: r => lines? fuel path es r
    | '\r' :: r => do lines? fuel path es (← newline? ('\r' :: r))
    | r => do
      let (es, r) ← entryLine? path es r
      lines? fuel path es r

/-- The text without a byte order mark at its front. -/
def dropMark : List Char → List Char
  | '\uFEFF' :: r => r
  | s => s

/-- The object that a whole document stands for. Each line takes a character at least. -/
def parse? (s : List Char) : Option Value :=
  let s := dropMark s
  (lines? (s.length + 1) [] [] s).map fun es => .obj (entriesToMembers es)

def ofString? (s : String) : Option Value := parse? s.toList

end VpnTunnel.Document.Toml
