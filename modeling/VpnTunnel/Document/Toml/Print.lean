import VpnTunnel.Text.Decimal

/-!
# Writing TOML

Entries, table headers and the texts of values. A string is written in the first of the four forms
that shows it without escapes; one that needs escapes anyway is written in a basic form.
-/

namespace VpnTunnel.Document.Toml

/-- The four ways to write a string. -/
inductive Quotation where
  | basic
  | literal
  | multiBasic
  | multiLiteral
deriving DecidableEq, Repr

/-- The length of the longest run of a character, `current` being how long the run in front is. -/
def longestRun (q : Char) (current : Nat) : List Char → Nat
  | [] => current
  | c :: r => if c = q then longestRun q (current + 1) r else max current (longestRun q 0 r)

/-- The characters that can only be written as escapes; tab and newline are not among them. -/
def needsEscape (c : Char) : Bool :=
  (c.toNat < 0x20 && c != '\t' && c != '\n') || c.toNat == 0x7f

namespace Quotation

/-- How a string is written. -/
def choose (s : List Char) : Quotation :=
  let escapes := s.any needsEscape
  let backslash := s.contains '\\'
  let newline := s.contains '\n'
  let double := longestRun '"' 0 s
  let single := longestRun '\'' 0 s
  if !escapes ∧ !backslash ∧ !newline ∧ double = 0 then basic
  else if !escapes ∧ !newline ∧ single = 0 then literal
  else if !escapes ∧ !backslash ∧ double ≤ 2 then multiBasic
  else if !escapes ∧ single ≤ 2 then multiLiteral
  else if newline then multiBasic
  else basic

def delimiter : Quotation → List Char
  | basic => ['"']
  | literal => ['\'']
  | multiBasic => ['"', '"', '"']
  | multiLiteral => ['\'', '\'', '\'']

def isMultiLine (q : Quotation) : Bool := q == multiBasic || q == multiLiteral

end Quotation

def upperHexDigit (n : Nat) : Char := Char.ofNat (if n < 10 then 48 + n else 55 + n)

/-- The escape of a control character by its code. -/
def codeEscape (c : Char) : List Char :=
  let n := c.toNat
  ['\\', 'u', '0', '0', upperHexDigit (n / 16), upperHexDigit (n % 16)]

/-- A string between double quotes. `quotes` is how many double quotes may still follow in a row;
`most` is how many may in all. -/
def escapeBasic (multiLine : Bool) (most : Nat) : Nat → List Char → List Char
  | _, [] => []
  | 0, '"' :: r => '\\' :: '"' :: escapeBasic multiLine most most r
  | quotes + 1, '"' :: r => '"' :: escapeBasic multiLine most quotes r
  | _, c :: r =>
    let rest := escapeBasic multiLine most most r
    if c = '\x08' then '\\' :: 'b' :: rest
    else if c = '\t' then '\\' :: 't' :: rest
    else if c = '\n' then (if multiLine then '\n' :: rest else '\\' :: 'n' :: rest)
    else if c = '\x0c' then '\\' :: 'f' :: rest
    else if c = '\r' then '\\' :: 'r' :: rest
    else if c = '\\' then '\\' :: '\\' :: rest
    else if needsEscape c then codeEscape c ++ rest
    else c :: rest

/-- The text of a string. In a form of several lines a text that has line ends starts on a line of
its own. -/
def stringText (s : List Char) : List Char :=
  let q := Quotation.choose s
  let body := match q with
    | .basic => escapeBasic false 0 0 s
    | .multiBasic => escapeBasic true 2 2 s
    | .literal | .multiLiteral => s
  let start := if q.isMultiLine ∧ s.contains '\n' then ['\n'] else []
  q.delimiter ++ start ++ body ++ q.delimiter

def boolText (b : Bool) : List Char := if b then "true".toList else "false".toList

def naturalText (n : Nat) : List Char := Text.digits n

/-- The text of an array: on one line, or with a line for each of several items. -/
def arrayText : List (List Char) → List Char
  | [] => "[]".toList
  | [item] => ['['] ++ item ++ [']']
  | items => "[\n".toList ++ items.flatMap (fun i => "    ".toList ++ i ++ ",\n".toList) ++ [']']

/-- The line of an entry. -/
def entryText (key : String) (value : List Char) : List Char :=
  key.toList ++ " = ".toList ++ value ++ ['\n']

/-- A table's header, set off by an empty line. -/
def headerText (name : String) : List Char := "\n[".toList ++ name.toList ++ "]\n".toList

end VpnTunnel.Document.Toml
