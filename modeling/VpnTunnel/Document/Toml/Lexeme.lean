import VpnTunnel.Address.Ipv6
import VpnTunnel.Document.Value

/-!
# TOML lexemes

Blanks, comments, keys, strings, numbers and dates of TOML 1.0. Each reader takes a lexeme from the
front of a text and gives the text behind it.
-/

namespace VpnTunnel.Document.Toml

open Number

def isWs (c : Char) : Bool := c == ' ' || c == '\t'

def skipWs (s : List Char) : List Char := s.dropWhile isWs

/-- The characters that may stand unescaped in comments and strings: tab, and all but the control
characters. -/
def isPlain (c : Char) : Bool := c == '\t' || (0x20 ≤ c.toNat && c.toNat != 0x7f)

/-- A line end. -/
def newline? : List Char → Option (List Char)
  | '\n' :: r => some r
  | '\r' :: '\n' :: r => some r
  | _ => none

/-- What may follow an entry on its line: blanks, a comment, and the line's end or the text's. -/
def endLine? (s : List Char) : Option (List Char) :=
  let s := match skipWs s with
    | '#' :: r => r.dropWhile isPlain
    | r => r
  if s = [] then some [] else newline? s

/-- Drops blanks, line ends and comments. The flag tells that a comment has begun. -/
def skipFill : Bool → List Char → List Char
  | _, [] => []
  | inComment, c :: r =>
    if inComment && isPlain c then skipFill true r
    else if isWs c || c == '\n' || (c == '\r' && r.head? == some '\n') then skipFill false r
    else if c == '#' then skipFill true r
    else c :: r

/-- The character with the given code point, if there is one. -/
def scalar? (n : Nat) : Option Char :=
  if h : n.isValidChar then some (Char.ofNatAux n h) else none

/-- The character that hexadecimal digits name. -/
def hexChar? (ds : List Char) : Option Char := do
  scalar? ((← ds.mapM Ipv6.hexValue?).foldl (fun n d => n * 16 + d) 0)

/-- An escape, behind its backslash. -/
def escape? : List Char → Option (Char × List Char)
  | 'b' :: r => some ('\x08', r)
  | 't' :: r => some ('\t', r)
  | 'n' :: r => some ('\n', r)
  | 'f' :: r => some ('\x0c', r)
  | 'r' :: r => some ('\r', r)
  | '"' :: r => some ('"', r)
  | '\\' :: r => some ('\\', r)
  | 'u' :: r => if r.length < 4 then none else (hexChar? (r.take 4)).map fun c => (c, r.drop 4)
  | 'U' :: r => if r.length < 8 then none else (hexChar? (r.take 8)).map fun c => (c, r.drop 8)
  | _ => none

/-- The rest of a basic string. The first argument bounds its length, here and below. -/
def basic? : Nat → List Char → Option (List Char × List Char)
  | 0, _ => none
  | _ + 1, '"' :: r => some ([], r)
  | fuel + 1, '\\' :: r => do
    let (c, r) ← escape? r
    (basic? fuel r).map fun p => (c :: p.1, p.2)
  | fuel + 1, c :: r => if isPlain c then (basic? fuel r).map fun p => (c :: p.1, p.2) else none
  | _, [] => none

/-- The rest of a literal string. -/
def literal? : List Char → Option (List Char × List Char)
  | [] => none
  | '\'' :: r => some ([], r)
  | c :: r => if isPlain c then (literal? r).map fun p => (c :: p.1, p.2) else none

/-- The end of a multi-line string: three delimiters, of which up to two more may stand in front as
text. -/
def delimiter? (q : Char) (s : List Char) : Option (List Char × List Char) :=
  let run := (s.takeWhile (· == q)).length
  if run < 3 then none
  else
    let text := min (run - 3) 2
    some (List.replicate text q, s.drop (text + 3))

/-- The rest of a multi-line basic string. A backslash at the end of a line takes the blanks and
line ends behind it away. -/
def multiBasic? : Nat → List Char → Option (List Char × List Char)
  | 0, _ => none
  | fuel + 1, s =>
    match delimiter? '"' s with
    | some p => some p
    | none =>
      match newline? s with
      | some r => (multiBasic? fuel r).map fun p => ('\n' :: p.1, p.2)
      | none =>
        match s with
        | '\\' :: r =>
          match newline? (skipWs r) with
          | some r =>
            multiBasic? fuel (dropBlankLines r)
          | none => do
            let (c, r) ← escape? r
            (multiBasic? fuel r).map fun p => (c :: p.1, p.2)
        | c :: r =>
          if isPlain c then (multiBasic? fuel r).map fun p => (c :: p.1, p.2) else none
        | [] => none
where
  /-- The text behind its leading blanks and line ends. -/
  dropBlankLines : List Char → List Char
    | [] => []
    | c :: r =>
      if isWs c || c == '\n' || (c == '\r' && r.head? == some '\n') then dropBlankLines r
      else c :: r

/-- The rest of a multi-line literal string. -/
def multiLiteral? : Nat → List Char → Option (List Char × List Char)
  | 0, _ => none
  | fuel + 1, s =>
    match delimiter? '\'' s with
    | some p => some p
    | none =>
      match newline? s with
      | some r => (multiLiteral? fuel r).map fun p => ('\n' :: p.1, p.2)
      | none =>
        match s with
        | c :: r =>
          if isPlain c then (multiLiteral? fuel r).map fun p => (c :: p.1, p.2) else none
        | [] => none

/-- The text without one line end at its front. -/
def dropNewline (s : List Char) : List Char := (newline? s).getD s

/-- A string of any of the four kinds. -/
def string? (s : List Char) : Option (String × List Char) :=
  let fuel := s.length + 1
  let found := match s with
    | '"' :: '"' :: '"' :: r => multiBasic? fuel (dropNewline r)
    | '"' :: r => basic? fuel r
    | '\'' :: '\'' :: '\'' :: r => multiLiteral? fuel (dropNewline r)
    | '\'' :: r => literal? r
    | _ => none
  found.map fun p => (String.ofList p.1, p.2)

def isBare (c : Char) : Bool := c.isAlphanum || c == '-' || c == '_'

/-- One part of a key: a string on one line, or bare characters. -/
def keyPart? (s : List Char) : Option (String × List Char) :=
  match s with
  | '"' :: r => (basic? (s.length + 1) r).map fun p => (String.ofList p.1, p.2)
  | '\'' :: r => (literal? r).map fun p => (String.ofList p.1, p.2)
  | s =>
    let word := s.takeWhile isBare
    if word = [] then none else some (String.ofList word, s.dropWhile isBare)

/-- The number of parts of a key, and of levels of a value, that is too many. -/
def tooDeep : Nat := 80

/-- The parts of a key between dots, blanks around them allowed. The first argument bounds their
number. -/
def keyParts? : Nat → List Char → Option (List String × List Char)
  | 0, _ => none
  | fuel + 1, s => do
    let (part, r) ← keyPart? (skipWs s)
    match skipWs r with
    | '.' :: r => (keyParts? fuel r).map fun p => (part :: p.1, p.2)
    | r => some ([part], r)

/-- A key: the parts in front of the last, the last, and the text behind. -/
def key? (s : List Char) : Option (List String × String × List Char) := do
  let (parts, r) ← keyParts? (tooDeep - 1) s
  let last ← parts.getLast?
  return (parts.dropLast, last, r)

/-- Digits, between which single underscores may stand. -/
def run? (isDigit : Char → Bool) : List Char → Option (List Char × List Char)
  | [] => none
  | [c] => if isDigit c then some ([c], []) else none
  | c :: '_' :: r => if isDigit c then (run? isDigit r).map fun p => (c :: p.1, p.2) else none
  | c :: d :: r =>
    if isDigit c then
      if isDigit d then (run? isDigit (d :: r)).map fun p => (c :: p.1, p.2)
      else some ([c], d :: r)
    else none

/-- An optional sign. -/
def sign (s : List Char) : Bool × List Char :=
  match s with
  | '+' :: r => (false, r)
  | '-' :: r => (true, r)
  | r => (false, r)

/-- The digits of a decimal integer, without its sign; a leading zero stands alone. -/
def wholeDigits? : List Char → Option (List Char × List Char)
  | '0' :: r => some (['0'], r)
  | s => run? Char.isDigit s

/-- The value of digits of a base. -/
def ofDigits (base : Nat) (ds : List Char) : Nat :=
  ds.foldl (fun n c => n * base + (Ipv6.hexValue? c).getD 0) 0

/-- An integer that fits 64 bits with a sign. -/
def integer? (s : List Char) : Option (Value × List Char) := do
  let (n, r) ← (match s with
    | '0' :: 'x' :: r => (run? (fun c => (Ipv6.hexValue? c).isSome) r).map fun p =>
        ((ofDigits 16 p.1 : Int), p.2)
    | '0' :: 'o' :: r => (run? (fun c => '0' ≤ c && c ≤ '7') r).map fun p =>
        ((ofDigits 8 p.1 : Int), p.2)
    | '0' :: 'b' :: r => (run? (fun c => c == '0' || c == '1') r).map fun p =>
        ((ofDigits 2 p.1 : Int), p.2)
    | s =>
      let (negative, s) := sign s
      (wholeDigits? s).map fun p =>
        (if negative then -(ofDigits 10 p.1 : Int) else (ofDigits 10 p.1 : Int), p.2))
  if -(2 ^ 63 : Int) ≤ n ∧ n < 2 ^ 63 then return (.int n, r) else none

/-- The double-precision pattern nearest to `digits * 10 ^ exponent`. Exponents that decide the
result by themselves are not worked out. -/
def nearest (digits : List Char) (exponent : Int) : Nat :=
  let n := ofDigits 10 digits
  let size : Int := digits.length + exponent
  if n = 0 ∨ size < -400 then 0
  else if 400 < exponent then binary64.infinity
  else if 0 ≤ exponent then binary64.round (n * 10 ^ exponent.toNat) 1
  else binary64.round n (10 ^ (-exponent).toNat)

/-- The exponent of a float, behind the letter that announces it. -/
def exponent? (s : List Char) : Option (Int × List Char) := do
  let (negative, s) := sign s
  let (ds, r) ← run? Char.isDigit s
  let n : Int := ofDigits 10 ds
  return (if negative then -n else n, r)

/-- A float with a fraction, an exponent, or both, or one of the words for infinity and no number.
A number too large is refused when it is positive. -/
def float? (s : List Char) : Option (Value × List Char) :=
  let (negative, s) := sign s
  match s with
  | 'i' :: 'n' :: 'f' :: r => some (.float ⟨negative, binary64.infinity⟩, r)
  | 'n' :: 'a' :: 'n' :: r => some (.float ⟨negative, binary64.infinity + 2 ^ 51⟩, r)
  | _ => do
    let (whole, r) ← wholeDigits? s
    let (fraction, exponent, r) ← (match r with
      | 'e' :: r | 'E' :: r => (exponent? r).map fun p => ([], p.1, p.2)
      | '.' :: r => do
        let (fraction, r) ← run? Char.isDigit r
        match r with
        | 'e' :: r | 'E' :: r => (exponent? r).map fun p => (fraction, p.1, p.2)
        | r => some (fraction, 0, r)
      | _ => none)
    let magnitude := nearest (whole ++ fraction) (exponent - fraction.length)
    if magnitude = binary64.infinity ∧ !negative then none
    return (.float ⟨negative, magnitude⟩, r)

/-- Two digits from `lo` to `hi`. -/
def twoDigits? (lo hi : Nat) : List Char → Option (Nat × List Char)
  | a :: b :: r =>
    let n := ofDigits 10 [a, b]
    if a.isDigit ∧ b.isDigit ∧ lo ≤ n ∧ n ≤ hi then some (n, r) else none
  | _ => none

/-- The text behind a character. -/
def expect? (c : Char) : List Char → Option (List Char)
  | d :: r => if d = c then some r else none
  | [] => none

def daysIn (year month : Nat) : Nat :=
  let leap := year % 4 = 0 ∧ (year % 100 ≠ 0 ∨ year % 400 = 0)
  if month = 2 then (if leap then 29 else 28)
  else if month = 4 ∨ month = 6 ∨ month = 9 ∨ month = 11 then 30 else 31

/-- The text behind a date. -/
def date? (s : List Char) : Option (List Char) := do
  if s.length < 4 ∨ !(s.take 4).all Char.isDigit then none
  let r ← expect? '-' (s.drop 4)
  let (month, r) ← twoDigits? 1 12 r
  let r ← expect? '-' r
  let (_, r) ← twoDigits? 1 (daysIn (ofDigits 10 (s.take 4)) month) r
  return r

/-- The text behind a time of day. -/
def time? (s : List Char) : Option (List Char) := do
  let (_, r) ← twoDigits? 0 23 s
  let r ← expect? ':' r
  let (_, r) ← twoDigits? 0 59 r
  let r ← expect? ':' r
  let (_, r) ← twoDigits? 0 60 r
  match r with
  | '.' :: f =>
    if (f.takeWhile Char.isDigit).isEmpty then some r else some (f.dropWhile Char.isDigit)
  | r => some r

/-- The text behind the offset of a time, if there is one. -/
def offset? (s : List Char) : Option (List Char) :=
  match s with
  | 'Z' :: r | 'z' :: r => some r
  | '+' :: r | '-' :: r => do
    let (_, r) ← twoDigits? 0 23 r
    let r ← expect? ':' r
    let (_, r) ← twoDigits? 0 59 r
    return r
  | r => some r

/-- The name of the one member that a date or time has as an object. -/
def datetimeMember : String := "date and time"

/-- A date, a time of day, or both. It stands for an object with one reserved member, which no
structure knows. -/
def datetime? (s : List Char) : Option (Value × List Char) := do
  let r ← (match date? s with
    | some r =>
      match r with
      | 'T' :: t | 't' :: t | ' ' :: t =>
        match time? t with
        | some t => offset? t
        | none => some r
      | r => some r
    | none => time? s)
  return (.obj [(datetimeMember, .str (.ofList (s.take (s.length - r.length))))], r)

/-- A number, a date or a time. -/
def number? (s : List Char) : Option (Value × List Char) :=
  datetime? s <|> float? s <|> integer? s

end VpnTunnel.Document.Toml
