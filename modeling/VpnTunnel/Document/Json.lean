import VpnTunnel.Address.Ipv6
import VpnTunnel.Document.Value

/-!
# JSON texts

A strict reader. Numbers that are written as integers and fit 64 bits stay integers; all others
become double-precision numbers. The digits of a decimal that do not fit 64 bits are dropped.
-/

namespace VpnTunnel.Document.Json

open Number

def isSpace (c : Char) : Bool := c == ' ' || c == '\t' || c == '\n' || c == '\r'

def skipSpace (s : List Char) : List Char := s.dropWhile isSpace

/-- A part of a string: a character, or a UTF-16 unit given by its number. -/
inductive Piece where
  | char (c : Char)
  | unit (n : Nat)
deriving DecidableEq, Repr

/-- The value of four hexadecimal digits. -/
def hex4? (a b c d : Char) : Option Nat := do
  return (← Ipv6.hexValue? a) * 4096 + (← Ipv6.hexValue? b) * 256 + (← Ipv6.hexValue? c) * 16 +
    (← Ipv6.hexValue? d)

/-- The character that a short escape stands for. -/
def escape? : Char → Option Char
  | '"' => some '"'
  | '\\' => some '\\'
  | '/' => some '/'
  | 'b' => some '\x08'
  | 'f' => some '\x0c'
  | 'n' => some '\n'
  | 'r' => some '\r'
  | 't' => some '\t'
  | _ => none

/-- The rest of a string behind its opening quote, in parts, and the text behind its closing one. -/
def pieces? : List Char → Option (List Piece × List Char)
  | [] => none
  | '"' :: r => some ([], r)
  | '\\' :: 'u' :: a :: b :: c :: d :: r => do
    let n ← hex4? a b c d
    let (ps, rest) ← pieces? r
    return (.unit n :: ps, rest)
  | '\\' :: c :: r => do
    let e ← escape? c
    let (ps, rest) ← pieces? r
    return (.char e :: ps, rest)
  | c :: r => do
    if c.toNat < 0x20 ∨ c = '\\' then none
    let (ps, rest) ← pieces? r
    return (.char c :: ps, rest)

/-- The characters of a string. A unit of a surrogate pair must stand in its pair. -/
def joinPieces? : List Piece → Option (List Char)
  | [] => some []
  | .char c :: r => (joinPieces? r).map (c :: ·)
  | .unit n :: r =>
    if n < 0xD800 ∨ 0xE000 ≤ n then (joinPieces? r).map (Char.ofNat n :: ·)
    else if n < 0xDC00 then
      match r with
      | .unit m :: r' =>
        if 0xDC00 ≤ m ∧ m < 0xE000 then
          (joinPieces? r').map (Char.ofNat (0x10000 + (n - 0xD800) * 1024 + (m - 0xDC00)) :: ·)
        else none
      | _ => none
    else none

/-- A string behind its opening quote; none stands for one whose escapes make no text. -/
def string? (s : List Char) : Option (Option String × List Char) :=
  (pieces? s).map fun p => ((joinPieces? p.1).map String.ofList, p.2)

/-- The value of as many leading digits as fit 64 bits after `significand`, and the rest. -/
def fitting (significand : Nat) : List Char → Nat × List Char
  | [] => (significand, [])
  | c :: r =>
    let next := significand * 10 + (c.toNat - '0'.toNat)
    if next < 2 ^ 64 then fitting next r else (significand, c :: r)

/-- The value of a number from its parts: the digits before the point, those after it, and the
exponent if there is one. -/
def numberValue (negative : Bool) (whole : List Char) (fraction : Option (List Char))
    (exponent : Option Int) : Value :=
  let (n, dropped) := fitting 0 whole
  match fraction, exponent, dropped with
  | none, none, [] =>
    if negative then
      if n = 0 ∨ 2 ^ 63 < n then .float ⟨true, binary64.round n 1⟩ else .int (-n)
    else .int n
  | _, _, _ =>
    let (m, unread) := fitting n (fraction.getD [])
    let scale : Int := dropped.length - ((fraction.getD []).length - unread.length)
    match Double.ofDecimal? negative m (scale + exponent.getD 0) with
    | some x => .float x
    | none => .illFormed

/-- The exponent of a number, behind the letter that announces it. -/
def exponent? (s : List Char) : Option (Int × List Char) :=
  let (negative, s) := match s with
    | '+' :: r => (false, r)
    | '-' :: r => (true, r)
    | r => (false, r)
  let ds := s.takeWhile Char.isDigit
  if ds = [] then none
  else
    let n : Int := Nat.ofDigitChars 10 ds 0
    some (if negative then -n else n, s.dropWhile Char.isDigit)

def number? (s : List Char) : Option (Value × List Char) := do
  let (negative, s) := match s with
    | '-' :: r => (true, r)
    | r => (false, r)
  let whole := s.takeWhile Char.isDigit
  let s := s.dropWhile Char.isDigit
  if whole = [] ∨ (whole.head? = some '0' ∧ whole ≠ ['0']) then none
  let (fraction, s) ← match s with
    | '.' :: r =>
      let ds := r.takeWhile Char.isDigit
      if ds = [] then none else some (some ds, r.dropWhile Char.isDigit)
    | r => some (none, r)
  let (exponent, s) ← match s with
    | 'e' :: r | 'E' :: r => (exponent? r).map fun p => (some p.1, p.2)
    | r => some (none, r)
  return (numberValue negative whole fraction exponent, s)

/-- The object of some members; one whose name is no text spoils it. -/
def object (members : List (Option String × Value)) : Value :=
  match members.mapM fun m => m.1.map fun name => (name, m.2) with
  | some ms => .obj ms
  | none => .illFormed

mutual

/-- A value and the text behind it. The first argument bounds the nesting of calls. -/
def value? : Nat → List Char → Option (Value × List Char)
  | 0, _ => none
  | fuel + 1, s =>
    match skipSpace s with
    | 'n' :: 'u' :: 'l' :: 'l' :: r => some (.null, r)
    | 't' :: 'r' :: 'u' :: 'e' :: r => some (.bool true, r)
    | 'f' :: 'a' :: 'l' :: 's' :: 'e' :: r => some (.bool false, r)
    | '"' :: r => (string? r).map fun p => ((p.1.map Value.str).getD .illFormed, p.2)
    | '[' :: r =>
      match skipSpace r with
      | ']' :: r' => some (.arr [], r')
      | r' => (items? fuel r').map fun p => (.arr p.1, p.2)
    | '\x7b' :: r =>
      match skipSpace r with
      | '\x7d' :: r' => some (.obj [], r')
      | r' => (members? fuel r').map fun p => (object p.1, p.2)
    | r => number? r

/-- The items of an array that has some. -/
def items? : Nat → List Char → Option (List Value × List Char)
  | 0, _ => none
  | fuel + 1, s => do
    let (v, s) ← value? fuel s
    match skipSpace s with
    | ',' :: r => (items? fuel r).map fun p => (v :: p.1, p.2)
    | ']' :: r => some ([v], r)
    | _ => none

/-- The members of an object that has some. -/
def members? : Nat → List Char → Option (List (Option String × Value) × List Char)
  | 0, _ => none
  | fuel + 1, s => do
    match skipSpace s with
    | '"' :: r =>
      let (name, r) ← string? r
      match skipSpace r with
      | ':' :: r =>
        let (v, r) ← value? fuel r
        match skipSpace r with
        | ',' :: r => (members? fuel r).map fun p => ((name, v) :: p.1, p.2)
        | '\x7d' :: r => some ([(name, v)], r)
        | _ => none
      | _ => none
    | _ => none

end

/-- The value of a whole text. Each call takes a character or calls one that does, so twice the
length bounds their nesting. -/
def parse? (s : List Char) : Option Value := do
  let (v, r) ← value? (2 * s.length + 2) s
  if skipSpace r = [] then some v else none

def ofString? (s : String) : Option Value := parse? s.toList

end VpnTunnel.Document.Json
