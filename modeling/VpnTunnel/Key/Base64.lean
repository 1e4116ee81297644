import VpnTunnel.Number.Power

/-!
# Base64

The standard alphabet with mandatory padding. Reading is strict: the last group is padded to four
characters and its unused bits are zero, so that every byte string has exactly one text.
-/

namespace VpnTunnel.Base64

/-- The character for a value below 64. -/
def sextetChar (n : Nat) : Char :=
  if n < 26 then Char.ofNat ('A'.toNat + n)
  else if n < 52 then Char.ofNat ('a'.toNat + (n - 26))
  else if n < 62 then Char.ofNat ('0'.toNat + (n - 52))
  else if n = 62 then '+' else '/'

/-- The value of a character of the alphabet. -/
def sextet? (c : Char) : Option Nat :=
  if 'A' ≤ c ∧ c ≤ 'Z' then some (c.toNat - 'A'.toNat)
  else if 'a' ≤ c ∧ c ≤ 'z' then some (c.toNat - 'a'.toNat + 26)
  else if '0' ≤ c ∧ c ≤ '9' then some (c.toNat - '0'.toNat + 52)
  else if c = '+' then some 62
  else if c = '/' then some 63
  else none

def encode : List UInt8 → List Char
  | a :: b :: c :: r =>
    let n := a.toNat * 2 ^ 16 + b.toNat * 2 ^ 8 + c.toNat
    sextetChar (n / 2 ^ 18) :: sextetChar (n / 2 ^ 12 % 64) :: sextetChar (n / 2 ^ 6 % 64) ::
      sextetChar (n % 64) :: encode r
  | [a, b] =>
    let n := a.toNat * 2 ^ 10 + b.toNat * 2 ^ 2
    [sextetChar (n / 2 ^ 12), sextetChar (n / 2 ^ 6 % 64), sextetChar (n % 64), '=']
  | [a] =>
    let n := a.toNat * 2 ^ 4
    [sextetChar (n / 2 ^ 6), sextetChar (n % 64), '=', '=']
  | [] => []

/-- Two sextets for one byte; the last four bits must be clear. -/
def decodeOne? (p q : Nat) : Option (List UInt8) :=
  let n := p * 64 + q
  if n % 16 = 0 then some [UInt8.ofNat (n / 16)] else none

/-- Three sextets for two bytes; the last two bits must be clear. -/
def decodeTwo? (p q r : Nat) : Option (List UInt8) :=
  let n := (p * 64 + q) * 64 + r
  if n % 4 = 0 then some [UInt8.ofNat (n / 2 ^ 10), UInt8.ofNat (n / 4 % 256)] else none

/-- Four sextets for three bytes. -/
def decodeThree (p q r s : Nat) : List UInt8 :=
  let n := ((p * 64 + q) * 64 + r) * 64 + s
  [UInt8.ofNat (n / 2 ^ 16), UInt8.ofNat (n / 2 ^ 8 % 256), UInt8.ofNat (n % 256)]

def decode? : List Char → Option (List UInt8)
  | [] => some []
  | [a, b, '=', '='] => do decodeOne? (← sextet? a) (← sextet? b)
  | [a, b, c, '='] => do decodeTwo? (← sextet? a) (← sextet? b) (← sextet? c)
  | a :: b :: c :: d :: r => do
    let front := decodeThree (← sextet? a) (← sextet? b) (← sextet? c) (← sextet? d)
    return front ++ (← decode? r)
  | _ => none

end VpnTunnel.Base64
