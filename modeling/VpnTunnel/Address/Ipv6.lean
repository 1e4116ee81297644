import VpnTunnel.Address.Ipv4

/-!
# IPv6 addresses

An address is a number below `2 ^ 128`. Its text is eight hexadecimal groups between colons, of
which one run may be written as a double colon, and of which the last two may be written as a
dotted IPv4 address. The canonical text is lower case, without leading zeros, and writes the first
of the longest runs of at least two zero groups as a double colon; only the addresses that embed an
IPv4 address under `::ffff` end in a dotted part.
-/

namespace VpnTunnel

structure Ipv6 where
  toNat : Nat
  isLt : toNat < 2 ^ 128
deriving DecidableEq, Repr

namespace Ipv6

def zero : Ipv6 := ⟨0, by decide⟩

/-- The eight groups of sixteen bits, the most significant first. -/
def groups (a : Ipv6) : List Nat :=
  [a.toNat / 2 ^ 112, a.toNat / 2 ^ 96 % 2 ^ 16, a.toNat / 2 ^ 80 % 2 ^ 16,
    a.toNat / 2 ^ 64 % 2 ^ 16, a.toNat / 2 ^ 48 % 2 ^ 16, a.toNat / 2 ^ 32 % 2 ^ 16,
    a.toNat / 2 ^ 16 % 2 ^ 16, a.toNat % 2 ^ 16]

/-- The address with the given groups. -/
def ofGroups (gs : List Nat) : Ipv6 :=
  ⟨gs.foldl (fun n g => n * 2 ^ 16 + g) 0 % 2 ^ 128, Nat.mod_lt _ (by decide)⟩

/-- How many zeros stand in a row at place `i`. -/
def zerosAt (gs : List Nat) (i : Nat) : Nat := ((gs.drop i).takeWhile (· == 0)).length

/-- The place where the first of the longest rows of zeros begins. -/
def longestRun (gs : List Nat) : Nat :=
  (List.range gs.length).foldl (fun best i => if zerosAt gs best < zerosAt gs i then i else best) 0

/-- Groups in hexadecimal between colons. -/
def joinGroups (gs : List Nat) : List Char := [':'].intercalate (gs.map (Nat.toDigits 16))

/-- The IPv4 address under `::ffff`, if this is one. -/
def embedded? (a : Ipv6) : Option Ipv4 :=
  if h : a.toNat / 2 ^ 32 = 0xffff then some ⟨a.toNat - 0xffff * 2 ^ 32, by omega⟩ else none

def toChars (a : Ipv6) : List Char :=
  match a.embedded? with
  | some v4 => "::ffff:".toList ++ v4.toChars
  | none =>
    let gs := a.groups
    let start := longestRun gs
    let run := zerosAt gs start
    if 2 ≤ run then joinGroups (gs.take start) ++ [':', ':'] ++ joinGroups (gs.drop (start + run))
    else joinGroups gs

def toString (a : Ipv6) : String := String.ofList a.toChars

/-- The value of a hexadecimal digit of either case. -/
def hexValue? (c : Char) : Option Nat :=
  if '0' ≤ c ∧ c ≤ '9' then some (c.toNat - '0'.toNat)
  else if 'a' ≤ c ∧ c ≤ 'f' then some (c.toNat - 'a'.toNat + 10)
  else if 'A' ≤ c ∧ c ≤ 'F' then some (c.toNat - 'A'.toNat + 10)
  else none

/-- One to four hexadecimal digits. -/
def group? (s : List Char) : Option Nat :=
  if 1 ≤ s.length ∧ s.length ≤ 4 then
    (s.mapM hexValue?).map fun ds => ds.foldl (fun n d => n * 16 + d) 0
  else none

/-- The last part of a row of groups: a group, or where `dotted` permits an IPv4 address, which
counts as two. -/
def lastPart? (f : AddressForm) (dotted : Bool) (s : List Char) : Option (List Nat) :=
  match Ipv4.ofChars? f s with
  | some v4 => if dotted then some [v4.toNat / 2 ^ 16, v4.toNat % 2 ^ 16] else none
  | none => (group? s).map fun g => [g]

/-- Groups between colons; no characters are no groups. -/
def row? (f : AddressForm) (dotted : Bool) (s : List Char) : Option (List Nat) :=
  if s = [] then some []
  else do
    let parts := s.splitOn ':'
    let front ← parts.dropLast.mapM group?
    let back ← lastPart? f dotted (parts.getLastD [])
    return front ++ back

/-- The text before and after the first double colon. -/
def splitRun : List Char → Option (List Char × List Char)
  | ':' :: ':' :: r => some ([], r)
  | c :: r => (splitRun r).map fun p => (c :: p.1, p.2)
  | [] => none

/-- Reads eight groups, or fewer around a double colon. -/
def ofChars? (f : AddressForm) (s : List Char) : Option Ipv6 :=
  match splitRun s with
  | none => do
    let gs ← row? f true s
    if gs.length = 8 then return ofGroups gs else none
  | some (before, after) => do
    let front ← row? f false before
    let back ← row? f true after
    let n := front.length + back.length
    if n ≤ 7 ∨ (f.emptyRun ∧ n = 8 ∧ front.length ≤ 7) then
      return ofGroups (front ++ List.replicate (8 - n) 0 ++ back)
    else none

end Ipv6

end VpnTunnel
