import VpnTunnel.Number.Power
import VpnTunnel.Text.Decimal

/-!
# IPv4 addresses

An address is a number below `2 ^ 32`; its text is four decimal octets between dots.
-/

namespace VpnTunnel

/-- How strictly the text of an address is read. -/
structure AddressForm where
  /-- Octets may carry leading zeros. -/
  paddedOctets : Bool
  /-- A double colon may stand for no group at all. -/
  emptyRun : Bool

/-- The form of a bare address. -/
def AddressForm.host : AddressForm := ⟨false, false⟩

/-- The form of the address in front of a slash. -/
def AddressForm.block : AddressForm := ⟨true, true⟩

structure Ipv4 where
  toNat : Nat
  isLt : toNat < 2 ^ 32
deriving DecidableEq, Repr

namespace Ipv4

def ofOctets (a b c d : Fin 256) : Ipv4 :=
  ⟨a.val * 2 ^ 24 + b.val * 2 ^ 16 + c.val * 2 ^ 8 + d.val, by omega⟩

/-- The four octets, the most significant first. -/
def octets (a : Ipv4) : List Nat :=
  [a.toNat / 2 ^ 24, a.toNat / 2 ^ 16 % 256, a.toNat / 2 ^ 8 % 256, a.toNat % 256]

def toChars (a : Ipv4) : List Char := ['.'].intercalate (a.octets.map Text.digits)

def toString (a : Ipv4) : String := String.ofList a.toChars

/-- One to three digits of a value below 256. -/
def octet? (f : AddressForm) (s : List Char) : Option (Fin 256) :=
  if s.length ≤ 3 ∧ (f.paddedOctets ∨ s.length = 1 ∨ s.head? ≠ some '0') then
    match Text.readDigits? s with
    | some n => if h : n < 256 then some ⟨n, h⟩ else none
    | none => none
  else none

/-- Reads exactly four octets between dots. -/
def ofChars? (f : AddressForm) (s : List Char) : Option Ipv4 :=
  match (s.splitOn '.').map (octet? f) with
  | [some a, some b, some c, some d] => some (ofOctets a b c d)
  | _ => none

/-- The address with no bit set. -/
def zero : Ipv4 := ⟨0, by decide⟩

end Ipv4

end VpnTunnel
