import VpnTunnel.Address.Ipv6
import VpnTunnel.Text.Blank

/-!
# Addresses and address blocks

An address of either family, and the blocks of addresses that share their leading bits. A block
keeps the address it was written with, host bits included; its members do not depend on them.
-/

namespace VpnTunnel

/-- An address of either family. -/
inductive Address where
  | v4 (a : Ipv4)
  | v6 (a : Ipv6)
deriving DecidableEq, Repr

namespace Address

def isV4 : Address → Bool
  | v4 _ => true
  | v6 _ => false

def toChars : Address → List Char
  | v4 a => a.toChars
  | v6 a => a.toChars

def toString (a : Address) : String := String.ofList a.toChars

def ofChars? (s : List Char) : Option Address :=
  (Ipv4.ofChars? .host s).map v4 <|> (Ipv6.ofChars? .host s).map v6

def ofString? (s : String) : Option Address := ofChars? s.toList

end Address

/-- The IPv4 addresses that agree with `addr` in the leading `bits` bits. -/
structure Ipv4Block where
  addr : Ipv4
  bits : Nat
  bits_le : bits ≤ 32
deriving DecidableEq, Repr

namespace Ipv4Block

/-- The number of members. -/
def size (b : Ipv4Block) : Nat := 2 ^ (32 - b.bits)

/-- The least member, as a number. -/
def first (b : Ipv4Block) : Nat := b.addr.toNat / b.size * b.size

/-- The greatest member, as a number. -/
def last (b : Ipv4Block) : Nat := b.first + (b.size - 1)

theorem size_pos (b : Ipv4Block) : 0 < b.size := Nat.two_pow_pos _

theorem first_le (b : Ipv4Block) : b.first ≤ b.addr.toNat := Nat.div_mul_le_self _ _

theorem size_mul (b : Ipv4Block) : b.size * 2 ^ b.bits = 2 ^ 32 := by
  rw [size, ← Nat.pow_add]
  congr 1
  have := b.bits_le
  omega

theorem last_lt (b : Ipv4Block) : b.last < 2 ^ 32 := by
  have hq : b.addr.toNat / b.size < 2 ^ b.bits := by
    rw [Nat.div_lt_iff_lt_mul b.size_pos, Nat.mul_comm, b.size_mul]
    exact b.addr.isLt
  have hm : (b.addr.toNat / b.size + 1) * b.size ≤ 2 ^ b.bits * b.size :=
    Nat.mul_le_mul_right _ hq
  rw [Nat.mul_comm (2 ^ b.bits), b.size_mul, Nat.add_mul] at hm
  have := b.size_pos
  simp only [last, first]
  omega

instance : Membership Ipv4 Ipv4Block := ⟨fun b a => b.first ≤ a.toNat ∧ a.toNat ≤ b.last⟩

instance (a : Ipv4) (b : Ipv4Block) : Decidable (a ∈ b) :=
  inferInstanceAs (Decidable (b.first ≤ a.toNat ∧ a.toNat ≤ b.last))

/-- The same block with its host bits cleared. -/
def trunc (b : Ipv4Block) : Ipv4Block :=
  { b with addr := ⟨b.first, Nat.lt_of_le_of_lt b.first_le b.addr.isLt⟩ }

/-- The block of a single address. -/
def single (a : Ipv4) : Ipv4Block := ⟨a, 32, by decide⟩

/-- All of the IPv4 space. -/
def everything : Ipv4Block := ⟨.zero, 0, by decide⟩

def toChars (b : Ipv4Block) : List Char := b.addr.toChars ++ '/' :: Text.digits b.bits

def toString (b : Ipv4Block) : String := String.ofList b.toChars

end Ipv4Block

/-- The IPv6 addresses that agree with `addr` in the leading `bits` bits. -/
structure Ipv6Block where
  addr : Ipv6
  bits : Nat
  bits_le : bits ≤ 128
deriving DecidableEq, Repr

namespace Ipv6Block

def size (b : Ipv6Block) : Nat := 2 ^ (128 - b.bits)

def first (b : Ipv6Block) : Nat := b.addr.toNat / b.size * b.size

def last (b : Ipv6Block) : Nat := b.first + (b.size - 1)

instance : Membership Ipv6 Ipv6Block := ⟨fun b a => b.first ≤ a.toNat ∧ a.toNat ≤ b.last⟩

instance (a : Ipv6) (b : Ipv6Block) : Decidable (a ∈ b) :=
  inferInstanceAs (Decidable (b.first ≤ a.toNat ∧ a.toNat ≤ b.last))

def single (a : Ipv6) : Ipv6Block := ⟨a, 128, by decide⟩

/-- All of the IPv6 space. -/
def everything : Ipv6Block := ⟨.zero, 0, by decide⟩

def toChars (b : Ipv6Block) : List Char := b.addr.toChars ++ '/' :: Text.digits b.bits

end Ipv6Block

/-- A block of either family. -/
inductive Block where
  | v4 (b : Ipv4Block)
  | v6 (b : Ipv6Block)
deriving DecidableEq, Repr

/-- The text before and after the only slash. -/
def splitSlash? (s : List Char) : Option (List Char × List Char) :=
  match s.splitOn '/' with
  | [before, after] => some (before, after)
  | _ => none

/-- The number of leading bits after a slash: one to `width` digits, at most `most`. -/
def readBits? (width most : Nat) (s : List Char) : Option { n : Nat // n ≤ most } :=
  if s.length ≤ width then
    match Text.readDigits? s with
    | some n => if h : n ≤ most then some ⟨n, h⟩ else none
    | none => none
  else none

def Ipv4Block.ofChars? (s : List Char) : Option Ipv4Block := do
  let (before, after) ← splitSlash? s
  let addr ← Ipv4.ofChars? .block before
  let bits ← readBits? 2 32 after
  return ⟨addr, bits.val, bits.property⟩

def Ipv6Block.ofChars? (s : List Char) : Option Ipv6Block := do
  let (before, after) ← splitSlash? s
  let addr ← Ipv6.ofChars? .block before
  let bits ← readBits? 3 128 after
  return ⟨addr, bits.val, bits.property⟩

namespace Block

/-- Membership joins no address of one family with a block of the other. -/
def Contains : Block → Address → Prop
  | v4 b, .v4 a => a ∈ b
  | v6 b, .v6 a => a ∈ b
  | _, _ => False

instance : Membership Address Block := ⟨Contains⟩

instance : (b : Block) → (a : Address) → Decidable (a ∈ b)
  | v4 b, .v4 a => inferInstanceAs (Decidable (a ∈ b))
  | v6 b, .v6 a => inferInstanceAs (Decidable (a ∈ b))
  | v4 _, .v6 _ => inferInstanceAs (Decidable False)
  | v6 _, .v4 _ => inferInstanceAs (Decidable False)

def toChars : Block → List Char
  | v4 b => b.toChars
  | v6 b => b.toChars

def toString (b : Block) : String := String.ofList b.toChars

def ofChars? (s : List Char) : Option Block :=
  (Ipv4Block.ofChars? s).map v4 <|> (Ipv6Block.ofChars? s).map v6

end Block

end VpnTunnel
