import VpnTunnel.Address.Block

/-!
# IPv4 intervals

Intervals of IPv4 addresses, what is left of one when another is cut out of it, and the
shortest list of blocks that covers one.
-/

namespace VpnTunnel

/-- The addresses from `first` to `last`, both included. -/
structure Ipv4Interval where
  first : Nat
  last : Nat
  le : first ≤ last
  lt : last < 2 ^ 32
deriving Repr

instance : DecidableEq Ipv4Interval := fun r s =>
  decidable_of_iff (r.first = s.first ∧ r.last = s.last) (by cases r; cases s; simp)

namespace Ipv4Interval

/-- The whole IPv4 space. -/
def full : Ipv4Interval := ⟨0, 2 ^ 32 - 1, by decide, by decide⟩

def ofBounds? (first last : Ipv4) : Option Ipv4Interval :=
  if h : first.toNat ≤ last.toNat then some ⟨first.toNat, last.toNat, h, last.isLt⟩ else none

/-- The members of a block. -/
def ofBlock (b : Ipv4Block) : Ipv4Interval := ⟨b.first, b.last, Nat.le_add_right _ _, b.last_lt⟩

def firstAddress (r : Ipv4Interval) : Ipv4 := ⟨r.first, Nat.lt_of_le_of_lt r.le r.lt⟩

def lastAddress (r : Ipv4Interval) : Ipv4 := ⟨r.last, r.lt⟩

instance : Membership Ipv4 Ipv4Interval := ⟨fun r a => r.first ≤ a.toNat ∧ a.toNat ≤ r.last⟩

instance (a : Ipv4) (r : Ipv4Interval) : Decidable (a ∈ r) :=
  inferInstanceAs (Decidable (r.first ≤ a.toNat ∧ a.toNat ≤ r.last))

/-- Whether two intervals share an address. -/
def meets (r s : Ipv4Interval) : Bool := r.first ≤ s.last && s.first ≤ r.last

/-- What is left of `r` without the addresses of `cut`: nothing, one interval or two. -/
def without (r cut : Ipv4Interval) : List Ipv4Interval :=
  if r.meets cut then
    (if h : r.first < cut.first ∧ cut.first ≤ r.last then
      [⟨r.first, cut.first - 1, by omega, by have := r.lt; omega⟩] else []) ++
    (if h : cut.last < r.last ∧ r.first ≤ cut.last then
      [⟨cut.last + 1, r.last, by omega, r.lt⟩] else [])
  else [r]

/-- The greatest `k ≤ most` for which a block of `2 ^ k` addresses may begin at `start` and has
room. -/
def blockExponent (start room : Nat) : (most : Nat) → Nat
  | 0 => 0
  | k + 1 =>
    if start % 2 ^ (k + 1) = 0 ∧ 2 ^ (k + 1) ≤ room then k + 1 else blockExponent start room k

theorem blockExponent_le (start room most : Nat) : blockExponent start room most ≤ most := by
  induction most with
  | zero => simp [blockExponent]
  | succ k ih => simp only [blockExponent]; split <;> omega

/-- Blocks that cover the addresses from `start` up to and without `stop`, each the largest that may
begin where it does. -/
def blocksFrom (start stop : Nat) (h : stop ≤ 2 ^ 32) : List Ipv4Block :=
  if hlt : start < stop then
    let k := blockExponent start (stop - start) 32
    ⟨⟨start, by omega⟩, 32 - k, by omega⟩ :: blocksFrom (start + 2 ^ k) stop h
  else []
termination_by stop - start
decreasing_by
  have := Nat.two_pow_pos (blockExponent start (stop - start) 32)
  omega

/-- The shortest list of blocks with the same addresses. -/
def toBlocks (r : Ipv4Interval) : List Ipv4Block := blocksFrom r.first (r.last + 1) r.lt

/-- Intervals by their first address, then by their last. -/
def before (r s : Ipv4Interval) : Bool :=
  r.first < s.first || (r.first == s.first && r.last ≤ s.last)

end Ipv4Interval

/-- What remains of some intervals when one more is cut out of them all. -/
def cutFrom (working : List Ipv4Interval) (cut : Ipv4Interval) : List Ipv4Interval :=
  working.flatMap (·.without cut)

/-- The intervals outside all the given blocks. -/
def intervalsOutside (excluded : List Ipv4Block) : List Ipv4Interval :=
  (excluded.map Ipv4Interval.ofBlock).foldl cutFrom [.full]

/-- The IPv4 addresses outside all the given blocks, as blocks in ascending order. -/
def complementBlocks (excluded : List Ipv4Block) : List Ipv4Block :=
  ((intervalsOutside excluded).mergeSort Ipv4Interval.before).flatMap Ipv4Interval.toBlocks

/-- The address lies in one of the blocks. -/
def Covers (blocks : List Ipv4Block) (a : Ipv4) : Prop := ∃ b ∈ blocks, a ∈ b

instance (blocks : List Ipv4Block) (a : Ipv4) : Decidable (Covers blocks a) :=
  inferInstanceAs (Decidable (∃ b ∈ blocks, a ∈ b))

end VpnTunnel
