import Mathlib.Data.List.Perm.Subperm
import Mathlib.Tactic.Choose
import VpnTunnel.Address.Interval

/-!
# Nesting of blocks

Two blocks that share an address are nested. A block that is maximal in a set of addresses
therefore absorbs every block of the set around its first address, and no cover of the set has
fewer blocks than a family of disjoint maximal ones.
-/

namespace VpnTunnel

namespace Ipv4Block

theorem mem_def {a : Ipv4} {b : Ipv4Block} : a ∈ b ↔ b.first ≤ a.toNat ∧ a.toNat ≤ b.last :=
  Iff.rfl

/-- The members are the addresses with the same leading bits. -/
theorem mem_iff_div_eq {a : Ipv4} {b : Ipv4Block} :
    a ∈ b ↔ a.toNat / b.size = b.addr.toNat / b.size := by
  have hpos := b.size_pos
  rw [mem_def, last, first, Nat.div_eq_iff hpos]
  have hlast : b.addr.toNat / b.size * b.size + b.size - 1 =
      b.addr.toNat / b.size * b.size + (b.size - 1) := by omega
  rw [hlast]

theorem addr_mem (b : Ipv4Block) : b.addr ∈ b := mem_iff_div_eq.mpr rfl

theorem mem_of_bits_eq_zero {b : Ipv4Block} (h : b.bits = 0) (a : Ipv4) : a ∈ b := by
  have hsize : b.size = 2 ^ 32 := by rw [size, h]
  rw [mem_iff_div_eq, hsize, Nat.div_eq_of_lt a.isLt, Nat.div_eq_of_lt b.addr.isLt]

theorem size_dvd_size {b c : Ipv4Block} (h : c.bits ≤ b.bits) : b.size ∣ c.size := by
  apply Nat.pow_dvd_pow
  omega

/-- Of two blocks that share an address the one with more leading bits lies in the other. -/
theorem subset_of_common {b c : Ipv4Block} {x : Ipv4} (hbits : c.bits ≤ b.bits)
    (hb : x ∈ b) (hc : x ∈ c) : ∀ a ∈ b, a ∈ c := by
  intro a ha
  obtain ⟨d, hd⟩ := size_dvd_size hbits
  rw [mem_iff_div_eq] at ha hb hc ⊢
  have hax : a.toNat / b.size = x.toNat / b.size := by rw [ha, hb]
  have hdiv (n : Nat) : n / c.size = n / b.size / d := by rw [hd, Nat.div_div_eq_div_mul]
  rw [← hc, hdiv, hdiv, hax]

/-- Of two blocks that share an address, one lies in the other. -/
theorem subset_or_subset {b c : Ipv4Block} {x : Ipv4} (hb : x ∈ b) (hc : x ∈ c) :
    (∀ a ∈ b, a ∈ c) ∨ ∀ a ∈ c, a ∈ b := by
  rcases Nat.le_total c.bits b.bits with h | h
  · exact .inl (subset_of_common h hb hc)
  · exact .inr (subset_of_common h hc hb)

theorem first_lt (b : Ipv4Block) : b.first < 2 ^ 32 :=
  Nat.lt_of_le_of_lt b.first_le b.addr.isLt

theorem first_le_last (b : Ipv4Block) : b.first ≤ b.last := Nat.le_add_right _ _

def firstAddress (b : Ipv4Block) : Ipv4 := ⟨b.first, b.first_lt⟩

def lastAddress (b : Ipv4Block) : Ipv4 := ⟨b.last, b.last_lt⟩

theorem firstAddress_mem (b : Ipv4Block) : b.firstAddress ∈ b := ⟨Nat.le_refl _, b.first_le_last⟩

theorem lastAddress_mem (b : Ipv4Block) : b.lastAddress ∈ b := ⟨b.first_le_last, Nat.le_refl _⟩

def Disjoint (b c : Ipv4Block) : Prop := ∀ a, ¬(a ∈ b ∧ a ∈ c)

theorem disjoint_of_last_lt_first {b c : Ipv4Block} (h : b.last < c.first) : b.Disjoint c := by
  rintro a ⟨hb, hc⟩
  have hle := hb.2
  have hge := hc.1
  omega

/-- The block lies in the set, and so does no block around its first address that outgrows it. -/
structure Maximal (S : Ipv4 → Prop) (b : Ipv4Block) : Prop where
  inside : ∀ a ∈ b, S a
  absorbs : ∀ c : Ipv4Block, (∀ a ∈ c, S a) → b.firstAddress ∈ c → ∀ a ∈ c, a ∈ b

/-- Blocks that meet one block of the set at their first addresses are one block. -/
theorem Maximal.not_disjoint {S : Ipv4 → Prop} {b b' c : Ipv4Block} (hb : b.Maximal S)
    (hc : ∀ a ∈ c, S a) (hmem : b.firstAddress ∈ c) (hmem' : b'.firstAddress ∈ c) :
    ¬b.Disjoint b' := by
  intro hdis
  have hin : b'.firstAddress ∈ b := hb.absorbs c hc hmem _ hmem'
  exact hdis _ ⟨hin, b'.firstAddress_mem⟩

end Ipv4Block

/-- A cover of a set needs a block of its own for each of some disjoint maximal blocks. -/
theorem length_le_length_of_maximal {S : Ipv4 → Prop} {bs cs : List Ipv4Block}
    (hmax : ∀ b ∈ bs, b.Maximal S) (hdis : bs.Pairwise Ipv4Block.Disjoint)
    (hcs : ∀ a, Covers cs a ↔ S a) : bs.length ≤ cs.length := by
  have hinside : ∀ c ∈ cs, ∀ a ∈ c, S a := fun c hc a ha => (hcs a).mp ⟨c, hc, ha⟩
  have hexists : ∀ b ∈ bs, ∃ c ∈ cs, b.firstAddress ∈ c := fun b hb =>
    (hcs b.firstAddress).mpr ((hmax b hb).inside _ b.firstAddress_mem)
  have : Nonempty Ipv4Block := ⟨.everything⟩
  choose! owner howner hfirst using hexists
  have hnodup : (bs.map owner).Nodup := by
    rw [List.Nodup, List.pairwise_map]
    apply hdis.imp_of_mem
    intro b b' hb hb' hd heq
    refine (hmax b hb).not_disjoint (hinside _ (howner b hb)) (hfirst b hb) ?_ hd
    rw [heq]
    exact hfirst b' hb'
  have hsubset : bs.map owner ⊆ cs := by
    intro c hc
    obtain ⟨b, hb, rfl⟩ := List.mem_map.mp hc
    exact howner b hb
  have hle := (hnodup.subperm hsubset).length_le
  rwa [List.length_map] at hle

end VpnTunnel
