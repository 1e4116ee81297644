import Mathlib.Data.List.Sort
import VpnTunnel.Proofs.Address.Complement

/-!
# One list of blocks for each set of addresses

The blocks of a complement are the maximal blocks of its addresses, with cleared host bits and in
ascending order. So the list depends on the addresses alone, and not on the blocks they were
excluded by.
-/

namespace VpnTunnel

namespace Ipv4Block

variable {b c : Ipv4Block} {S : Ipv4 → Prop}

theorem last_eq_first_add (b : Ipv4Block) : b.last + 1 = b.first + b.size := by
  have hpos := b.size_pos
  rw [last]
  omega

theorem bits_eq_of_size_eq (h : b.size = c.size) : b.bits = c.bits := by
  have hexp : 32 - b.bits = 32 - c.bits := (Nat.pow_right_inj (by decide)).mp h
  have hb := b.bits_le
  have hc := c.bits_le
  omega

/-- A block with cleared host bits is determined by its members. -/
theorem eq_of_mem_iff (hb : b.trunc = b) (hc : c.trunc = c) (h : ∀ a, a ∈ b ↔ a ∈ c) : b = c := by
  have hfirst : b.first = c.first := by
    apply Nat.le_antisymm
    · exact ((h c.firstAddress).mpr c.firstAddress_mem).1
    · exact ((h b.firstAddress).mp b.firstAddress_mem).1
  have hlast : b.last = c.last := by
    apply Nat.le_antisymm
    · exact ((h b.lastAddress).mp b.lastAddress_mem).2
    · exact ((h c.lastAddress).mpr c.lastAddress_mem).2
  have hsize : b.size = c.size := by
    have hb := b.last_eq_first_add
    have hc := c.last_eq_first_add
    omega
  rw [← hb, ← hc]
  simp only [trunc, hfirst, bits_eq_of_size_eq hsize]

/-- Two maximal blocks of a set, the one with the first address of the other, have the same
members. -/
theorem Maximal.mem_iff (hb : b.Maximal S) (hc : c.Maximal S) (h : c.firstAddress ∈ b) :
    ∀ a, a ∈ b ↔ a ∈ c := by
  have hbc : ∀ a ∈ b, a ∈ c := hc.absorbs b hb.inside h
  have hcb : ∀ a ∈ c, a ∈ b := hb.absorbs c hc.inside (hbc _ b.firstAddress_mem)
  exact fun a => ⟨hbc a, hcb a⟩

def Precedes (b c : Ipv4Block) : Prop := b.last < c.first

instance : Std.Irrefl Precedes where
  irrefl b h := Nat.not_lt_of_le b.first_le_last h

instance : Std.Antisymm Precedes where
  antisymm b c hbc hcb := by
    have hb := b.first_le_last
    have hc := c.first_le_last
    rw [Precedes] at hbc hcb
    omega

end Ipv4Block

/-- No block precedes itself. -/
theorem nodup_of_precedes {bs : List Ipv4Block} (h : bs.Pairwise Ipv4Block.Precedes) :
    bs.Nodup := by
  refine h.imp fun {b c} hlt heq => ?_
  rw [heq] at hlt
  exact Std.Irrefl.irrefl c hlt

theorem pairwise_complementBlocks (excluded : List Ipv4Block) :
    (complementBlocks excluded).Pairwise Ipv4Block.Precedes := by
  rw [complementBlocks_eq_flatMap]
  exact (runs_intervalsOutside excluded).pairwise_flatMap

theorem nodup_complementBlocks (excluded : List Ipv4Block) : (complementBlocks excluded).Nodup :=
  nodup_of_precedes (pairwise_complementBlocks excluded)

/-- The blocks of the complement are the maximal ones outside the excluded blocks. -/
theorem mem_complementBlocks_iff (excluded : List Ipv4Block) (b : Ipv4Block) :
    b ∈ complementBlocks excluded ↔ b.trunc = b ∧ b.Maximal fun a => ¬Covers excluded a := by
  have hruns := runs_intervalsOutside excluded
  rw [complementBlocks_eq_flatMap]
  constructor
  · intro hb
    exact ⟨Runs.trunc_of_mem_flatMap _ b hb, hruns.maximal_of_mem_flatMap b hb⟩
  · rintro ⟨htrunc, hmax⟩
    -- the block of the complement that has the first address of `b` is `b`
    obtain ⟨c, hc, hmem⟩ :=
      (hruns.covers_flatMap b.firstAddress).mpr (hmax.inside _ b.firstAddress_mem)
    have heq : c = b := by
      apply Ipv4Block.eq_of_mem_iff (Runs.trunc_of_mem_flatMap _ c hc) htrunc
      exact (hruns.maximal_of_mem_flatMap c hc).mem_iff hmax hmem
    rwa [← heq]

/-- The complement depends on the addresses alone, and not on the blocks that give them. -/
theorem complementBlocks_congr {E F : List Ipv4Block} (h : ∀ a, Covers E a ↔ Covers F a) :
    complementBlocks E = complementBlocks F := by
  apply (pairwise_complementBlocks E).eq_of_mem_iff (pairwise_complementBlocks F)
  intro b
  have hset : (fun a => ¬Covers E a) = fun a => ¬Covers F a := by
    funext a
    rw [h a]
  rw [mem_complementBlocks_iff, mem_complementBlocks_iff, hset]

/-- Taking the complement twice leads back to the addresses. -/
theorem covers_complementBlocks_twice (E : List Ipv4Block) (a : Ipv4) :
    Covers (complementBlocks (complementBlocks E)) a ↔ Covers E a := by
  have hE := (runs_intervalsOutside E).covers_flatMap a
  have hF := (runs_intervalsOutside (complementBlocks E)).covers_flatMap a
  rw [← complementBlocks_eq_flatMap] at hE hF
  rw [hF, hE, Classical.not_not]

/-- Blocks that have the same complement have the same addresses. -/
theorem covers_iff_of_complementBlocks_eq {E F : List Ipv4Block}
    (h : complementBlocks E = complementBlocks F) (a : Ipv4) : Covers E a ↔ Covers F a := by
  rw [← covers_complementBlocks_twice E, h, covers_complementBlocks_twice]

/-- Blocks with the same addresses, and no others, have the same complement. A third complement is
the first one over again, and the second is one list of blocks for all that have the same
addresses. -/
theorem complementBlocks_canonical (E : List Ipv4Block) :
    (∀ F, complementBlocks F = complementBlocks E ↔ ∀ a, Covers F a ↔ Covers E a) ∧
    complementBlocks (complementBlocks (complementBlocks E)) = complementBlocks E ∧
    (∀ a, Covers (complementBlocks (complementBlocks E)) a ↔ Covers E a) ∧
    ∀ F, complementBlocks (complementBlocks F) = complementBlocks (complementBlocks E) ↔
      ∀ a, Covers F a ↔ Covers E a := by
  refine ⟨fun F => ?_, ?_, covers_complementBlocks_twice E, fun F => ?_⟩
  · exact ⟨covers_iff_of_complementBlocks_eq, complementBlocks_congr⟩
  · exact complementBlocks_congr (covers_complementBlocks_twice E)
  · constructor
    · intro h a
      rw [← covers_complementBlocks_twice F, h, covers_complementBlocks_twice]
    · intro h
      rw [complementBlocks_congr h]

end VpnTunnel
