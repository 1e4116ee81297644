import Mathlib.Algebra.GroupWithZero.Nat
import VpnTunnel.Proofs.Address.Canonical

/-!
# How many blocks a set of addresses takes

A maximal block that is not the whole space is one half of a block that leaves the set, so the other
half has an address outside the set. Such an address and the number of leading bits determine the
block: there are no more maximal blocks than pairs of the two.
-/

namespace VpnTunnel

namespace Ipv4Block

variable {b c : Ipv4Block} {S : Ipv4 → Prop} {x : Ipv4}

/-- The block that has this one as a half. The whole space is no half and stays as it is. -/
def doubled (b : Ipv4Block) : Ipv4Block :=
  ⟨b.addr, b.bits - 1, Nat.le_trans (Nat.sub_le b.bits 1) b.bits_le⟩

theorem size_doubled (h : 0 < b.bits) : b.doubled.size = b.size * 2 := by
  have hle := b.bits_le
  have hexp : 32 - b.doubled.bits = 32 - b.bits + 1 := by
    change 32 - (b.bits - 1) = 32 - b.bits + 1
    omega
  rw [size, hexp, Nat.pow_succ, size]

theorem mem_doubled {a : Ipv4} (h : a ∈ b) : a ∈ b.doubled :=
  subset_of_common (Nat.sub_le b.bits 1) b.addr_mem b.doubled.addr_mem a h

theorem mem_doubled_iff (h : 0 < b.bits) {a : Ipv4} :
    a ∈ b.doubled ↔ a.toNat / b.size / 2 = b.addr.toNat / b.size / 2 := by
  rw [mem_iff_div_eq, size_doubled h, Nat.div_div_eq_div_mul, Nat.div_div_eq_div_mul]
  rfl

/-- One half of the space begins with it, the other ends with it. -/
theorem first_eq_zero_or_last_eq (h : b.bits = 1) : b.first = 0 ∨ b.last + 1 = 2 ^ 32 := by
  have hlt := b.addr.isLt
  have hsize : b.size = 2 ^ 31 := by rw [size, h]
  rw [last_eq_first_add, first, hsize]
  omega

def Beside (b : Ipv4Block) (x : Ipv4) : Prop := x ∈ b.doubled ∧ x ∉ b

theorem Beside.bits_pos (h : b.Beside x) : 0 < b.bits := by
  apply Nat.pos_of_ne_zero
  intro hzero
  exact h.2 (mem_of_bits_eq_zero hzero x)

/-- There is one block of each size beside an address. -/
theorem Beside.eq (hb : b.Beside x) (hc : c.Beside x) (hbits : b.bits = c.bits)
    (hbtrunc : b.trunc = b) (hctrunc : c.trunc = c) : b = c := by
  have hsize : c.size = b.size := by rw [size, size, hbits]
  obtain ⟨hbin, hbout⟩ := hb
  obtain ⟨hcin, hcout⟩ := hc
  have hpos : 0 < b.bits := Beside.bits_pos ⟨hbin, hbout⟩
  rw [mem_doubled_iff hpos] at hbin
  rw [mem_doubled_iff (hbits ▸ hpos), hsize] at hcin
  rw [mem_iff_div_eq] at hbout
  rw [mem_iff_div_eq, hsize] at hcout
  have hquotient : b.addr.toNat / b.size = c.addr.toNat / b.size := by omega
  apply eq_of_mem_iff hbtrunc hctrunc
  intro a
  rw [mem_iff_div_eq, mem_iff_div_eq, hsize, hquotient]

/-- A maximal block of a set that is not all of the space has an address beside it that does not
belong to the set. -/
theorem Maximal.exists_beside (hb : b.Maximal S) (hout : ∃ a, ¬S a) :
    ∃ x, ¬S x ∧ b.Beside x := by
  by_contra hnone
  push Not at hnone
  have hinside : ∀ a ∈ b.doubled, S a := by
    intro a ha
    by_contra hS
    exact hnone a hS ⟨ha, fun hmem => hS (hb.inside a hmem)⟩
  have hback : ∀ a ∈ b.doubled, a ∈ b :=
    hb.absorbs b.doubled hinside (mem_doubled b.firstAddress_mem)
  have hpos : 0 < b.bits := by
    apply Nat.pos_of_ne_zero
    intro hzero
    obtain ⟨a, ha⟩ := hout
    exact ha (hb.inside a (mem_of_bits_eq_zero hzero a))
  -- no block has room for one of twice its size
  have hfirst : b.first ≤ b.doubled.first := (hback _ b.doubled.firstAddress_mem).1
  have hlast : b.doubled.last ≤ b.last := (hback _ b.doubled.lastAddress_mem).2
  have hend := b.last_eq_first_add
  have hend' := b.doubled.last_eq_first_add
  have hsize := b.size_pos
  rw [size_doubled hpos] at hend'
  omega

end Ipv4Block

/-- Different blocks that have addresses beside them differ in the address or in the number of
leading bits. -/
theorem length_le_of_beside {bs : List Ipv4Block} {marks : List (Ipv4 × Nat)} (hnodup : bs.Nodup)
    (htrunc : ∀ b ∈ bs, b.trunc = b)
    (h : ∀ b ∈ bs, ∃ x, b.Beside x ∧ (x, b.bits) ∈ marks) : bs.length ≤ marks.length := by
  have : Nonempty Ipv4 := ⟨.zero⟩
  choose! mark hbeside hmark using h
  have hinjective : (bs.map fun b => (mark b, b.bits)).Nodup := by
    rw [List.Nodup, List.pairwise_map]
    apply hnodup.imp_of_mem
    intro b c hb hc hne heq
    obtain ⟨hx, hbits⟩ := Prod.mk.inj heq
    have hc' := hbeside c hc
    rw [← hx] at hc'
    exact hne ((hbeside b hb).eq hc' hbits (htrunc b hb) (htrunc c hc))
  have hsubset : (bs.map fun b => (mark b, b.bits)) ⊆ marks := by
    intro p hp
    obtain ⟨b, hb, rfl⟩ := List.mem_map.mp hp
    exact hmark b hb
  have hle := (hinjective.subperm hsubset).length_le
  rwa [List.length_map] at hle

/-- Beside a block of the complement lies an excluded block, and it has no fewer leading bits. -/
theorem exists_excluded_beside {excluded : List Ipv4Block} (hne : excluded ≠ []) {b : Ipv4Block}
    (hb : b ∈ complementBlocks excluded) :
    ∃ e ∈ excluded, b.Beside e.firstAddress ∧ b.bits ≤ e.bits := by
  obtain ⟨-, hmax⟩ := (mem_complementBlocks_iff excluded b).mp hb
  obtain ⟨e₀, he₀⟩ := List.exists_mem_of_ne_nil excluded hne
  obtain ⟨x, hx, hbeside⟩ :=
    hmax.exists_beside ⟨e₀.firstAddress, fun hout => hout ⟨e₀, he₀, e₀.firstAddress_mem⟩⟩
  obtain ⟨e, he, hxe⟩ := Classical.not_not.mp hx
  have hdisjoint : ∀ a ∈ e, a ∉ b := fun a hae hab => hmax.inside a hab ⟨e, he, hae⟩
  have hbits : b.bits ≤ e.bits := by
    by_contra hlt
    have hle : e.bits ≤ b.doubled.bits := by
      change e.bits ≤ b.bits - 1
      omega
    have hsubset := Ipv4Block.subset_of_common hle hbeside.1 hxe
    exact hdisjoint _ (hsubset _ (Ipv4Block.mem_doubled b.addr_mem)) b.addr_mem
  have hin : e.firstAddress ∈ b.doubled :=
    Ipv4Block.subset_of_common (Nat.le_trans (Nat.sub_le b.bits 1) hbits) hxe hbeside.1 _
      e.firstAddress_mem
  exact ⟨e, he, ⟨hin, hdisjoint _ e.firstAddress_mem⟩, hbits⟩

/-- The addresses that blocks of the complement lie beside, with the numbers of leading bits that
these blocks may have. -/
def marksOf (excluded : List Ipv4Block) : List (Ipv4 × Nat) :=
  excluded.flatMap fun e => (List.range' 1 e.bits).map (e.firstAddress, ·)

/-- There is one mark for each leading bit of each excluded block. -/
theorem length_marksOf (excluded : List Ipv4Block) :
    (marksOf excluded).length = (excluded.map (·.bits)).sum := by
  simp [marksOf, List.length_flatMap]

theorem mem_marksOf {excluded : List Ipv4Block} {e : Ipv4Block} {k : Nat} (he : e ∈ excluded)
    (hpos : 0 < k) (hle : k ≤ e.bits) : (e.firstAddress, k) ∈ marksOf excluded := by
  refine List.mem_flatMap.mpr ⟨e, he, List.mem_map_of_mem ?_⟩
  rw [List.mem_range'_1]
  omega

theorem sum_bits_le (bs : List Ipv4Block) : (bs.map (·.bits)).sum ≤ 32 * bs.length := by
  induction bs with
  | nil => simp
  | cons b bs ih =>
    have hle := b.bits_le
    rw [List.map_cons, List.sum_cons, List.length_cons]
    omega

theorem complementBlocks_nil : complementBlocks [] = [.everything] := by decide +kernel

/-- The complement of no block is one block. That of other blocks has no more blocks than these have
leading bits together, hence at most 32 for each of them. -/
theorem length_complementBlocks_le :
    complementBlocks [] = [.everything] ∧
    ∀ excluded, excluded ≠ [] →
      (complementBlocks excluded).length ≤ (excluded.map (·.bits)).sum ∧
      (excluded.map (·.bits)).sum ≤ 32 * excluded.length := by
  refine ⟨complementBlocks_nil, fun excluded hne => ⟨?_, ?_⟩⟩
  · rw [← length_marksOf]
    apply length_le_of_beside (nodup_complementBlocks excluded)
    · intro b hb
      exact ((mem_complementBlocks_iff excluded b).mp hb).1
    · intro b hb
      obtain ⟨e, he, hbeside, hbits⟩ := exists_excluded_beside hne hb
      exact ⟨e.firstAddress, hbeside, mem_marksOf he hbeside.bits_pos hbits⟩
  · exact sum_bits_le excluded

/-- Around a single address there are as many blocks as an address has bits. -/
theorem length_complementBlocks_single :
    [Ipv4Block.single .zero] ≠ [] ∧
    (complementBlocks [.single .zero]).length ≤ ([Ipv4Block.single .zero].map (·.bits)).sum ∧
    (complementBlocks [.single .zero]).length = 32 :=
  ⟨by decide, (length_complementBlocks_le.2 _ (by decide)).1, by decide +kernel⟩

namespace Ipv4Interval

variable {r : Ipv4Interval} {b : Ipv4Block}

def neighbours (r : Ipv4Interval) : List Ipv4 :=
  (if h : 0 < r.first then [⟨r.first - 1, by have := r.le; have := r.lt; omega⟩] else []) ++
  (if h : r.last + 1 < 2 ^ 32 then [⟨r.last + 1, h⟩] else [])

theorem mem_neighbours {a : Ipv4} :
    a ∈ r.neighbours ↔ a.toNat + 1 = r.first ∨ a.toNat = r.last + 1 := by
  obtain ⟨n, hn⟩ := a
  have hle := r.le
  simp only [neighbours, List.mem_append]
  apply or_congr
  · split
    · simp only [List.mem_singleton, Ipv4.mk.injEq]
      omega
    · simp only [List.not_mem_nil, false_iff]
      omega
  · split
    · simp only [List.mem_singleton, Ipv4.mk.injEq]
    · simp only [List.not_mem_nil, false_iff]
      omega

theorem length_neighbours_le (r : Ipv4Interval) : r.neighbours.length ≤ 2 := by
  rw [neighbours]
  split <;> split <;> simp

/-- Only the whole space has no neighbours. -/
theorem mem_of_neighbours_eq_nil (h : r.neighbours = []) (a : Ipv4) : a ∈ r := by
  have hnone (x : Ipv4) : ¬(x.toNat + 1 = r.first ∨ x.toNat = r.last + 1) := by
    rw [← mem_neighbours, h]
    exact List.not_mem_nil
  have hle := r.le
  have hlt := r.lt
  have ha := a.isLt
  have hfirst : r.first = 0 := by
    by_contra hpos
    exact hnone ⟨r.first - 1, by omega⟩ (.inl (by simp only; omega))
  have hlast : r.last + 1 = 2 ^ 32 := by
    by_contra hroom
    exact hnone ⟨r.last + 1, by omega⟩ (.inr rfl)
  rw [mem_def]
  omega

/-- A neighbour lies beside each block of the interval that an address outside lies beside. -/
theorem exists_neighbour_beside (hb : ∀ a ∈ b, a ∈ r) {x : Ipv4} (hx : x ∉ r)
    (hbeside : b.Beside x) : ∃ y ∈ r.neighbours, b.Beside y := by
  obtain ⟨hin, -⟩ := hbeside
  have haddr := hb _ b.addr_mem
  have haddr' := Ipv4Block.mem_doubled b.addr_mem
  have hx' := x.isLt
  have hle := r.le
  have hlt := r.lt
  rw [mem_def] at hx haddr
  rw [Ipv4Block.mem_def] at hin haddr'
  -- the neighbour lies between the address outside and the block
  have hbetween (y : Ipv4) (hy : y ∈ r.neighbours)
      (hbounds : b.doubled.first ≤ y.toNat ∧ y.toNat ≤ b.doubled.last) : b.Beside y := by
    refine ⟨hbounds, fun hmem => ?_⟩
    have hr := hb y hmem
    rw [mem_def] at hr
    rw [mem_neighbours] at hy
    omega
  rcases Nat.lt_or_ge x.toNat r.first with hlow | hge
  · have hy : (⟨r.first - 1, by omega⟩ : Ipv4) ∈ r.neighbours :=
      mem_neighbours.mpr (.inl (by simp only; omega))
    exact ⟨_, hy, hbetween _ hy (by simp only; omega)⟩
  · have hy : (⟨r.last + 1, by omega⟩ : Ipv4) ∈ r.neighbours := mem_neighbours.mpr (.inr rfl)
    exact ⟨_, hy, hbetween _ hy (by simp only; omega)⟩

theorem not_mem_of_mem_neighbours {a : Ipv4} (h : a ∈ r.neighbours) : a ∉ r := by
  have hle := r.le
  rw [mem_neighbours] at h
  rw [mem_def]
  omega

/-- A block of an interval has a leading bit for each neighbour of the interval. -/
theorem length_neighbours_le_bits (hb : ∀ a ∈ b, a ∈ r) : r.neighbours.length ≤ b.bits := by
  rcases hbits : b.bits with _ | _ | k
  · have hnone : r.neighbours = [] := by
      apply List.eq_nil_iff_forall_not_mem.mpr
      intro a ha
      exact not_mem_of_mem_neighbours ha (hb a (Ipv4Block.mem_of_bits_eq_zero hbits a))
    rw [hnone]
    exact Nat.le_refl 0
  · have hfirst := (hb _ b.firstAddress_mem).1
    have hlast := (hb _ b.lastAddress_mem).2
    simp only [Ipv4Block.firstAddress, Ipv4Block.lastAddress] at hfirst hlast
    have hends := Ipv4Block.first_eq_zero_or_last_eq hbits
    rw [neighbours]
    split <;> split <;> simp
    omega
  · exact Nat.le_trans r.length_neighbours_le (by omega)

theorem length_toBlocks_le_of_neighbours (hne : r.neighbours ≠ []) :
    r.toBlocks.length ≤ r.neighbours.length * (33 - r.neighbours.length) := by
  obtain ⟨y, hy⟩ := List.exists_mem_of_ne_nil r.neighbours hne
  let n := r.neighbours.length
  let marks := r.neighbours.flatMap fun y => (List.range' n (33 - n)).map (y, ·)
  have hlength : marks.length = n * (33 - n) := by
    simp [marks, n, List.length_flatMap]
  rw [← hlength]
  apply length_le_of_beside
  · exact nodup_of_precedes r.tiles_toBlocks.pairwise
  · exact trunc_of_mem_blocksFrom r.lt
  · intro b hb
    have hmax := maximal_of_mem_toBlocks b hb
    obtain ⟨x, hx, hbeside⟩ := hmax.exists_beside ⟨y, not_mem_of_mem_neighbours hy⟩
    obtain ⟨z, hz, hbeside⟩ := exists_neighbour_beside hmax.inside hx hbeside
    refine ⟨z, hbeside, List.mem_flatMap.mpr ⟨z, hz, List.mem_map_of_mem ?_⟩⟩
    have hmin : n ≤ b.bits := length_neighbours_le_bits hmax.inside
    have hle := b.bits_le
    rw [List.mem_range'_1]
    omega

/-- No cover of an interval has fewer blocks than its own. -/
theorem length_toBlocks_le_of_cover {cover : List Ipv4Block}
    (h : ∀ a, Covers cover a ↔ Covers r.toBlocks a) : r.toBlocks.length ≤ cover.length := by
  apply length_le_length_of_maximal maximal_of_mem_toBlocks
    (r.tiles_toBlocks.pairwise.imp Ipv4Block.disjoint_of_last_lt_first)
  intro a
  rw [h, covers_toBlocks]

/-- An interval has 62 blocks at most. -/
theorem length_toBlocks_le (r : Ipv4Interval) : r.toBlocks.length ≤ 62 := by
  by_cases hne : r.neighbours = []
  · have hcover : ∀ a, Covers [.everything] a ↔ Covers r.toBlocks a := by
      intro a
      rw [covers_toBlocks]
      refine iff_of_true ⟨.everything, List.mem_singleton_self _, ?_⟩
        (mem_of_neighbours_eq_nil hne a)
      exact Ipv4Block.mem_of_bits_eq_zero rfl a
    exact Nat.le_trans (length_toBlocks_le_of_cover hcover) (by decide)
  · have hle := length_toBlocks_le_of_neighbours hne
    have hpos : 0 < r.neighbours.length := List.length_pos_iff.mpr hne
    have hmost := r.length_neighbours_le
    have hcases : r.neighbours.length = 1 ∨ r.neighbours.length = 2 := by omega
    rcases hcases with h | h
    · rw [h] at hle
      omega
    · rwa [h] at hle

end Ipv4Interval

end VpnTunnel
