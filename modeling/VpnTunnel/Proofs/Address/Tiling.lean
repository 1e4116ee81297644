import VpnTunnel.Proofs.Address.Nesting

/-!
# Tiling an interval

The blocks of an interval tile it from its first address to its last, and each of them is maximal
in it.
-/

namespace VpnTunnel

/-- The blocks follow one another without a gap, from `start` up to and without `stop`. -/
def Tiles : (start stop : Nat) → List Ipv4Block → Prop
  | start, stop, [] => start = stop
  | start, stop, b :: bs => b.first = start ∧ Tiles (b.last + 1) stop bs

namespace Tiles

theorem start_le_stop {start stop : Nat} {bs : List Ipv4Block} (h : Tiles start stop bs) :
    start ≤ stop := by
  induction bs generalizing start with
  | nil => exact Nat.le_of_eq h
  | cons b bs ih =>
    obtain ⟨hfirst, hrest⟩ := h
    have hlast := ih hrest
    have hle := b.first_le_last
    omega

/-- Blocks without a gap cover just the addresses between their ends. -/
theorem covers_iff {start stop : Nat} {bs : List Ipv4Block} (h : Tiles start stop bs) (a : Ipv4) :
    Covers bs a ↔ start ≤ a.toNat ∧ a.toNat < stop := by
  induction bs generalizing start with
  | nil =>
    have heq : start = stop := h
    simp only [Covers, List.not_mem_nil, false_and, exists_false, false_iff]
    omega
  | cons b bs ih =>
    obtain ⟨hfirst, hrest⟩ := h
    have hcons : Covers (b :: bs) a ↔ a ∈ b ∨ Covers bs a := by simp [Covers]
    rw [hcons, ih hrest, Ipv4Block.mem_def]
    have hle := b.first_le_last
    have hstop := hrest.start_le_stop
    omega

theorem bounds {start stop : Nat} {bs : List Ipv4Block} (h : Tiles start stop bs) :
    ∀ b ∈ bs, start ≤ b.first ∧ b.last < stop := by
  intro b hb
  have hfirst := (h.covers_iff b.firstAddress).mp ⟨b, hb, b.firstAddress_mem⟩
  have hlast := (h.covers_iff b.lastAddress).mp ⟨b, hb, b.lastAddress_mem⟩
  exact ⟨hfirst.1, hlast.2⟩

theorem pairwise {start stop : Nat} {bs : List Ipv4Block} (h : Tiles start stop bs) :
    bs.Pairwise fun b c => b.last < c.first := by
  induction bs generalizing start with
  | nil => exact .nil
  | cons b bs ih =>
    obtain ⟨_, hrest⟩ := h
    refine List.pairwise_cons.mpr ⟨?_, ih hrest⟩
    intro c hc
    exact (hrest.bounds c hc).1

end Tiles

namespace Ipv4Interval

def Fits (start room k : Nat) : Prop := start % 2 ^ k = 0 ∧ 2 ^ k ≤ room

theorem blockExponent_fits {start room : Nat} (most : Nat) (h : 0 < room) :
    Fits start room (blockExponent start room most) := by
  induction most with
  | zero => exact ⟨Nat.mod_one start, h⟩
  | succ k ih =>
    rw [blockExponent]
    split
    · assumption
    · exact ih

/-- No larger block fits. -/
theorem le_blockExponent {start room k most : Nat} (hk : k ≤ most) (h : Fits start room k) :
    k ≤ blockExponent start room most := by
  induction most with
  | zero => exact hk
  | succ m ih =>
    rw [blockExponent]
    split
    · exact hk
    · rename_i hno
      have hne : k ≠ m + 1 := by
        rintro rfl
        exact hno h
      exact ih (by omega)

def blockAt (start k : Nat) (h : start < 2 ^ 32) : Ipv4Block :=
  ⟨⟨start, h⟩, 32 - k, Nat.sub_le 32 k⟩

theorem size_blockAt {start k : Nat} (h : start < 2 ^ 32) (hk : k ≤ 32) :
    (blockAt start k h).size = 2 ^ k := by
  have hsub : 32 - (32 - k) = k := by omega
  rw [Ipv4Block.size, blockAt, hsub]

/-- The largest block that may begin at `start` before `stop`. -/
def greedyBlock (start stop : Nat) (h : start < 2 ^ 32) : Ipv4Block :=
  blockAt start (blockExponent start (stop - start) 32) h

section greedy

variable {start stop : Nat} {h : start < 2 ^ 32}

theorem size_greedyBlock :
    (greedyBlock start stop h).size = 2 ^ blockExponent start (stop - start) 32 :=
  size_blockAt h (blockExponent_le start (stop - start) 32)

theorem first_greedyBlock (hlt : start < stop) : (greedyBlock start stop h).first = start := by
  have hfits : Fits start (stop - start) (blockExponent start (stop - start) 32) :=
    blockExponent_fits 32 (by omega)
  rw [Ipv4Block.first, size_greedyBlock]
  exact Nat.div_mul_cancel (Nat.dvd_of_mod_eq_zero hfits.1)

theorem last_greedyBlock (hlt : start < stop) : (greedyBlock start stop h).last + 1 =
    start + 2 ^ blockExponent start (stop - start) 32 := by
  have hpos := Nat.two_pow_pos (blockExponent start (stop - start) 32)
  rw [Ipv4Block.last, first_greedyBlock hlt, size_greedyBlock]
  omega

theorem last_greedyBlock_lt (hlt : start < stop) : (greedyBlock start stop h).last < stop := by
  have hfits : Fits start (stop - start) (blockExponent start (stop - start) 32) :=
    blockExponent_fits 32 (by omega)
  have hlast := last_greedyBlock (h := h) hlt
  have hroom := hfits.2
  omega

/-- A block written with cleared host bits begins at its address. -/
theorem trunc_greedyBlock (hlt : start < stop) :
    (greedyBlock start stop h).trunc = greedyBlock start stop h := by
  have hfirst : (greedyBlock start stop h).first = (greedyBlock start stop h).addr.toNat :=
    first_greedyBlock hlt
  simp only [Ipv4Block.trunc, hfirst]

/-- A block that begins with the greedy one and has room lies in it. -/
theorem subset_greedyBlock (hlt : start < stop) {c : Ipv4Block} (hfirst : c.first = start)
    (hlast : c.last < stop) : ∀ a ∈ c, a ∈ greedyBlock start stop h := by
  have hpos := c.size_pos
  have hfits : Fits start (stop - start) (32 - c.bits) := by
    constructor
    · rw [← hfirst]
      exact Nat.mul_mod_left _ _
    · change c.size ≤ stop - start
      rw [Ipv4Block.last] at hlast
      omega
  have hle := le_blockExponent (by omega : 32 - c.bits ≤ 32) hfits
  have hbits := c.bits_le
  have hexp := blockExponent_le start (stop - start) 32
  refine Ipv4Block.subset_of_common (x := c.firstAddress) ?_ c.firstAddress_mem ?_
  · change 32 - blockExponent start (stop - start) 32 ≤ c.bits
    omega
  · rw [Ipv4Block.mem_def, first_greedyBlock hlt]
    have hge := (greedyBlock start stop h).first_le_last
    rw [first_greedyBlock hlt] at hge
    exact ⟨Nat.le_of_eq hfirst.symm, by simpa [Ipv4Block.firstAddress, hfirst] using hge⟩

end greedy

/-- The greedy block comes first, and the rest begins behind it. -/
theorem blocksFrom_of_lt {start stop : Nat} (h : stop ≤ 2 ^ 32) (hstart : start < 2 ^ 32)
    (hlt : start < stop) : blocksFrom start stop h = greedyBlock start stop hstart ::
      blocksFrom ((greedyBlock start stop hstart).last + 1) stop h := by
  rw [last_greedyBlock hlt, blocksFrom, dif_pos hlt]
  rfl

theorem blocksFrom_of_le {start stop : Nat} (h : stop ≤ 2 ^ 32) (hle : stop ≤ start) :
    blocksFrom start stop h = [] := by
  rw [blocksFrom, dif_neg (by omega)]

/-- Induction along the greedy choice: what holds of no blocks and is kept by putting the greedy
block in front holds of the blocks of every interval. -/
theorem blocksFrom_induction {stop : Nat} (h : stop ≤ 2 ^ 32) {P : Nat → List Ipv4Block → Prop}
    (hnil : ∀ start, stop ≤ start → P start [])
    (hcons : ∀ start (hstart : start < 2 ^ 32), start < stop →
      P ((greedyBlock start stop hstart).last + 1)
        (blocksFrom ((greedyBlock start stop hstart).last + 1) stop h) →
      P start (greedyBlock start stop hstart ::
        blocksFrom ((greedyBlock start stop hstart).last + 1) stop h))
    (start : Nat) : P start (blocksFrom start stop h) := by
  induction hn : stop - start using Nat.strongRecOn generalizing start with
  | ind n ih =>
    by_cases hlt : start < stop
    · have hstart : start < 2 ^ 32 := by omega
      rw [blocksFrom_of_lt h hstart hlt]
      apply hcons start hstart hlt
      have hlast := last_greedyBlock (h := hstart) hlt
      have hpos := Nat.two_pow_pos (blockExponent start (stop - start) 32)
      exact ih _ (by omega) _ rfl
    · rw [blocksFrom_of_le h (by omega)]
      exact hnil start (by omega)

/-- The greedy blocks follow one another without a gap. -/
theorem tiles_blocksFrom {start stop : Nat} (h : stop ≤ 2 ^ 32) (hle : start ≤ stop) :
    Tiles start stop (blocksFrom start stop h) := by
  refine blocksFrom_induction h (P := fun start bs => start ≤ stop → Tiles start stop bs)
    ?_ ?_ start hle
  · intro start hge hle
    exact Nat.le_antisymm hle hge
  · intro start _ hlt ih _
    exact ⟨first_greedyBlock hlt, ih (last_greedyBlock_lt hlt)⟩

theorem trunc_of_mem_blocksFrom {start stop : Nat} (h : stop ≤ 2 ^ 32) :
    ∀ b ∈ blocksFrom start stop h, b.trunc = b := by
  refine blocksFrom_induction h (P := fun _ bs => ∀ b ∈ bs, b.trunc = b) ?_ ?_ start
  · simp
  · intro start _ hlt ih b hb
    rcases List.mem_cons.mp hb with rfl | hb
    · exact trunc_greedyBlock hlt
    · exact ih b hb

/-- No block between `low` and `stop` lies across `start`. The greedy choice keeps this while
`start` advances, and it makes each chosen block maximal. -/
def Uncrossed (low start stop : Nat) : Prop :=
  ∀ c : Ipv4Block, low ≤ c.first → c.last < stop → c.first < start → c.last < start

theorem uncrossed_self (low stop : Nat) : Uncrossed low low stop := by
  intro c hlow _ hlt
  omega

/-- No block lies across the end of a greedy one. -/
theorem Uncrossed.advance {low start stop : Nat} (hun : Uncrossed low start stop)
    (h : start < 2 ^ 32) (hlt : start < stop) :
    Uncrossed low ((greedyBlock start stop h).last + 1) stop := by
  intro c hlow hstop hfirst
  rcases Nat.lt_trichotomy c.first start with hc | hc | hc
  · have hlast := hun c hlow hstop hc
    have hle := (greedyBlock start stop h).first_le_last
    rw [first_greedyBlock hlt] at hle
    omega
  · have hin := subset_greedyBlock (h := h) hlt hc hstop _ c.lastAddress_mem
    exact Nat.lt_succ_of_le hin.2
  · -- `c` begins inside the greedy block, behind its first address, so it is the inner one
    have hmem : c.firstAddress ∈ greedyBlock start stop h := by
      rw [Ipv4Block.mem_def, first_greedyBlock hlt]
      exact ⟨Nat.le_of_lt hc, Nat.le_of_lt_succ hfirst⟩
    rcases Ipv4Block.subset_or_subset hmem c.firstAddress_mem with hsub | hsub
    · have hback := (hsub _ (greedyBlock start stop h).firstAddress_mem).1
      have hstart : (greedyBlock start stop h).firstAddress.toNat = start := first_greedyBlock hlt
      omega
    · exact Nat.lt_succ_of_le (hsub _ c.lastAddress_mem).2

/-- Where no block lies across the start, the greedy block is as large as can be. -/
theorem Uncrossed.maximal_greedyBlock {low start stop : Nat} (hun : Uncrossed low start stop)
    (h : start < 2 ^ 32) (hlow : low ≤ start) (hlt : start < stop) :
    (greedyBlock start stop h).Maximal fun a => low ≤ a.toNat ∧ a.toNat < stop := by
  constructor
  · intro a ha
    rw [Ipv4Block.mem_def, first_greedyBlock hlt] at ha
    have hlast := last_greedyBlock_lt (h := h) hlt
    omega
  · intro c hc hmem
    have hstart : (greedyBlock start stop h).firstAddress.toNat = start := first_greedyBlock hlt
    have hfirst : c.first ≤ start := hstart ▸ hmem.1
    have hlast : start ≤ c.last := hstart ▸ hmem.2
    have hin := (hc _ c.firstAddress_mem).1
    have hstop := (hc _ c.lastAddress_mem).2
    have heq : c.first = start := by
      rcases Nat.lt_or_eq_of_le hfirst with hcross | heq
      · have hback := hun c hin hstop hcross
        omega
      · exact heq
    exact subset_greedyBlock hlt heq hstop

/-- Every greedy block is as large as can be. -/
theorem maximal_of_mem_blocksFrom {low start stop : Nat} (h : stop ≤ 2 ^ 32) (hlow : low ≤ start)
    (hun : Uncrossed low start stop) :
    ∀ b ∈ blocksFrom start stop h, b.Maximal fun a => low ≤ a.toNat ∧ a.toNat < stop := by
  refine blocksFrom_induction h (P := fun start bs => low ≤ start → Uncrossed low start stop →
    ∀ b ∈ bs, b.Maximal fun a => low ≤ a.toNat ∧ a.toNat < stop) ?_ ?_ start hlow hun
  · simp
  · intro start hstart hlt ih hlow hun b hb
    have hle := (greedyBlock start stop hstart).first_le_last
    rw [first_greedyBlock hlt] at hle
    rcases List.mem_cons.mp hb with rfl | hb
    · exact hun.maximal_greedyBlock hstart hlow hlt
    · exact ih (by omega) (hun.advance hstart hlt) b hb

theorem mem_def {a : Ipv4} {r : Ipv4Interval} : a ∈ r ↔ r.first ≤ a.toNat ∧ a.toNat ≤ r.last :=
  Iff.rfl

theorem tiles_toBlocks (r : Ipv4Interval) : Tiles r.first (r.last + 1) r.toBlocks :=
  tiles_blocksFrom r.lt (Nat.le_succ_of_le r.le)

/-- The blocks of an interval cover just its addresses. -/
theorem covers_toBlocks (r : Ipv4Interval) (a : Ipv4) : Covers r.toBlocks a ↔ a ∈ r := by
  rw [r.tiles_toBlocks.covers_iff, mem_def, Nat.lt_succ_iff]

theorem maximal_of_mem_toBlocks {r : Ipv4Interval} :
    ∀ b ∈ r.toBlocks, b.Maximal fun a => a ∈ r := by
  intro b hb
  have hmax := maximal_of_mem_blocksFrom r.lt (Nat.le_refl _) (uncrossed_self _ _) b hb
  simpa only [mem_def, Nat.lt_succ_iff] using hmax

end Ipv4Interval

end VpnTunnel
