import VpnTunnel.Proofs.Address.Counting

/-!
# Covering an interval in machine words

The blocks of an interval, computed in words of 64 bits: how large a block may begin at an address
is read off the trailing zeros of the address and the leading zeros of what is left to cover. Every
operation is checked. A sum, a difference or a shift that leaves the words has no result, and neither
has an address or a number of leading bits that is too large for a block. Computed in this way every
interval has its blocks.
-/

namespace VpnTunnel

namespace Word

/-- The sum, if it is a word. -/
def add? (x y : UInt64) : Option UInt64 :=
  if x.toNat + y.toNat < 2 ^ 64 then some (x + y) else none

def sub? (x y : UInt64) : Option UInt64 := if y ≤ x then some (x - y) else none

def bit? (k : Nat) : Option UInt64 := if k < 64 then some (1 <<< UInt64.ofNat k) else none

def trailingZeros (x : UInt64) : Nat := x.toBitVec.ctz.toNat

def leadingZeros (x : UInt64) : Nat := x.toBitVec.clz.toNat

/-- The greatest power of two up to `x`. There is none up to zero. -/
def powerUpTo? (x : UInt64) : Option UInt64 :=
  if leadingZeros x ≤ 63 then bit? (63 - leadingZeros x) else none

theorem toNat_ofNat {n : Nat} (h : n < 2 ^ 64) : (UInt64.ofNat n).toNat = n := by
  rw [UInt64.toNat_ofNat', Nat.mod_eq_of_lt h]

theorem ofNat_le_ofNat {m n : Nat} (hm : m < 2 ^ 64) (hn : n < 2 ^ 64) :
    UInt64.ofNat m ≤ UInt64.ofNat n ↔ m ≤ n := by
  rw [UInt64.le_iff_toNat_le, toNat_ofNat hm, toNat_ofNat hn]

theorem add?_ofNat {m n : Nat} (h : m + n < 2 ^ 64) :
    add? (.ofNat m) (.ofNat n) = some (.ofNat (m + n)) := by
  rw [add?, toNat_ofNat (by omega), toNat_ofNat (by omega), if_pos h, UInt64.ofNat_add]

theorem sub?_ofNat {m n : Nat} (h : n ≤ m) (hm : m < 2 ^ 64) :
    sub? (.ofNat m) (.ofNat n) = some (.ofNat (m - n)) := by
  rw [sub?, if_pos ((ofNat_le_ofNat (by omega) hm).mpr h)]
  congr 1
  apply UInt64.toNat.inj
  rw [UInt64.toNat_sub_of_le _ _ ((ofNat_le_ofNat (by omega) hm).mpr h), toNat_ofNat hm,
    toNat_ofNat (by omega), toNat_ofNat (by omega)]

theorem bit?_of_lt {k : Nat} (h : k < 64) : bit? k = some (.ofNat (2 ^ k)) := by
  rw [bit?, if_pos h]
  congr 1
  apply UInt64.toNat.inj
  have hlt : 2 ^ k < 2 ^ 64 := Nat.pow_lt_pow_right (by decide) h
  rw [UInt64.toNat_shiftLeft, toNat_ofNat (by omega), toNat_ofNat hlt, Nat.mod_eq_of_lt h,
    UInt64.toNat_one, Nat.one_shiftLeft, Nat.mod_eq_of_lt hlt]

theorem toBitVec_ofNat_ne_zero {n : Nat} (hpos : 0 < n) (hn : n < 2 ^ 64) :
    (UInt64.ofNat n).toBitVec ≠ 0 := by
  intro hzero
  have hval := congrArg BitVec.toNat hzero
  rw [UInt64.toNat_toBitVec, toNat_ofNat hn] at hval
  exact Nat.ne_of_gt hpos hval

/-- The trailing zeros count the powers of two that divide the word. -/
theorem two_pow_dvd_iff {n k : Nat} (hpos : 0 < n) (hn : n < 2 ^ 64) :
    2 ^ k ∣ n ↔ k ≤ trailingZeros (.ofNat n) := by
  have htest (i : Nat) : (UInt64.ofNat n).toBitVec.getLsbD i = n.testBit i := by
    rw [BitVec.getLsbD, UInt64.toNat_toBitVec, toNat_ofNat hn]
  have hset := BitVec.getLsbD_true_ctz_of_ne_zero (toBitVec_ofNat_ne_zero hpos hn)
  rw [htest] at hset
  constructor
  · rintro ⟨d, rfl⟩
    rw [Nat.testBit_two_pow_mul, Bool.and_eq_true, decide_eq_true_eq] at hset
    exact hset.1
  · intro hk
    apply Nat.dvd_of_mod_eq_zero
    apply Nat.eq_of_testBit_eq
    intro i
    rw [Nat.testBit_mod_two_pow, Nat.zero_testBit]
    by_cases hi : i < k
    · rw [← htest, BitVec.getLsbD_false_of_lt_ctz (Nat.lt_of_lt_of_le hi hk), Bool.and_false]
    · simp [hi]

theorem trailingZeros_two_pow {k : Nat} (h : k < 64) : trailingZeros (.ofNat (2 ^ k)) = k := by
  have hlt : 2 ^ k < 2 ^ 64 := Nat.pow_lt_pow_right (by decide) h
  have hiff (j : Nat) := two_pow_dvd_iff (k := j) (Nat.two_pow_pos k) hlt
  apply Nat.le_antisymm
  · exact (Nat.pow_dvd_pow_iff_le_right (by decide)).mp ((hiff _).mpr (Nat.le_refl _))
  · exact (hiff k).mp (Nat.dvd_refl _)

/-- Shifting by the leading zeros gives the greatest power of two. -/
theorem powerUpTo?_ofNat {n : Nat} (hpos : 0 < n) (hn : n < 2 ^ 64) :
    powerUpTo? (.ofNat n) = some (.ofNat (2 ^ n.log2)) := by
  have hval : (UInt64.ofNat n).toBitVec.toNat = n := toNat_ofNat hn
  have hlow : 2 ^ (63 - leadingZeros (.ofNat n)) ≤ n := by
    have h := BitVec.two_pow_sub_clz_le_toNat_of_ne_zero (by decide)
      (toBitVec_ofNat_ne_zero hpos hn)
    rwa [hval] at h
  have hhigh : n < 2 ^ (64 - leadingZeros (.ofNat n)) := by
    have h := BitVec.toNat_lt_two_pow_sub_clz (x := (UInt64.ofNat n).toBitVec)
    rwa [hval] at h
  have hzeros : leadingZeros (.ofNat n) ≤ 63 := by
    by_contra hgt
    have hexp : 64 - leadingZeros (.ofNat n) = 0 := by omega
    rw [hexp] at hhigh
    omega
  have hexp : 64 - leadingZeros (.ofNat n) = 63 - leadingZeros (.ofNat n) + 1 := by omega
  rw [hexp] at hhigh
  have hlog : n.log2 = 63 - leadingZeros (.ofNat n) :=
    (Nat.log2_eq_iff (by omega)).mpr ⟨hlow, hhigh⟩
  rw [powerUpTo?, if_pos hzeros, hlog]
  exact bit?_of_lt (by omega)

theorem min_ofNat {m n : Nat} (hm : m < 2 ^ 64) (hn : n < 2 ^ 64) :
    min (UInt64.ofNat m) (UInt64.ofNat n) = .ofNat (min m n) := by
  by_cases hle : m ≤ n
  · rw [Nat.min_eq_left hle]
    exact if_pos ((ofNat_le_ofNat hm hn).mpr hle)
  · rw [Nat.min_eq_right (by omega)]
    exact if_neg (mt (ofNat_le_ofNat hm hn).mp hle)

theorem toNat_pos_of_powerUpTo? {x y : UInt64} (h : powerUpTo? x = some y) : 0 < y.toNat := by
  rw [powerUpTo?] at h
  split at h
  · rw [bit?_of_lt (by omega)] at h
    cases h
    rw [toNat_ofNat (Nat.pow_lt_pow_right (by decide) (by omega))]
    exact Nat.two_pow_pos _
  · cases h

theorem toNat_of_add? {x y z : UInt64} (h : add? x y = some z) :
    z.toNat = x.toNat + y.toNat := by
  rw [add?] at h
  split at h
  · rename_i hlt
    cases h
    rw [UInt64.toNat_add, Nat.mod_eq_of_lt hlt]
  · cases h

end Word

namespace Ipv4Interval

/-- The size of the largest block that may begin at the address. -/
def alignment? (start : UInt64) : Option UInt64 :=
  if start = 0 then Word.bit? 32 else Word.bit? (Word.trailingZeros start)

def bitsOfSize? (size : UInt64) : Option Nat :=
  if Word.trailingZeros size ≤ 32 then some (32 - Word.trailingZeros size) else none

def blockOfWord? (start : UInt64) (bits : Nat) : Option Ipv4Block :=
  if h : start.toNat < 2 ^ 32 ∧ bits ≤ 32 then some ⟨⟨start.toNat, h.1⟩, bits, h.2⟩ else none

/-- The largest block that may begin at `start` and ends at `last` at the latest, and the address
behind it. -/
def turn? (last start : UInt64) : Option (Ipv4Block × UInt64) := do
  let alignment ← alignment? start
  let room ← Word.add? (← Word.sub? last start) 1
  let size ← Word.powerUpTo? (min alignment room)
  let block ← blockOfWord? start (← bitsOfSize? size)
  let next ← Word.add? start size
  return (block, next)

/-- Every turn gets further, so the loop ends. -/
theorem toNat_lt_of_turn? {last start next : UInt64} {block : Ipv4Block}
    (h : turn? last start = some (block, next)) : start.toNat < next.toNat := by
  simp only [turn?, Option.bind_eq_bind, Option.bind_eq_some_iff, Option.pure_def,
    Option.some.injEq, Prod.mk.injEq] at h
  obtain ⟨_, _, _, _, _, _, size, hsize, _, _, _, _, _, hnext, _, rfl⟩ := h
  have hpos := Word.toNat_pos_of_powerUpTo? hsize
  rw [Word.toNat_of_add? hnext]
  omega

def blocksInWords? (last start : UInt64) : Option (List Ipv4Block) :=
  if start ≤ last then
    match h : turn? last start with
    | none => none
    | some (block, next) =>
      have := toNat_lt_of_turn? h
      (blocksInWords? last next).map (block :: ·)
  else some []
termination_by 2 ^ 64 - start.toNat
decreasing_by
  have hnext := next.toNat_lt
  omega

/-- The blocks of the interval, computed in words. -/
def inWords? (r : Ipv4Interval) : Option (List Ipv4Block) :=
  blocksInWords? (.ofNat r.last) (.ofNat r.first)

/-- The power of two in words is that of the greedy block. -/
theorem log2_min_eq_blockExponent {start room zeros : Nat} (hroom : 0 < room) (hle : zeros ≤ 32)
    (hzeros : ∀ k ≤ 32, 2 ^ k ∣ start ↔ k ≤ zeros) :
    (min (2 ^ zeros) room).log2 = blockExponent start room 32 := by
  have hpos : min (2 ^ zeros) room ≠ 0 :=
    Nat.ne_of_gt (Nat.lt_min.mpr ⟨Nat.two_pow_pos zeros, hroom⟩)
  have hiff : ∀ k ≤ 32, k ≤ (min (2 ^ zeros) room).log2 ↔ Fits start room k := by
    intro k hk
    rw [Nat.le_log2 hpos, Nat.le_min, Nat.pow_le_pow_iff_right (by decide), Fits,
      ← Nat.dvd_iff_mod_eq_zero, hzeros k hk]
  have hlog : (min (2 ^ zeros) room).log2 ≤ 32 := by
    apply Nat.le_trans _ hle
    rw [← Nat.pow_le_pow_iff_right (by decide : 1 < 2)]
    exact Nat.le_trans (Nat.log2_self_le hpos) (Nat.min_le_left _ _)
  apply Nat.le_antisymm
  · exact le_blockExponent hlog ((hiff _ hlog).mp (Nat.le_refl _))
  · exact (hiff _ (blockExponent_le start room 32)).mpr (blockExponent_fits 32 hroom)

/-- The alignment is the greatest power of two that divides the address, up to the whole space. -/
theorem exists_alignment {start : Nat} (h : start < 2 ^ 32) :
    ∃ zeros ≤ 32, alignment? (.ofNat start) = some (.ofNat (2 ^ zeros)) ∧
      ∀ k ≤ 32, 2 ^ k ∣ start ↔ k ≤ zeros := by
  rcases Nat.eq_zero_or_pos start with rfl | hpos
  · refine ⟨32, Nat.le_refl 32, by decide, fun k hk => ?_⟩
    exact iff_of_true (Nat.dvd_zero _) hk
  · have hdvd (k : Nat) := Word.two_pow_dvd_iff (k := k) hpos (by omega)
    have hle : Word.trailingZeros (.ofNat start) < 32 := by
      rw [← Nat.pow_lt_pow_iff_right (by decide : 1 < 2)]
      exact Nat.lt_of_le_of_lt (Nat.le_of_dvd hpos ((hdvd _).mpr (Nat.le_refl _))) h
    refine ⟨_, Nat.le_of_lt hle, ?_, fun k _ => hdvd k⟩
    have hne : UInt64.ofNat start ≠ 0 := by
      intro hzero
      have hval := congrArg UInt64.toNat hzero
      rw [Word.toNat_ofNat (by omega)] at hval
      exact Nat.ne_of_gt hpos hval
    rw [alignment?, if_neg hne]
    exact Word.bit?_of_lt (by omega)

theorem bitsOfSize?_two_pow {k : Nat} (hk : k ≤ 32) :
    bitsOfSize? (.ofNat (2 ^ k)) = some (32 - k) := by
  rw [bitsOfSize?, Word.trailingZeros_two_pow (by omega), if_pos hk]

theorem blockOfWord?_ofNat {start : Nat} (hstart : start < 2 ^ 32) (k : Nat) :
    blockOfWord? (.ofNat start) (32 - k) = some (blockAt start k hstart) := by
  have haddr : (UInt64.ofNat start).toNat = start := Word.toNat_ofNat (by omega)
  have hbits : 32 - k ≤ 32 := Nat.sub_le 32 k
  simp only [blockOfWord?, haddr, hstart, hbits, and_self, dite_true, blockAt]

/-- A turn makes the greedy block, and none of its operations leaves the words. -/
theorem turn?_ofNat {start last : Nat} (hlast : last < 2 ^ 32) (hstart : start < 2 ^ 32)
    (hle : start ≤ last) : turn? (.ofNat last) (.ofNat start) =
      some (greedyBlock start (last + 1) hstart,
        .ofNat ((greedyBlock start (last + 1) hstart).last + 1)) := by
  let k := blockExponent start (last + 1 - start) 32
  obtain ⟨zeros, hzeros, halign, hdvd⟩ := exists_alignment hstart
  have hk : k ≤ 32 := blockExponent_le start (last + 1 - start) 32
  have hroom : last - start + 1 = last + 1 - start := by omega
  have hlog : (min (2 ^ zeros) (last + 1 - start)).log2 = k :=
    log2_min_eq_blockExponent (by omega) hzeros hdvd
  have hnext : start + 2 ^ k = (greedyBlock start (last + 1) hstart).last + 1 :=
    (last_greedyBlock (by omega)).symm
  have hpow : 2 ^ k ≤ 2 ^ 32 := Nat.pow_le_pow_right (by decide) hk
  have hpow' : 2 ^ zeros ≤ 2 ^ 32 := Nat.pow_le_pow_right (by decide) hzeros
  have hpositive : 0 < min (2 ^ zeros) (last + 1 - start) :=
    Nat.lt_min.mpr ⟨Nat.two_pow_pos zeros, by omega⟩
  rw [turn?, halign, Word.sub?_ofNat hle (by omega)]
  simp only [Option.bind_eq_bind, Option.bind_some]
  rw [show (1 : UInt64) = .ofNat 1 from rfl, Word.add?_ofNat (by omega), Option.bind_some, hroom,
    Word.min_ofNat (by omega) (by omega), Word.powerUpTo?_ofNat hpositive (by omega),
    Option.bind_some, hlog, bitsOfSize?_two_pow hk, Option.bind_some, blockOfWord?_ofNat hstart k,
    Option.bind_some, Word.add?_ofNat (by omega), Option.bind_some, hnext]
  rfl

/-- In words the loop finds the blocks that it finds in natural numbers. -/
theorem blocksInWords?_ofNat {start last : Nat} (hlast : last < 2 ^ 32) (hle : start ≤ last + 1) :
    blocksInWords? (.ofNat last) (.ofNat start) = some (blocksFrom start (last + 1) hlast) := by
  refine blocksFrom_induction hlast (P := fun start bs => start ≤ last + 1 →
    blocksInWords? (.ofNat last) (.ofNat start) = some bs) ?_ ?_ start hle
  · intro start hge hle
    rw [blocksInWords?, if_neg]
    rw [Word.ofNat_le_ofNat (by omega) (by omega)]
    omega
  · intro start hstart hlt ih hle
    have hnext := last_greedyBlock_lt (h := hstart) hlt
    rw [blocksInWords?, if_pos ((Word.ofNat_le_ofNat (by omega) (by omega)).mpr (by omega))]
    split
    · rename_i hnone
      rw [turn?_ofNat hlast hstart (by omega)] at hnone
      cases hnone
    · rename_i hsome
      rw [turn?_ofNat hlast hstart (by omega)] at hsome
      cases hsome
      rw [ih (by omega)]
      rfl

/-- The blocks of an interval follow one another from its first address to its last, written with
cleared host bits. No list of blocks with the same addresses is shorter, and none of the intervals
takes more than 62. In words of 64 bits they are computed without leaving the words, and each block
that is computed is one. -/
theorem toBlocks_tile_shortest (r : Ipv4Interval) :
    (∀ b ∈ r.toBlocks, b.trunc = b) ∧
    Tiles r.first (r.last + 1) r.toBlocks ∧
    (∀ cover : List Ipv4Block, (∀ a, Covers cover a ↔ Covers r.toBlocks a) →
      r.toBlocks.length ≤ cover.length) ∧
    r.toBlocks.length ≤ 62 ∧
    r.inWords? = some r.toBlocks := by
  have hle := r.le
  refine ⟨trunc_of_mem_blocksFrom r.lt, r.tiles_toBlocks, ?_, r.length_toBlocks_le, ?_⟩
  · intro cover hcover
    exact length_toBlocks_le_of_cover hcover
  · exact blocksInWords?_ofNat r.lt (by omega)

/-- There are intervals that take 62 blocks. -/
example : (toBlocks ⟨1, 2 ^ 32 - 2, by decide, by decide⟩).length = 62 := by cbv

end Ipv4Interval

end VpnTunnel
