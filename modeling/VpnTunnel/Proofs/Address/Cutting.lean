import Mathlib.Data.List.Chain
import VpnTunnel.Proofs.Address.Complement

/-!
# Cutting in machine words

The intervals outside some blocks, computed with words of 32 bits as their ends, one block after the
other until nothing is left. The steps to the address in front of a cut and to the one behind it are
checked: in front of the first address and behind the last one there is none. No cut ever asks for
one of these, and after each cut the intervals are in order, each behind a gap of addresses that have
been excluded.
-/

namespace VpnTunnel

/-- Two addresses as the ends of a range, in words. -/
structure WordRange where
  first : UInt32
  last : UInt32
deriving DecidableEq

namespace WordRange

def pred? (x : UInt32) : Option UInt32 := if x = 0 then none else some (x - 1)

def succ? (x : UInt32) : Option UInt32 := if x = 0xFFFFFFFF then none else some (x + 1)

def meets (r s : WordRange) : Bool := r.first ≤ s.last && s.first ≤ r.last

def front? (r cut : WordRange) : Option (List WordRange) :=
  if r.first < cut.first then (pred? cut.first).map fun last => [⟨r.first, last⟩] else some []

def back? (r cut : WordRange) : Option (List WordRange) :=
  if cut.last < r.last then (succ? cut.last).map fun first => [⟨first, r.last⟩] else some []

def without? (r cut : WordRange) : Option (List WordRange) :=
  if r.meets cut then do return (← r.front? cut) ++ (← r.back? cut) else some [r]

def cutFrom? (working : List WordRange) (cut : WordRange) : Option (List WordRange) :=
  (working.mapM fun r => without? r cut).map List.flatten

/-- The ranges that are left after each cut in turn. The last of these turns is the first one that
leaves nothing. -/
def turns? (working : List WordRange) : List WordRange → Option (List (List WordRange))
  | [] => some []
  | cut :: cuts => do
    let left ← cutFrom? working cut
    if left = [] then return [left] else return left :: (← turns? left cuts)

def ofInterval (r : Ipv4Interval) : WordRange := ⟨.ofNat r.first, .ofNat r.last⟩

def ofBlock (b : Ipv4Block) : WordRange := ofInterval (.ofBlock b)

def outside (excluded : List Ipv4Block) : List WordRange :=
  (intervalsOutside excluded).map ofInterval

/-- What is left outside some blocks: ranges in ascending order, between each and the next at least
one address and only excluded ones. -/
structure Spaced (excluded : List Ipv4Block) (rs : List WordRange) : Prop where
  le : ∀ r ∈ rs, r.first ≤ r.last
  ascending : rs.Pairwise fun r s => r.first < s.first
  gap : rs.IsChain fun r s => r.last.toNat + 2 ≤ s.first.toNat ∧
    ∀ a : Ipv4, r.last.toNat < a.toNat → a.toNat < s.first.toNat → Covers excluded a

theorem toNat_ofNat {n : Nat} (h : n < 2 ^ 32) : (UInt32.ofNat n).toNat = n := by
  rw [UInt32.toNat_ofNat', Nat.mod_eq_of_lt h]

theorem toNat_first_ofInterval (r : Ipv4Interval) : (ofInterval r).first.toNat = r.first :=
  toNat_ofNat (Nat.lt_of_le_of_lt r.le r.lt)

theorem toNat_last_ofInterval (r : Ipv4Interval) : (ofInterval r).last.toNat = r.last :=
  toNat_ofNat r.lt

theorem pred?_of_pos {x : UInt32} (h : 0 < x.toNat) : pred? x = some (.ofNat (x.toNat - 1)) := by
  have hne : x ≠ 0 := by
    rintro rfl
    exact Nat.lt_irrefl 0 h
  rw [pred?, if_neg hne]
  congr 1
  apply UInt32.toNat.inj
  have hlt := x.toNat_lt
  have hle : (1 : UInt32) ≤ x := UInt32.le_iff_toNat_le.mpr h
  rw [UInt32.toNat_sub_of_le _ _ hle, toNat_ofNat (by omega), UInt32.toNat_one]

theorem succ?_of_lt {x : UInt32} (h : x.toNat + 1 < 2 ^ 32) :
    succ? x = some (.ofNat (x.toNat + 1)) := by
  have hne : x ≠ 0xFFFFFFFF := by
    rintro rfl
    exact absurd h (by decide)
  rw [succ?, if_neg hne, UInt32.ofNat_add, UInt32.ofNat_toNat]
  rfl

theorem meets_ofInterval (r cut : Ipv4Interval) :
    (ofInterval r).meets (ofInterval cut) = r.meets cut := by
  simp only [meets, Ipv4Interval.meets, UInt32.le_iff_toNat_le, toNat_first_ofInterval,
    toNat_last_ofInterval]

/-- A cut that begins behind the first address of an interval does not begin at the first of all. -/
theorem front?_ofInterval (r cut : Ipv4Interval) :
    (ofInterval r).front? (ofInterval cut) =
      some (if r.first < cut.first then [⟨.ofNat r.first, .ofNat (cut.first - 1)⟩] else []) := by
  simp only [front?, UInt32.lt_iff_toNat_lt, toNat_first_ofInterval]
  split
  · rename_i hlt
    have hpos : 0 < (ofInterval cut).first.toNat := by
      rw [toNat_first_ofInterval]
      omega
    rw [pred?_of_pos hpos, toNat_first_ofInterval]
    rfl
  · rfl

/-- A cut that ends in front of the last address of an interval does not end at the last of all. -/
theorem back?_ofInterval (r cut : Ipv4Interval) :
    (ofInterval r).back? (ofInterval cut) =
      some (if cut.last < r.last then [⟨.ofNat (cut.last + 1), .ofNat r.last⟩] else []) := by
  have hlast := r.lt
  simp only [back?, UInt32.lt_iff_toNat_lt, toNat_last_ofInterval]
  split
  · rename_i hlt
    have hroom : (ofInterval cut).last.toNat + 1 < 2 ^ 32 := by
      rw [toNat_last_ofInterval]
      omega
    rw [succ?_of_lt hroom, toNat_last_ofInterval]
    rfl
  · rfl

/-- No cut leaves the words. -/
theorem without?_ofInterval (r cut : Ipv4Interval) :
    (ofInterval r).without? (ofInterval cut) = some ((r.without cut).map ofInterval) := by
  rw [without?, meets_ofInterval, Ipv4Interval.without]
  cases hmeets : r.meets cut with
  | false => rfl
  | true =>
    obtain ⟨hle, hle'⟩ := Ipv4Interval.meets_iff.mp hmeets
    rw [if_pos rfl, if_pos rfl, front?_ofInterval, back?_ofInterval, List.map_append]
    simp only [hle, hle', and_true, apply_dite (List.map ofInterval), List.map_cons, List.map_nil]
    rfl

/-- In words a cut comes out as it does in natural numbers, and no step of it leaves the words. -/
theorem cutFrom?_ofInterval (rs : List Ipv4Interval) (cut : Ipv4Interval) :
    cutFrom? (rs.map ofInterval) (ofInterval cut) = some ((cutFrom rs cut).map ofInterval) := by
  have hpieces : (rs.map ofInterval).mapM (fun r => without? r (ofInterval cut)) =
      some (rs.map fun r => (r.without cut).map ofInterval) := by
    induction rs with
    | nil => rfl
    | cons r rs ih =>
      rw [List.map_cons, List.mapM_cons, without?_ofInterval, ih]
      rfl
  rw [cutFrom?, hpieces, cutFrom, List.map_flatMap]
  rfl

/-- Where nothing is left, no cut leaves anything. -/
theorem foldl_cutFrom_nil (cuts : List Ipv4Interval) : cuts.foldl cutFrom [] = [] := by
  induction cuts with
  | nil => rfl
  | cons cut cuts ih => exact ih

/-- The turns come to an end with the blocks or before, and then all has been cut. -/
theorem exists_turns? (excluded : List Ipv4Block) (rs : List Ipv4Interval) :
    ∃ n ≤ excluded.length,
      turns? (rs.map ofInterval) (excluded.map ofBlock) =
        some ((List.range n).map fun i =>
          (((excluded.take (i + 1)).map Ipv4Interval.ofBlock).foldl cutFrom rs).map ofInterval) ∧
      ((excluded.take n).map Ipv4Interval.ofBlock).foldl cutFrom rs =
        (excluded.map Ipv4Interval.ofBlock).foldl cutFrom rs := by
  induction excluded generalizing rs with
  | nil => exact ⟨0, Nat.le_refl 0, rfl, rfl⟩
  | cons b excluded ih =>
    have hcut : cutFrom? (rs.map ofInterval) (ofBlock b) =
        some ((cutFrom rs (.ofBlock b)).map ofInterval) := cutFrom?_ofInterval rs (.ofBlock b)
    rw [List.map_cons, turns?, hcut]
    cases hleft : cutFrom rs (.ofBlock b) with
    | nil =>
      refine ⟨1, by simp, ?_, ?_⟩
      · simp [hleft]
      · simp [hleft, foldl_cutFrom_nil]
    | cons r left =>
      obtain ⟨n, hn, hturns, hend⟩ := ih (r :: left)
      refine ⟨n + 1, by simpa using hn, ?_, ?_⟩
      · simp only [List.map_cons] at hturns
        simp [hleft, hturns, List.range_succ_eq_map, Function.comp_def]
      · simpa [hleft] using hend

end WordRange

/-- Between an interval and the next there are no addresses of the set. -/
theorem Runs.isChain_gap {S : Ipv4 → Prop} {rs : List Ipv4Interval} (h : Runs S rs) :
    rs.IsChain fun r s => r.last + 2 ≤ s.first ∧
      ∀ a : Ipv4, r.last < a.toNat → a.toNat < s.first → ¬S a := by
  rw [List.isChain_iff_forall_rel_of_append_cons_cons]
  rintro r s before after rfl
  obtain ⟨-, hpair, hbefore⟩ := List.pairwise_append.mp h.apart
  obtain ⟨hr, hpair⟩ := List.pairwise_cons.mp hpair
  obtain ⟨hs, -⟩ := List.pairwise_cons.mp hpair
  have hapart : r.last + 1 < s.first := hr s List.mem_cons_self
  refine ⟨hapart, fun a hlow hhigh ha => ?_⟩
  obtain ⟨t, ht, hat⟩ := (h.exists_mem_iff a).mpr ha
  rw [Ipv4Interval.mem_def] at hat
  -- an interval with the address would have to stand between the two
  simp only [List.mem_append, List.mem_cons] at ht
  rcases ht with ht | rfl | rfl | ht
  · have htr : t.last + 1 < r.first := hbefore t ht r List.mem_cons_self
    have hle := r.le
    omega
  · omega
  · omega
  · have hst : s.last + 1 < t.first := hs t ht
    have hle := s.le
    omega

namespace WordRange

/-- Between the ranges that are left lie excluded addresses. -/
theorem spaced_outside (excluded : List Ipv4Block) : Spaced excluded (outside excluded) := by
  have hruns := runs_intervalsOutside excluded
  constructor
  · intro w hw
    obtain ⟨r, -, rfl⟩ := List.mem_map.mp hw
    rw [UInt32.le_iff_toNat_le, toNat_first_ofInterval, toNat_last_ofInterval]
    exact r.le
  · refine List.pairwise_map.mpr (hruns.apart.imp fun {r s} hrs => ?_)
    have hle := r.le
    rw [Ipv4Interval.Apart] at hrs
    rw [UInt32.lt_iff_toNat_lt, toNat_first_ofInterval, toNat_first_ofInterval]
    omega
  · refine (List.isChain_map ofInterval).mpr (hruns.isChain_gap.imp fun r s hrs => ?_)
    simp only [toNat_first_ofInterval, toNat_last_ofInterval]
    exact ⟨hrs.1, fun a hlow hhigh => Classical.not_not.mp (hrs.2 a hlow hhigh)⟩

/-- Cutting the blocks out of the whole space one by one never leaves the words, and after each turn
there are the intervals outside the blocks so far, in order and spaced by excluded addresses, so that
sorting them changes nothing. A single cut leaves of an interval exactly the addresses outside the
cut, as two intervals at most. -/
theorem turns?_spaced_outside (excluded : List Ipv4Block) :
    (∃ n ≤ excluded.length,
      turns? [⟨0, 0xFFFFFFFF⟩] (excluded.map ofBlock) =
        some ((List.range n).map fun i => outside (excluded.take (i + 1))) ∧
      outside (excluded.take n) = outside excluded) ∧
    (∀ i, Spaced (excluded.take i) (outside (excluded.take i))) ∧
    (intervalsOutside excluded).mergeSort Ipv4Interval.before = intervalsOutside excluded ∧
    ∀ r cut : Ipv4Interval,
      (ofInterval r).without? (ofInterval cut) = some ((r.without cut).map ofInterval) ∧
      (r.without cut).length ≤ 2 ∧
      ∀ a, (∃ p ∈ r.without cut, a ∈ p) ↔ a ∈ r ∧ a ∉ cut := by
  refine ⟨?_, fun i => spaced_outside _, mergeSort_intervalsOutside excluded, fun r cut =>
    ⟨without?_ofInterval r cut, ?_, fun a => Ipv4Interval.exists_mem_without⟩⟩
  · obtain ⟨n, hn, hturns, hend⟩ := exists_turns? excluded [.full]
    exact ⟨n, hn, hturns, congrArg (List.map ofInterval) hend⟩
  · rw [Ipv4Interval.without]
    split
    · split <;> split <;> simp
    · simp

end WordRange

end VpnTunnel
