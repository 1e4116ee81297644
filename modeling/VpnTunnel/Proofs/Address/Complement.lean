import VpnTunnel.Proofs.Address.Tiling

/-!
# The complement of some blocks

Cutting blocks out of the whole space leaves the maximal intervals of addresses outside them, and
the tilings of these intervals are the shortest list of blocks with exactly those addresses.
-/

namespace VpnTunnel

namespace Ipv4Interval

theorem meets_iff {r s : Ipv4Interval} :
    r.meets s = true ↔ r.first ≤ s.last ∧ s.first ≤ r.last := by
  simp [meets]

/-- At least one address lies between the first interval and the second. -/
def Apart (r s : Ipv4Interval) : Prop := r.last + 1 < s.first

/-- What a cut leaves: the interval itself when the two do not meet, else the part before the cut
and the part behind it, as far as there are such addresses. -/
theorem mem_without_iff {r cut p : Ipv4Interval} : p ∈ r.without cut ↔
    (r.meets cut = false ∧ p = r) ∨
    (r.meets cut = true ∧ r.first < cut.first ∧ p.first = r.first ∧ p.last + 1 = cut.first) ∨
    (r.meets cut = true ∧ cut.last < r.last ∧ p.first = cut.last + 1 ∧ p.last = r.last) := by
  cases hmeet : r.meets cut with
  | false => simp [without, hmeet]
  | true =>
    obtain ⟨hfirst, hlast⟩ := meets_iff.mp hmeet
    obtain ⟨pfirst, plast, ple, plt⟩ := p
    simp only [without, hmeet, if_true, List.mem_append, hfirst, hlast, and_true,
      Bool.true_eq_false, false_and, true_and, false_or]
    apply or_congr
    · split
      · simp only [List.mem_singleton, mk.injEq]
        omega
      · simp only [List.not_mem_nil, false_iff]
        omega
    · split
      · simp only [List.mem_singleton, mk.injEq]
        omega
      · simp only [List.not_mem_nil, false_iff]
        omega

theorem bounds_of_mem_without {r cut p : Ipv4Interval} (h : p ∈ r.without cut) :
    r.first ≤ p.first ∧ p.last ≤ r.last := by
  rcases mem_without_iff.mp h with ⟨_, rfl⟩ | ⟨hmeet, _, _, _⟩ | ⟨hmeet, _, _, _⟩
  · exact ⟨Nat.le_refl _, Nat.le_refl _⟩
  · have hbounds := meets_iff.mp hmeet
    omega
  · have hbounds := meets_iff.mp hmeet
    omega

/-- What is left of an interval are its addresses outside the cut. -/
theorem exists_mem_without {r cut : Ipv4Interval} {a : Ipv4} :
    (∃ p ∈ r.without cut, a ∈ p) ↔ a ∈ r ∧ a ∉ cut := by
  simp only [mem_def]
  constructor
  · rintro ⟨p, hp, ha⟩
    rcases mem_without_iff.mp hp with ⟨hmeet, rfl⟩ | ⟨hmeet, _, _, _⟩ | ⟨hmeet, _, _, _⟩
    · have hno := mt meets_iff.mpr (Bool.eq_false_iff.mp hmeet)
      omega
    · have hbounds := meets_iff.mp hmeet
      have hcut := cut.le
      omega
    · have hbounds := meets_iff.mp hmeet
      have hcut := cut.le
      omega
  · rintro ⟨har, hac⟩
    have hlt := r.lt
    cases hmeet : r.meets cut with
    | false => exact ⟨r, mem_without_iff.mpr (.inl ⟨hmeet, rfl⟩), har⟩
    | true =>
      by_cases hleft : a.toNat < cut.first
      · refine ⟨⟨r.first, cut.first - 1, by omega, ?_⟩, mem_without_iff.mpr (.inr (.inl ?_)), ?_⟩
        · have hbounds := meets_iff.mp hmeet
          omega
        · exact ⟨hmeet, by omega, rfl, by simp only; omega⟩
        · simp only
          omega
      · refine ⟨⟨cut.last + 1, r.last, by omega, hlt⟩, mem_without_iff.mpr (.inr (.inr ?_)), ?_⟩
        · exact ⟨hmeet, by omega, rfl, rfl⟩
        · simp only
          omega

theorem pairwise_without (r cut : Ipv4Interval) : (r.without cut).Pairwise Apart := by
  have hcut := cut.le
  rw [without]
  split
  · split <;> split <;> simp [Apart]
    omega
  · exact List.pairwise_singleton _ _

end Ipv4Interval

/-- The intervals stand in ascending order, apart from each other, and have together exactly the
addresses of the set. -/
structure Runs (S : Ipv4 → Prop) (rs : List Ipv4Interval) : Prop where
  apart : rs.Pairwise Ipv4Interval.Apart
  exists_mem_iff : ∀ a, (∃ r ∈ rs, a ∈ r) ↔ S a

theorem runs_full : Runs (fun _ => True) [.full] := by
  constructor
  · exact List.pairwise_singleton _ _
  · intro a
    have hlt := a.isLt
    simp only [List.mem_singleton, exists_eq_left, iff_true, Ipv4Interval.mem_def,
      Ipv4Interval.full]
    omega

namespace Runs

variable {S : Ipv4 → Prop} {rs : List Ipv4Interval}

/-- A cut leaves the intervals in order and apart, and takes out just its own addresses. -/
theorem cutFrom (h : Runs S rs) (cut : Ipv4Interval) :
    Runs (fun a => S a ∧ a ∉ cut) (cutFrom rs cut) := by
  constructor
  · refine List.pairwise_flatMap.mpr ⟨fun r _ => r.pairwise_without cut, ?_⟩
    refine h.apart.imp fun {r s} hrs p hp q hq => ?_
    have hle := (Ipv4Interval.bounds_of_mem_without hp).2
    have hge := (Ipv4Interval.bounds_of_mem_without hq).1
    simp only [Ipv4Interval.Apart] at hrs ⊢
    omega
  · intro a
    have hpieces : (∃ p ∈ VpnTunnel.cutFrom rs cut, a ∈ p) ↔
        ∃ r ∈ rs, ∃ p ∈ r.without cut, a ∈ p := by
      simp only [VpnTunnel.cutFrom, List.mem_flatMap]
      constructor
      · rintro ⟨p, ⟨r, hr, hp⟩, ha⟩
        exact ⟨r, hr, p, hp, ha⟩
      · rintro ⟨r, hr, p, hp, ha⟩
        exact ⟨p, ⟨r, hr, hp⟩, ha⟩
    rw [hpieces, ← h.exists_mem_iff]
    simp only [Ipv4Interval.exists_mem_without]
    constructor
    · rintro ⟨r, hr, har, hac⟩
      exact ⟨⟨r, hr, har⟩, hac⟩
    · rintro ⟨⟨r, hr, har⟩, hac⟩
      exact ⟨r, hr, har, hac⟩

/-- Any number of cuts take out just the addresses of some cut. -/
theorem foldl_cutFrom (h : Runs S rs) (cuts : List Ipv4Interval) :
    Runs (fun a => S a ∧ ∀ cut ∈ cuts, a ∉ cut) (cuts.foldl VpnTunnel.cutFrom rs) := by
  induction cuts generalizing S rs with
  | nil => simpa using h
  | cons cut cuts ih =>
    rw [List.foldl_cons]
    have hrest := ih (h.cutFrom cut)
    simpa only [List.forall_mem_cons, and_assoc] using hrest

/-- Two of the intervals are the same one or apart. -/
theorem eq_or_apart (h : Runs S rs) {r s : Ipv4Interval} (hr : r ∈ rs) (hs : s ∈ rs) :
    r = s ∨ r.Apart s ∨ s.Apart r := by
  let R (r s : Ipv4Interval) : Prop := r = s ∨ r.Apart s ∨ s.Apart r
  have hrefl : ∀ r ∈ rs, R r r := fun _ _ => .inl rfl
  have hforth : rs.Pairwise R := h.apart.imp fun hrs => .inr (.inl hrs)
  have hback : rs.Pairwise (flip R) := h.apart.imp fun hrs => .inr (.inr hrs)
  exact List.Pairwise.forall_of_forall_of_flip hrefl hforth hback hr hs

/-- An address of the set next to one of the intervals lies in it. -/
theorem mem_of_adjacent (h : Runs S rs) {r : Ipv4Interval} (hr : r ∈ rs) {a : Ipv4} (ha : S a)
    (hlow : r.first ≤ a.toNat + 1) (hhigh : a.toNat ≤ r.last + 1) : a ∈ r := by
  obtain ⟨s, hs, has⟩ := (h.exists_mem_iff a).mpr ha
  rw [Ipv4Interval.mem_def] at has
  rcases h.eq_or_apart hr hs with rfl | hrs | hsr
  · exact has
  · rw [Ipv4Interval.Apart] at hrs
    omega
  · rw [Ipv4Interval.Apart] at hsr
    omega

/-- A block of the set that meets one of the intervals lies in it. -/
theorem subset_of_meets (h : Runs S rs) {r : Ipv4Interval} (hr : r ∈ rs) {c : Ipv4Block}
    (hc : ∀ a ∈ c, S a) {x : Ipv4} (hxc : x ∈ c) (hxr : x ∈ r) : ∀ a ∈ c, a ∈ r := by
  intro a ha
  have hrle := r.le
  have hrlt := r.lt
  rw [Ipv4Block.mem_def] at ha hxc
  rw [Ipv4Interval.mem_def] at hxr ⊢
  by_contra hout
  rcases Nat.lt_or_ge a.toNat r.first with hlow | hge
  · -- the address just before the interval lies in the block, hence in the set
    have hbelow := h.mem_of_adjacent hr (a := ⟨r.first - 1, by omega⟩)
      (hc _ (Ipv4Block.mem_def.mpr ⟨by simp only; omega, by simp only; omega⟩))
      (by simp only; omega) (by simp only; omega)
    rw [Ipv4Interval.mem_def] at hbelow
    simp only at hbelow
    omega
  · have hlast := a.isLt
    have habove := h.mem_of_adjacent hr (a := ⟨r.last + 1, by omega⟩)
      (hc _ (Ipv4Block.mem_def.mpr ⟨by simp only; omega, by simp only; omega⟩))
      (by simp only; omega) (by simp only; omega)
    rw [Ipv4Interval.mem_def] at habove
    simp only at habove
    omega

/-- The blocks of all the intervals. -/
theorem covers_flatMap (h : Runs S rs) (a : Ipv4) :
    Covers (rs.flatMap Ipv4Interval.toBlocks) a ↔ S a := by
  rw [← h.exists_mem_iff]
  simp only [← Ipv4Interval.covers_toBlocks, Covers, List.mem_flatMap]
  constructor
  · rintro ⟨b, ⟨r, hr, hb⟩, ha⟩
    exact ⟨r, hr, b, hb, ha⟩
  · rintro ⟨r, hr, b, hb, ha⟩
    exact ⟨b, ⟨r, hr, hb⟩, ha⟩

/-- The blocks of intervals that stand apart come one after the other. -/
theorem pairwise_flatMap (h : Runs S rs) :
    (rs.flatMap Ipv4Interval.toBlocks).Pairwise fun b c => b.last < c.first := by
  refine List.pairwise_flatMap.mpr ⟨fun r _ => r.tiles_toBlocks.pairwise, ?_⟩
  refine h.apart.imp fun {r s} hrs b hb c hc => ?_
  have hle := (r.tiles_toBlocks.bounds b hb).2
  have hge := (s.tiles_toBlocks.bounds c hc).1
  rw [Ipv4Interval.Apart] at hrs
  omega

theorem trunc_of_mem_flatMap (rs : List Ipv4Interval) :
    ∀ b ∈ rs.flatMap Ipv4Interval.toBlocks, b.trunc = b := by
  intro b hb
  obtain ⟨r, _, hbr⟩ := List.mem_flatMap.mp hb
  exact Ipv4Interval.trunc_of_mem_blocksFrom r.lt b hbr

/-- A block that is maximal in its interval is maximal in the whole set. -/
theorem maximal_of_mem_flatMap (h : Runs S rs) :
    ∀ b ∈ rs.flatMap Ipv4Interval.toBlocks, b.Maximal S := by
  intro b hb
  obtain ⟨r, hr, hbr⟩ := List.mem_flatMap.mp hb
  have hmax := Ipv4Interval.maximal_of_mem_toBlocks b hbr
  constructor
  · intro a ha
    exact (h.exists_mem_iff a).mp ⟨r, hr, hmax.inside a ha⟩
  · intro c hc hmem
    exact hmax.absorbs c (h.subset_of_meets hr hc hmem (hmax.inside _ b.firstAddress_mem)) hmem

end Runs

theorem mem_ofBlock {a : Ipv4} {b : Ipv4Block} : a ∈ Ipv4Interval.ofBlock b ↔ a ∈ b := Iff.rfl

/-- The intervals left over are the maximal ones outside the excluded blocks. -/
theorem runs_intervalsOutside (excluded : List Ipv4Block) :
    Runs (fun a => ¬Covers excluded a) (intervalsOutside excluded) := by
  have h := runs_full.foldl_cutFrom (excluded.map Ipv4Interval.ofBlock)
  have hset : (fun a => True ∧ ∀ cut ∈ excluded.map Ipv4Interval.ofBlock, a ∉ cut) =
      fun a => ¬Covers excluded a := by
    funext a
    simp [Covers, mem_ofBlock]
  rwa [hset] at h

/-- The intervals stand in order already. -/
theorem mergeSort_intervalsOutside (excluded : List Ipv4Block) :
    (intervalsOutside excluded).mergeSort Ipv4Interval.before = intervalsOutside excluded := by
  apply List.mergeSort_of_pairwise
  refine (runs_intervalsOutside excluded).apart.imp fun {r s} hrs => ?_
  have hle := r.le
  rw [Ipv4Interval.Apart] at hrs
  simp only [Ipv4Interval.before, Bool.or_eq_true, decide_eq_true_eq]
  omega

/-- The complement consists of the blocks of the intervals that are left. -/
theorem complementBlocks_eq_flatMap (excluded : List Ipv4Block) :
    complementBlocks excluded = (intervalsOutside excluded).flatMap Ipv4Interval.toBlocks := by
  rw [complementBlocks, mergeSort_intervalsOutside]

/-- The complement has exactly the addresses that no excluded block has. -/
theorem covers_complementBlocks_iff (excluded : List Ipv4Block) (a : Ipv4) :
    Covers (complementBlocks excluded) a ↔ ¬Covers excluded a := by
  rw [complementBlocks_eq_flatMap]
  exact (runs_intervalsOutside excluded).covers_flatMap a

/-- The complement is the shortest list of blocks for its addresses, in ascending order. -/
theorem complementBlocks_ascending_disjoint_minimal (excluded : List Ipv4Block) :
    (complementBlocks excluded).Pairwise (fun b c => b.addr.toNat < c.addr.toNat) ∧
    (complementBlocks excluded).Pairwise Ipv4Block.Disjoint ∧
    (∀ b ∈ complementBlocks excluded, b.trunc = b) ∧
    ∀ cover : List Ipv4Block, (∀ a, Covers cover a ↔ Covers (complementBlocks excluded) a) →
      (complementBlocks excluded).length ≤ cover.length := by
  have hruns := runs_intervalsOutside excluded
  have htrunc := Runs.trunc_of_mem_flatMap (intervalsOutside excluded)
  have hdisjoint := hruns.pairwise_flatMap.imp Ipv4Block.disjoint_of_last_lt_first
  rw [complementBlocks_eq_flatMap]
  refine ⟨?_, hdisjoint, htrunc, ?_⟩
  · refine hruns.pairwise_flatMap.imp_of_mem fun {b c} hb hc hlt => ?_
    rw [← htrunc b hb, ← htrunc c hc]
    exact Nat.lt_of_le_of_lt b.first_le_last hlt
  · intro cover hcover
    apply length_le_length_of_maximal hruns.maximal_of_mem_flatMap hdisjoint
    intro a
    rw [hcover, hruns.covers_flatMap]

end VpnTunnel
