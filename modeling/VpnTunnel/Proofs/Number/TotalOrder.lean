import Mathlib.Algebra.Order.Field.Rat
import Mathlib.Data.Int.ConditionallyCompleteOrder
import Mathlib.Order.Monotone.Odd
import Mathlib.Tactic.NormNum
import Mathlib.Tactic.Positivity
import Mathlib.Tactic.Ring
import VpnTunnel.Number.Binary

/-!
# The total order of bit patterns

Any two single-precision patterns can be compared: numbers by their values, a zero with a sign below
the one without, and the patterns that are no numbers outside all that are, by sign and payload. The
rank of a pattern is its place in this order, and patterns of one rank are one pattern.
-/

namespace VpnTunnel.Number

/-- Scaling a quotient multiplies it by a power of two. -/
theorem scaleQuotient_eq (num den : Nat) (shift : ℤ) :
    ((scaleQuotient num den shift).1 : ℚ) / (scaleQuotient num den shift).2 =
      num / den * 2 ^ shift := by
  unfold scaleQuotient
  split
  next h =>
    obtain ⟨n, rfl⟩ := Int.eq_ofNat_of_zero_le h
    simp [mul_div_right_comm]
  next h =>
    obtain ⟨n, hn⟩ := Int.eq_ofNat_of_zero_le (Int.neg_nonneg.mpr (Int.le_of_lt (Int.not_le.mp h)))
    obtain rfl : shift = -n := by omega
    simp [div_eq_mul_inv, mul_assoc, mul_comm]

namespace Format

variable {f : Format} {p q : Nat}

/-- The value of a finite pattern. Infinity counts as the power of two above all of them. -/
def toRat (f : Format) (pattern : Nat) : ℚ := (f.value pattern).1 / (f.value pattern).2

def units (f : Format) (pattern : Nat) : Nat :=
  let place := 2 ^ (f.precision - 1)
  if pattern / place = 0 then pattern
  else (pattern % place + place) * 2 ^ (pattern / place - 1)

theorem toRat_eq_units (f : Format) (p : Nat) : f.toRat p = f.units p / 2 ^ f.leastUnit := by
  unfold toRat value units
  dsimp only
  split
  next => simp
  next h =>
    rw [scaleQuotient_eq, zpow_sub₀ (by norm_num), zpow_natCast, zpow_natCast]
    push_cast
    ring

/-- The patterns with one exponent field have their values between two powers of two. -/
theorem units_lt_of_field (f : Format) (p : Nat) :
    f.units p < 2 ^ (f.precision - 1) * 2 ^ (p / 2 ^ (f.precision - 1)) := by
  have hplace : 0 < 2 ^ (f.precision - 1) := Nat.two_pow_pos _
  have hmod := Nat.mod_lt p hplace
  unfold units
  dsimp only
  split
  next h =>
    rw [h, Nat.pow_zero, Nat.mul_one]
    exact Nat.lt_of_div_eq_zero hplace h
  next h =>
    obtain ⟨n, hn⟩ := Nat.exists_eq_succ_of_ne_zero h
    rw [hn, Nat.pow_succ, Nat.succ_sub_one, Nat.mul_comm (2 ^ n) 2, ← Nat.mul_assoc]
    exact Nat.mul_lt_mul_of_pos_right (by omega) (Nat.two_pow_pos n)

theorem le_units_of_field (h : p / 2 ^ (f.precision - 1) < q / 2 ^ (f.precision - 1)) :
    2 ^ (f.precision - 1) * 2 ^ (p / 2 ^ (f.precision - 1)) ≤ f.units q := by
  unfold units
  dsimp only
  rw [if_neg (Nat.ne_zero_of_lt h)]
  exact Nat.mul_le_mul (Nat.le_add_left _ _)
    (Nat.pow_le_pow_right (by decide) (Nat.le_sub_one_of_lt h))

/-- A larger pattern has a larger value. -/
theorem units_lt_units (h : p < q) : f.units p < f.units q := by
  obtain hfield | hfield := Nat.lt_or_eq_of_le (Nat.div_le_div_right (c := 2 ^ (f.precision - 1))
    (Nat.le_of_lt h))
  · exact Nat.lt_of_lt_of_le (f.units_lt_of_field p) (le_units_of_field hfield)
  · have hp := Nat.div_add_mod p (2 ^ (f.precision - 1))
    have hq := Nat.div_add_mod q (2 ^ (f.precision - 1))
    unfold units
    dsimp only
    rw [hfield]
    split
    · exact h
    · rw [hfield] at hp
      exact Nat.mul_lt_mul_of_pos_right (by omega) (Nat.two_pow_pos _)

/-- A greater pattern stands for a greater value. -/
theorem strictMono_toRat (f : Format) : StrictMono f.toRat := by
  intro p q h
  rw [toRat_eq_units, toRat_eq_units]
  apply div_lt_div_of_pos_right _ (by positivity)
  exact_mod_cast units_lt_units h

@[simp] theorem toRat_zero (f : Format) : f.toRat 0 = 0 := by simp [toRat_eq_units, units]

end Format

namespace Single

variable {x y : Single}

def IsNegative (x : Single) : Prop := 2 ^ 31 ≤ x.bits.toNat

def magnitude (x : Single) : Nat := x.bits.toNat % 2 ^ 31

/-- The pattern is that of no number, infinities being numbers. -/
def IsNan (x : Single) : Prop := binary32.infinity < x.magnitude

instance (x : Single) : Decidable x.IsNegative := inferInstanceAs (Decidable (_ ≤ _))

instance (x : Single) : Decidable x.IsNan := inferInstanceAs (Decidable (_ < _))

/-- What a pattern that is no number carries. The first of its bits tells quiet from signalling. -/
def payload (x : Single) : Nat := x.magnitude - binary32.infinity

def toRat (x : Single) : ℚ :=
  if x.IsNegative then -binary32.toRat x.magnitude else binary32.toRat x.magnitude

/-- The total order of IEEE 754, as far as one pattern is below another. -/
inductive Precedes (x y : Single) : Prop
  | less (hx : ¬x.IsNan) (hy : ¬y.IsNan) (h : x.toRat < y.toRat)
  /-- Equal numbers that differ are zeros. -/
  | signedZero (hx : ¬x.IsNan) (hy : ¬y.IsNan) (h : x.toRat = y.toRat) (hneg : x.IsNegative)
    (hpos : ¬y.IsNegative)
  | belowNumbers (hx : x.IsNan) (hy : ¬y.IsNan) (hneg : x.IsNegative)
  | aboveNumbers (hx : ¬x.IsNan) (hy : y.IsNan) (hpos : ¬y.IsNegative)
  | bySign (hx : x.IsNan) (hy : y.IsNan) (hneg : x.IsNegative) (hpos : ¬y.IsNegative)
  | byPayload (hx : x.IsNan) (hy : y.IsNan) (hxpos : ¬x.IsNegative) (hypos : ¬y.IsNegative)
    (h : x.payload < y.payload)
  /-- Below the numbers the order of payloads is turned round. -/
  | byPayloadTurned (hx : x.IsNan) (hy : y.IsNan) (hxneg : x.IsNegative) (hyneg : y.IsNegative)
    (h : y.payload < x.payload)

def signed (x : Single) : ℤ := if x.IsNegative then -x.magnitude else x.magnitude

theorem signed_of_negative (h : x.IsNegative) : x.signed = -x.magnitude := if_pos h

theorem signed_of_not_negative (h : ¬x.IsNegative) : x.signed = x.magnitude := if_neg h

theorem signed_nonpos (h : x.IsNegative) : x.signed ≤ 0 := by
  rw [signed_of_negative h]
  omega

theorem signed_nonneg (h : ¬x.IsNegative) : 0 ≤ x.signed := by
  rw [signed_of_not_negative h]
  omega

theorem rank_of_negative (h : x.IsNegative) : (x.rank : ℤ) = 2 ^ 31 - 1 + x.signed := by
  have hbits := x.bits.toNat_lt
  rw [signed_of_negative h]
  unfold IsNegative at h
  rw [rank, if_neg (by omega), magnitude]
  omega

theorem rank_of_not_negative (h : ¬x.IsNegative) : (x.rank : ℤ) = 2 ^ 31 + x.signed := by
  rw [signed_of_not_negative h]
  unfold IsNegative at h
  rw [rank, if_pos (by omega), magnitude]
  omega

/-- Ranks compare as signed magnitudes do, and signs where these agree. -/
theorem rank_lt_rank_iff : x.rank < y.rank ↔
    x.signed < y.signed ∨ x.signed = y.signed ∧ x.IsNegative ∧ ¬y.IsNegative := by
  by_cases hx : x.IsNegative <;> by_cases hy : y.IsNegative
  · have := rank_of_negative hx
    have := rank_of_negative hy
    simp only [hx, hy, not_true_eq_false, and_false, or_false]
    omega
  · have := rank_of_negative hx
    have := rank_of_not_negative hy
    have := signed_nonpos hx
    have := signed_nonneg hy
    simp only [hx, hy, not_false_eq_true, and_true]
    omega
  · have := rank_of_not_negative hx
    have := rank_of_negative hy
    have := signed_nonneg hx
    have := signed_nonpos hy
    simp only [hx, hy, false_and, and_false, or_false]
    omega
  · have := rank_of_not_negative hx
    have := rank_of_not_negative hy
    simp only [hx, hy, false_and, and_false, or_false]
    omega

/-- No two patterns have the same rank. -/
theorem rank_injective : Function.Injective rank := by
  intro x y h
  have hx := x.bits.toNat_lt
  have hy := y.bits.toNat_lt
  have hbits : x.bits = y.bits := by
    apply UInt32.toNat_inj.mp
    unfold rank at h
    split at h <;> split at h <;> omega
  cases x
  cases y
  exact congrArg mk hbits

theorem sign_mul_toRat (n : Nat) : ((n : ℤ).sign : ℚ) * binary32.toRat n = binary32.toRat n := by
  cases n with
  | zero => simp
  | succ n => rw [Int.sign_eq_one_of_pos (by omega), Int.cast_one, one_mul]

/-- The value is an odd function of the signed magnitude, and increasing. -/
theorem strictMono_sign_mul_toRat :
    StrictMono fun z : ℤ => (z.sign : ℚ) * binary32.toRat z.natAbs := by
  apply strictMono_of_odd_strictMonoOn_nonneg
  · intro z
    change (((-z).sign : ℤ) : ℚ) * binary32.toRat (-z).natAbs = -_
    rw [Int.sign_neg, Int.natAbs_neg, Int.cast_neg, neg_mul]
  · intro z hz w hw h
    obtain ⟨n, rfl⟩ := Int.eq_ofNat_of_zero_le hz
    obtain ⟨k, rfl⟩ := Int.eq_ofNat_of_zero_le hw
    simp only [Int.natAbs_natCast, sign_mul_toRat]
    exact binary32.strictMono_toRat (Int.ofNat_lt.mp h)

theorem toRat_eq_sign_mul (x : Single) :
    x.toRat = (x.signed.sign : ℚ) * binary32.toRat x.signed.natAbs := by
  by_cases h : x.IsNegative
  · rw [toRat, if_pos h, signed_of_negative h, Int.sign_neg, Int.natAbs_neg, Int.natAbs_natCast,
      Int.cast_neg, neg_mul, sign_mul_toRat]
  · rw [toRat, if_neg h, signed_of_not_negative h, Int.natAbs_natCast, sign_mul_toRat]

/-- Numbers compare as their magnitudes do with the signs. -/
theorem toRat_lt_toRat_iff : x.toRat < y.toRat ↔ x.signed < y.signed := by
  rw [toRat_eq_sign_mul, toRat_eq_sign_mul]
  exact strictMono_sign_mul_toRat.lt_iff_lt

theorem toRat_eq_toRat_iff : x.toRat = y.toRat ↔ x.signed = y.signed := by
  rw [toRat_eq_sign_mul, toRat_eq_sign_mul]
  exact strictMono_sign_mul_toRat.injective.eq_iff

theorem natAbs_signed (x : Single) : x.signed.natAbs = x.magnitude := by
  unfold signed
  split <;> simp

theorem isNan_iff : x.IsNan ↔ binary32.infinity < x.signed.natAbs := by
  rw [natAbs_signed, IsNan]

theorem payload_eq (x : Single) : x.payload = x.signed.natAbs - binary32.infinity := by
  rw [natAbs_signed, payload]

/-- What is below another is so by its signed magnitude, or is a zero by its sign. -/
theorem Precedes.signed_lt (h : x.Precedes y) :
    x.signed < y.signed ∨ x.signed = y.signed ∧ x.IsNegative ∧ ¬y.IsNegative := by
  cases h with
  | less _ _ h => exact .inl (toRat_lt_toRat_iff.mp h)
  | signedZero _ _ h hneg hpos => exact .inr ⟨toRat_eq_toRat_iff.mp h, hneg, hpos⟩
  | belowNumbers hx hy hneg =>
    rw [isNan_iff] at hx hy
    have := signed_nonpos hneg
    omega
  | aboveNumbers hx hy hpos =>
    rw [isNan_iff] at hx hy
    have := signed_nonneg hpos
    omega
  | bySign hx hy hneg hpos =>
    rw [isNan_iff] at hx hy
    have := signed_nonpos hneg
    have := signed_nonneg hpos
    omega
  | byPayload hx hy hxpos hypos h =>
    rw [payload_eq, payload_eq] at h
    have := signed_nonneg hxpos
    have := signed_nonneg hypos
    omega
  | byPayloadTurned hx hy hxneg hyneg h =>
    rw [payload_eq, payload_eq] at h
    have := signed_nonpos hxneg
    have := signed_nonpos hyneg
    omega

theorem precedes_of_signed_lt (h : x.signed < y.signed) : x.Precedes y := by
  by_cases hx : x.IsNan <;> by_cases hy : y.IsNan
  · have hx' := isNan_iff.mp hx
    by_cases hxneg : x.IsNegative <;> by_cases hyneg : y.IsNegative
    · apply Precedes.byPayloadTurned hx hy hxneg hyneg
      have := signed_nonpos hxneg
      have := signed_nonpos hyneg
      rw [payload_eq, payload_eq]
      omega
    · exact .bySign hx hy hxneg hyneg
    · have := signed_nonneg hxneg
      have := signed_nonpos hyneg
      omega
    · have hy' := isNan_iff.mp hy
      apply Precedes.byPayload hx hy hxneg hyneg
      have := signed_nonneg hxneg
      have := signed_nonneg hyneg
      rw [payload_eq, payload_eq]
      omega
  · have hx' := isNan_iff.mp hx
    have hy' := mt isNan_iff.mpr hy
    apply Precedes.belowNumbers hx hy
    apply Classical.byContradiction
    intro hpos
    have := signed_nonneg hpos
    omega
  · have hx' := mt isNan_iff.mpr hx
    have hy' := isNan_iff.mp hy
    apply Precedes.aboveNumbers hx hy
    intro hneg
    have := signed_nonpos hneg
    omega
  · exact .less hx hy (toRat_lt_toRat_iff.mpr h)

/-- One pattern is below another when its rank is smaller. -/
theorem precedes_iff_rank_lt : x.Precedes y ↔ x.rank < y.rank := by
  rw [rank_lt_rank_iff]
  constructor
  · exact Precedes.signed_lt
  · rintro (h | ⟨h, hneg, hpos⟩)
    · exact precedes_of_signed_lt h
    · -- both are zeros
      have hzero : x.signed = 0 := Int.le_antisymm (signed_nonpos hneg) (h ▸ signed_nonneg hpos)
      have hx : ¬x.IsNan := by rw [isNan_iff, hzero]; exact Nat.not_lt_zero _
      have hy : ¬y.IsNan := by rw [isNan_iff, ← h, hzero]; exact Nat.not_lt_zero _
      exact .signedZero hx hy (toRat_eq_toRat_iff.mpr h) hneg hpos

/-- Of two patterns one is below the other, and what is below is below all that is above. -/
theorem isStrictTotalOrder_precedes : IsStrictTotalOrder Single Precedes where
  trichotomous x y hxy hyx := by
    rw [precedes_iff_rank_lt] at hxy hyx
    exact rank_injective (by omega)
  irrefl x h := Nat.lt_irrefl _ (precedes_iff_rank_lt.mp h)
  trans x y z hxy hyz := by
    rw [precedes_iff_rank_lt] at hxy hyz ⊢
    exact Nat.lt_trans hxy hyz

end Single

end VpnTunnel.Number
