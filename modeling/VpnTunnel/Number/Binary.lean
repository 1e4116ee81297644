import VpnTunnel.Number.Power

/-!
# Binary floating point

Rounding a quotient of natural numbers to a binary floating-point format, to nearest with ties to
even, and the order of single-precision bit patterns. Magnitudes are handled as bit patterns
without the sign; infinity is the pattern after the largest finite one.
-/

namespace VpnTunnel.Number

/-- A binary interchange format: its precision in bits, the exponent of its least unit
(`2 ^ -leastUnit`), and the width of its exponent field. -/
structure Format where
  precision : Nat
  leastUnit : Nat
  exponentBits : Nat

/-- Single precision. -/
def binary32 : Format := ⟨24, 149, 8⟩

/-- Double precision. -/
def binary64 : Format := ⟨53, 1074, 11⟩

/-- The pattern of positive infinity. -/
def Format.infinity (f : Format) : Nat := (2 ^ f.exponentBits - 1) * 2 ^ (f.precision - 1)

/-- `num / den` to the nearest integer, a tie to the even neighbour. -/
def roundHalfEven (num den : Nat) : Nat :=
  let q := num / den
  let r := num % den
  if 2 * r < den then q else if den < 2 * r then q + 1 else q + q % 2

/-- `num / den * 2 ^ shift` as a quotient. -/
def scaleQuotient (num den : Nat) (shift : Int) : Nat × Nat :=
  if 0 ≤ shift then (num * 2 ^ shift.toNat, den) else (num, den * 2 ^ (-shift).toNat)

/-- The integer `e` with `2 ^ e ≤ num / den < 2 ^ (e + 1)`, for positive `num` and `den`. -/
def exponentOf (num den : Nat) : Int :=
  let e : Int := (num.log2 : Int) - (den.log2 : Int)
  let s := scaleQuotient num den (-e)
  if s.2 ≤ s.1 then e else e - 1

/-- The pattern of the value of `f` nearest to `num / den`. The unit in the last place is the least
unit of the format or the one that leaves `precision` bits, whichever is larger. -/
def Format.round (f : Format) (num den : Nat) : Nat :=
  if num = 0 ∨ den = 0 then 0
  else
    let unit : Int := max (-(f.leastUnit : Int)) (exponentOf num den - (f.precision - 1 : Nat))
    let s := scaleQuotient num den (-unit)
    let pattern := (unit + f.leastUnit).toNat * 2 ^ (f.precision - 1) + roundHalfEven s.1 s.2
    min pattern f.infinity

/-- The value of a finite pattern as a quotient. -/
def Format.value (f : Format) (pattern : Nat) : Nat × Nat :=
  let field := pattern / 2 ^ (f.precision - 1)
  if field = 0 then (pattern, 2 ^ f.leastUnit)
  else
    let significand := pattern % 2 ^ (f.precision - 1) + 2 ^ (f.precision - 1)
    scaleQuotient significand 1 ((field - 1 : Nat) - (f.leastUnit : Int))

/-- A double-precision number: its sign and the pattern of its magnitude. -/
structure Double where
  negative : Bool
  magnitude : Nat
deriving DecidableEq, Repr

/-- A single-precision number as its bit pattern, sign included. -/
structure Single where
  bits : UInt32
deriving DecidableEq, Repr

namespace Single

def zero : Single := ⟨0⟩

def ofMagnitude (negative : Bool) (magnitude : Nat) : Single :=
  ⟨UInt32.ofNat (magnitude + if negative then 2 ^ 31 else 0)⟩

/-- The nearest single-precision number to an integer. -/
def ofInt (n : Int) : Single := ofMagnitude (n < 0) (binary32.round n.natAbs 1)

/-- The nearest single-precision number to a double-precision one. -/
def ofDouble (x : Double) : Single :=
  if x.magnitude = binary64.infinity then ofMagnitude x.negative binary32.infinity
  else
    let v := binary64.value x.magnitude
    ofMagnitude x.negative (binary32.round v.1 v.2)

/-- The place of a number in the total order of bit patterns: negative numbers below positive ones
and turned round, zero with a sign below zero without, and the not-a-number patterns outermost. -/
def rank (x : Single) : Nat :=
  if x.bits.toNat < 2 ^ 31 then x.bits.toNat + 2 ^ 31 else 2 ^ 32 - 1 - x.bits.toNat

end Single

namespace Double

/-- The largest power of ten that scales a significand in one step. -/
def lastStep : Nat := 308

/-- `x * 10 ^ exponent`, in steps: a negative exponent beyond one step divides by the largest power
first, each step rounds, and the power of ten is rounded before it is used. -/
def scaleDown (magnitude : Nat) (exponent : Nat) : Nat :=
  if magnitude = 0 then 0
  else
    let v := binary64.value magnitude
    let by10 (e : Nat) : Nat :=
      let p := binary64.value (binary64.round (10 ^ e) 1)
      binary64.round (v.1 * p.2) (v.2 * p.1)
    if exponent ≤ lastStep then by10 exponent
    else scaleDown (by10 lastStep) (exponent - lastStep)
termination_by exponent
decreasing_by simp only [lastStep] at *; omega

/-- The double-precision number that the text of a decimal stands for, or nothing where it exceeds
the format. `significand` is the value of its leading digits. -/
def ofDecimal? (negative : Bool) (significand : Nat) (exponent : Int) : Option Double :=
  let magnitude := binary64.round significand 1
  if exponent < 0 then some ⟨negative, scaleDown magnitude (-exponent).toNat⟩
  else if magnitude = 0 then some ⟨negative, 0⟩
  else if exponent ≤ lastStep then
    let v := binary64.value magnitude
    let p := binary64.value (binary64.round (10 ^ exponent.toNat) 1)
    let scaled := binary64.round (v.1 * p.1) (v.2 * p.2)
    if scaled = binary64.infinity then none else some ⟨negative, scaled⟩
  else none

end Double

end VpnTunnel.Number
