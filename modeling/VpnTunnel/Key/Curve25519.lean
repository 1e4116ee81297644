import VpnTunnel.Number.Power

/-!
# Curve25519

Multiplication of the base point by a secret scalar, in the Montgomery form of the curve
`v ^ 2 = u ^ 3 + 486662 u ^ 2 + u` over the integers modulo `2 ^ 255 - 19`. Only the coordinate `u`
is computed. Byte strings are little-endian.
-/

namespace VpnTunnel.Curve25519

/-- The prime of the field. -/
def p : Nat := 2 ^ 255 - 19

def add (a b : Nat) : Nat := (a + b) % p

def sub (a b : Nat) : Nat := (a + (p - b % p)) % p

def mul (a b : Nat) : Nat := a * b % p

/-- `a ^ e` in the field, by repeated squaring. -/
def pow (a e : Nat) : Nat :=
  if e = 0 then 1
  else
    let h := pow (mul a a) (e / 2)
    if e % 2 = 1 then mul a h else h
termination_by e
decreasing_by omega

/-- The inverse of a nonzero element. -/
def inv (a : Nat) : Nat := pow a (p - 2)

/-- A multiple of a point as a quotient `x / z` of field elements. -/
structure Projective where
  x : Nat
  z : Nat

/-- One rung of the ladder: from `k · P` and `(k + 1) · P` to `2k · P` and `(2k + 1) · P`, where `u`
is the coordinate of `P`. -/
def rung (u : Nat) (r s : Projective) : Projective × Projective :=
  let a := add r.x r.z
  let b := sub r.x r.z
  let aa := mul a a
  let bb := mul b b
  let e := sub aa bb
  let da := mul (sub s.x s.z) a
  let cb := mul (add s.x s.z) b
  let sum := add da cb
  let diff := sub da cb
  (⟨mul aa bb, mul e (add aa (mul 121665 e))⟩, ⟨mul sum sum, mul u (mul diff diff)⟩)

/-- The ladder over the lowest `bits` bits of the scalar, from the highest down. The pair always
holds a multiple of the point and the next one. -/
def ladder (u scalar : Nat) : (bits : Nat) → Projective × Projective → Projective × Projective
  | 0, pair => pair
  | n + 1, (r, s) =>
    if scalar / 2 ^ n % 2 = 1 then
      let (t, d) := rung u s r
      ladder u scalar n (d, t)
    else ladder u scalar n (rung u r s)

/-- The coordinate of `scalar · P`. -/
def multiply (scalar u : Nat) : Nat :=
  let r := (ladder u scalar 255 (⟨1, 0⟩, ⟨u, 1⟩)).1
  mul r.x (inv r.z)

def ofBytes (bytes : List UInt8) : Nat := bytes.foldr (fun b n => b.toNat + 256 * n) 0

def toBytes : (length : Nat) → Nat → List UInt8
  | 0, _ => []
  | k + 1, n => UInt8.ofNat (n % 256) :: toBytes k (n / 256)

theorem length_toBytes (k n : Nat) : (toBytes k n).length = k := by
  induction k generalizing n with
  | zero => rfl
  | succ k ih => simp [toBytes, ih]

/-- A secret made a scalar: the lowest three bits clear, bit 255 clear and bit 254 set. -/
def clamp (n : Nat) : Nat := n % 2 ^ 254 / 8 * 8 + 2 ^ 254

/-- The coordinate of the base point. -/
def base : Nat := 9

/-- The public bytes that belong to secret ones. -/
def publicBytes (secret : List UInt8) : List UInt8 :=
  toBytes 32 (multiply (clamp (ofBytes secret)) base)

end VpnTunnel.Curve25519
