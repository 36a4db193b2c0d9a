import Mathlib.Algebra.Ring.Nat

/-! # Floating-point formats

Bit patterns of the formats binary32 and binary64. Finite numbers of a format
are equal exactly if their patterns are, apart from the two zeros. -/

namespace ClearSpace.FloatFormats

/-- A pattern of binary32 for its number: both zeros are `0`. -/
def value32 (bits : UInt32) : UInt32 := if bits = 0x80000000 then 0 else bits

def value64 (bits : UInt64) : UInt64 := if bits = 0x8000000000000000 then 0 else bits

/-- Neither an infinity nor not a number. -/
def Finite32 (bits : UInt32) : Prop := bits.toNat / 2 ^ 23 % 2 ^ 8 ≠ 255

instance (bits : UInt32) : Decidable (Finite32 bits) :=
  inferInstanceAs (Decidable (_ ≠ _))

/-! ## Between the formats -/

/-- The exponent of binary64 has the larger bias by 896; zero keeps its own. -/
def widenExponent (exponent : Nat) : Nat := if exponent = 0 then 0 else exponent + 896

def narrowExponent (exponent : Nat) : Nat := exponent - 896

/-- From binary32 to binary64; exact for zeros and normal numbers. -/
def widen (bits : UInt32) : UInt64 :=
  .ofNat (bits.toNat / 2 ^ 31 * 2 ^ 63 +
    widenExponent (bits.toNat / 2 ^ 23 % 2 ^ 8) * 2 ^ 52 + bits.toNat % 2 ^ 23 * 2 ^ 29)

def narrow (wide : UInt64) : UInt32 :=
  .ofNat (wide.toNat / 2 ^ 63 * 2 ^ 31 +
    narrowExponent (wide.toNat / 2 ^ 52 % 2 ^ 11) * 2 ^ 23 + wide.toNat / 2 ^ 29 % 2 ^ 23)

private theorem narrow_widen (bits : UInt32) : narrow (widen bits) = bits := by
  apply UInt32.toNat_inj.mp
  have bound := bits.toNat_lt
  have sign : bits.toNat / 2 ^ 31 ≤ 1 := by omega
  have exponent : widenExponent (bits.toNat / 2 ^ 23 % 2 ^ 8) < 2 ^ 11 ∧
      narrowExponent (widenExponent (bits.toNat / 2 ^ 23 % 2 ^ 8)) =
        bits.toNat / 2 ^ 23 % 2 ^ 8 := by
    unfold widenExponent narrowExponent
    split <;> omega
  have wide : (widen bits).toNat = bits.toNat / 2 ^ 31 * 2 ^ 63 +
      widenExponent (bits.toNat / 2 ^ 23 % 2 ^ 8) * 2 ^ 52 +
        bits.toNat % 2 ^ 23 * 2 ^ 29 := by
    rw [widen, UInt64.toNat_ofNat']
    omega
  generalize widenExponent (bits.toNat / 2 ^ 23 % 2 ^ 8) = wideExponent at exponent wide
  have parts : (widen bits).toNat / 2 ^ 63 = bits.toNat / 2 ^ 31 ∧
      (widen bits).toNat / 2 ^ 52 % 2 ^ 11 = wideExponent ∧
      (widen bits).toNat / 2 ^ 29 % 2 ^ 23 = bits.toNat % 2 ^ 23 := by
    omega
  rw [narrow, parts.1, parts.2.1, parts.2.2, exponent.2, UInt32.toNat_ofNat']
  omega

/-- Numbers that are equal in binary64 are equal when narrowed. -/
theorem value32_narrow {bits : UInt32} {wide : UInt64}
    (same : value64 wide = value64 (widen bits)) :
    value32 (narrow wide) = value32 bits := by
  have zero : narrow 0 = 0 := by decide
  have negativeZero : narrow 0x8000000000000000 = 0x80000000 := by decide
  have back := narrow_widen bits
  unfold value64 at same
  split at same
  next wideZero =>
    rw [wideZero, negativeZero]
    split at same
    next widened => rw [← back, widened, negativeZero]
    next => rw [← back, ← same, zero]; decide
  next =>
    split at same
    next widened => rw [← back, widened, same, zero, negativeZero]; decide
    next => rw [same, back]

end ClearSpace.FloatFormats
