import RemoteCache.Bytes

/-!
# Binary floating-point numbers of 64 bits

A number is kept as its bit pattern: one sign bit, eleven bits of exponent and fifty-two bits of
fraction. What it stands for is read off the pattern with natural and integer arithmetic, so
nothing here depends on the machine's floating-point unit.

## Main definitions

* `Binary64` — a bit pattern
* `Binary64.significand`, `Binary64.exponent` — a finite pattern stands for
  `significand * 2 ^ exponent`, up to its sign
* `Binary64.agrees` — equality of numbers: a NaN differs from everything, the two zeros agree
* `Binary64.isFinite`, `Binary64.isBelowZero`

## Main results

* `Binary64.agrees_self_iff` — a number agrees with itself unless it is a NaN
-/

namespace RemoteCache

/-- A 64-bit floating-point number, as its bit pattern. -/
structure Binary64 where
  /-- The pattern: sign, exponent and fraction, most significant bit first. -/
  bits : UInt64
deriving DecidableEq, Inhabited

namespace Binary64

/-- The positive zero. -/
def zero : Binary64 := ⟨0⟩

/-- The value of the exponent field when the number is infinite or a NaN. -/
def topExponent : Nat := 2047

/-- Whether the sign bit is set. It is set in a negative zero, and may be in a NaN. -/
def signBit (x : Binary64) : Bool := 2 ^ 63 ≤ x.bits.toNat

/-- The eleven bits of exponent, as they stand in the pattern. -/
def exponentField (x : Binary64) : Nat := x.bits.toNat / 2 ^ 52 % 2 ^ 11

/-- The fifty-two bits of fraction, without the leading bit that a normal number has besides. -/
def fraction (x : Binary64) : Nat := x.bits.toNat % 2 ^ 52

/-- Whether the pattern stands for no number at all. -/
def isNaN (x : Binary64) : Bool := x.exponentField == topExponent && x.fraction != 0

/-- Whether the pattern stands for an infinity, of either sign. -/
def isInfinite (x : Binary64) : Bool := x.exponentField == topExponent && x.fraction == 0

/-- Whether the pattern stands for a real number. -/
def isFinite (x : Binary64) : Bool := x.exponentField != topExponent

/-- Whether the pattern is one of the two zeros. -/
def isZero (x : Binary64) : Bool := x.exponentField == 0 && x.fraction == 0

/-- Whether the number is less than zero. The negative zero and a NaN are not. -/
def isBelowZero (x : Binary64) : Bool := x.signBit && !x.isNaN && !x.isZero

/-- The integer significand of a finite number. -/
def significand (x : Binary64) : Nat :=
  if x.exponentField = 0 then x.fraction else 2 ^ 52 + x.fraction

/-- The power of two that a finite number's significand is scaled with. -/
def exponent (x : Binary64) : Int := (max x.exponentField 1 : Nat) - 1075

/-- The pattern with the given sign bit and the given lower 63 bits. -/
def ofMagnitude (negative : Bool) (magnitude : Nat) : Binary64 :=
  ⟨(if negative then 2 ^ 63 + magnitude else magnitude).toUInt64⟩

/-- The lower 63 bits of an infinity. -/
def infinityMagnitude : Nat := topExponent * 2 ^ 52

/-- The infinity of a sign. -/
def infinity (negative : Bool) : Binary64 := ofMagnitude negative infinityMagnitude

/-- A quiet NaN. -/
def nan (negative : Bool) : Binary64 := ofMagnitude negative (infinityMagnitude + 2 ^ 51)

/-- Equality of numbers: a NaN differs from everything, itself included, and the two zeros are
equal. -/
def agrees (x y : Binary64) : Bool :=
  !x.isNaN && !y.isNaN && (x == y || (x.isZero && y.isZero))

theorem agrees_self_iff (x : Binary64) : x.agrees x = true ↔ x.isNaN = false := by
  simp [agrees]

end Binary64

end RemoteCache
