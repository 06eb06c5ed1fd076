import RemoteCache.Binary64.Basic

/-!
# Rounding a quotient to the nearest floating-point number

## Main definitions

* `roundQuotient` — the integer nearest to a quotient, a half going to the even neighbour
* `Binary64.nearest?` — the finite number nearest to a quotient of naturals, a tie going to the
  even significand; none when the quotient lies beyond the finite numbers
* `Binary64.integerNear` — the floating-point number nearest to a natural number, as an integer

## Main results

* `roundQuotient_le`, `le_roundQuotient` — the rounded quotient is off by at most one half
-/

namespace RemoteCache

/-- The integer nearest to `num / den`; a half goes to the even neighbour. -/
def roundQuotient (num den : Nat) : Nat :=
  let low := num / den
  let rest := num % den
  if 2 * rest < den then low
  else if den < 2 * rest then low + 1
  else if low % 2 = 0 then low
  else low + 1

/-- The rounded quotient exceeds the quotient by at most one half. -/
theorem roundQuotient_le (num den : Nat) : 2 * (roundQuotient num den * den) ≤ 2 * num + den := by
  have split := Nat.div_add_mod num den
  have expand : (num / den + 1) * den = den * (num / den) + den := by
    rw [Nat.add_mul, Nat.one_mul, Nat.mul_comm]
  have comm : num / den * den = den * (num / den) := Nat.mul_comm _ _
  simp only [roundQuotient]
  split
  · omega
  · split
    · omega
    · split <;> omega

/-- The rounded quotient falls short of the quotient by at most one half. -/
theorem le_roundQuotient {num den : Nat} (h : 0 < den) :
    2 * num ≤ 2 * (roundQuotient num den * den) + den := by
  have split := Nat.div_add_mod num den
  have bound := Nat.mod_lt num h
  have expand : (num / den + 1) * den = den * (num / den) + den := by
    rw [Nat.add_mul, Nat.one_mul, Nat.mul_comm]
  have comm : num / den * den = den * (num / den) := Nat.mul_comm _ _
  simp only [roundQuotient]
  split
  · omega
  · split
    · omega
    · split <;> omega

namespace Binary64

/-- `num / den` over `2 ^ exponent`, as a quotient of naturals. -/
def scaleDown (num den : Nat) (exponent : Int) : Nat × Nat :=
  if 0 ≤ exponent then (num, den * 2 ^ exponent.toNat) else (num * 2 ^ (-exponent).toNat, den)

/-- The exponent of the unit in the last place of the finite numbers around `num / den`: the
quotient over `2 ^ unitExponent num den` has fifty-three bits, or fewer when the exponent is at
its least value. -/
def unitExponent (num den : Nat) : Int :=
  let guess : Int := (num.log2 : Int) - den.log2
  -- The quotient is at least `2 ^ (guess - 1)` and less than `2 ^ (guess + 1)`.
  let (scaled, unit) := scaleDown num den guess
  max (if scaled < unit then guess - 53 else guess - 52) (-1074)

/-- The finite number nearest to `num / den`, with the given sign; a tie goes to the even
significand. There is none when the quotient rounds to `2 ^ 1024` or more. -/
def nearest? (negative : Bool) (num den : Nat) : Option Binary64 :=
  let exponent := if num = 0 then -1074 else unitExponent num den
  let (scaled, unit) := scaleDown num den exponent
  -- The leading bit of a normal significand adds one to the exponent field. A significand that
  -- rounds up to the next power of two carries into that field in the same way.
  let magnitude := (exponent + 1074).toNat * 2 ^ 52 + roundQuotient scaled unit
  if magnitude < infinityMagnitude then some (ofMagnitude negative magnitude) else none

/-- The integer nearest to a natural number among the floating-point numbers, which have fifty-three
leading bits at most; a tie goes to the even significand. -/
def integerNear (n : Nat) : Nat :=
  let unit := 2 ^ (n.log2 - 52)
  roundQuotient n unit * unit

end Binary64

end RemoteCache
