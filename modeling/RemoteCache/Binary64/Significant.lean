import RemoteCache.Binary64.Shortest

/-!
# A floating-point number with six significant digits

The number is rounded to six significant digits, a tie going to the even one, and trailing zeros
are dropped. It is written positionally when its leading digit stands for `10 ^ k` with
`-4 ≤ k < 6`, otherwise with one digit before the point and an exponent of at least two digits.

## Main definitions

* `Binary64.leadingPower` — the power of ten of the leading digit
* `Binary64.sixDigits` — the text of a number
-/

namespace RemoteCache.Binary64

/-- The power of ten of the leading digit of `num / den`, a positive quotient of at least
`10 ^ -400`. -/
def leadingPower (num den : Nat) : Int :=
  if den ≤ num then ((Numeral.ofNat (num / den)).length : Int) - 1
  else
    match (List.range 400).find? fun k => den ≤ num * 10 ^ (k + 1) with
    | some k => -((k : Int) + 1)
    | none => -401

/-- A quotient rounded to six significant digits: the digits as one integer, and the power of
ten of the first of them. -/
def roundSix (num den : Nat) : Nat × Int :=
  let power := leadingPower num den
  let digits :=
    if power ≤ 5 then roundQuotient (num * 10 ^ (5 - power).toNat) den
    else roundQuotient num (den * 10 ^ (power - 5).toNat)
  -- Rounding up can lead to a seventh digit.
  if digits = 10 ^ 6 then (10 ^ 5, power + 1) else (digits, power)

/-- A text of digits without the zeros it ends in. -/
def dropTrailingZeros (digits : Bytes) : Bytes :=
  (digits.reverse.dropWhile (· == 48)).reverse

/-- Digits with a point after the first `whole` of them, unless nothing follows. -/
def pointed (whole : Nat) (digits : Bytes) : Bytes :=
  let part := dropTrailingZeros (digits.drop whole)
  if part.isEmpty then digits.take whole else digits.take whole ++ 46 :: part

/-- The text of a finite number, without its sign. -/
def sixDigitsMagnitude (x : Binary64) : Bytes :=
  if x.significand = 0 then Bytes.ascii "0"
  else
    let (num, den) := scaleDown x.significand 1 (-x.exponent)
    let (digits, power) := roundSix num den
    let text := Numeral.ofNat digits
    if power < -4 ∨ 6 ≤ power then
      pointed 1 text ++ 101 :: (if power < 0 then 45 else 43) ::
        Numeral.padLeft 2 (Numeral.ofNat power.natAbs)
    else if power < 0 then pointed 1 (List.replicate power.natAbs 48 ++ text)
    else pointed (power.toNat + 1) text

/-- The text of a number with six significant digits. -/
def sixDigits (x : Binary64) : Bytes :=
  let magnitude :=
    if x.isNaN then Bytes.ascii "nan"
    else if x.isInfinite then Bytes.ascii "inf"
    else x.sixDigitsMagnitude
  if x.signBit then 45 :: magnitude else magnitude

end RemoteCache.Binary64
