import RemoteCache.Numeral
import RemoteCache.Binary64.Rounding

/-!
# Reading a floating-point number

The text of a number is an optional minus, then a decimal with at least one digit and an optional
point and exponent, or `inf`, `infinity`, `nan` or `nan(...)` in any case. A plus sign, blanks
and hexadecimal digits are refused, and so is anything after the number.

## Main definitions

* `Decimal` — a decimal number `digits * 10 ^ exponent`
* `Decimal.read?` — the decimal a text spells
* `Decimal.nearest?` — the floating-point number nearest to a decimal; none when the decimal is
  too large, or when it is not zero and rounds to zero
* `Binary64.read?` — the number a text spells
-/

namespace RemoteCache

/-- The number `coefficient * 10 ^ exponent`. -/
structure Decimal where
  /-- The digits, read as one integer. -/
  coefficient : Nat
  /-- The power of ten they are scaled with. -/
  exponent : Int
deriving DecidableEq

namespace Decimal

open Numeral

/-- The exponent part of a decimal: nothing, or an `e` in either case, an optional sign and at
least one digit. -/
def readExponent? : Bytes → Option Int
  | [] => some 0
  | mark :: rest =>
    if mark = 101 ∨ mark = 69 then
      let (sign, digits) : Int × Bytes :=
        match rest with
        | 45 :: more => (-1, more)
        | 43 :: more => (1, more)
        | more => (1, more)
      if !digits.isEmpty && digits.all isDigit then some (sign * (value digits : Nat)) else none
    else none

/-- The decimal that a text without a sign spells. -/
def read? (b : Bytes) : Option Decimal :=
  let (whole, rest) := digitsOf b
  let (part, rest) :=
    match rest with
    | 46 :: more => digitsOf more
    | more => ([], more)
  if whole.isEmpty && part.isEmpty then none
  -- Every place behind the point takes one off the exponent.
  else (readExponent? rest).map fun exponent => ⟨value (whole ++ part), exponent - part.length⟩

/-- The number of digits of a positive coefficient is the power of ten just above it. -/
def width (n : Nat) : Nat := if n < 10 then 1 else width (n / 10) + 1

/-- The floating-point number nearest to a decimal, with the given sign. There is none when the
decimal is too large, or when it is not zero but rounds to zero. Decimals of `10 ^ 310` and more
are too large, and those below `10 ^ -330` round to zero, without further calculation. -/
def nearest? (negative : Bool) (d : Decimal) : Option Binary64 :=
  if d.coefficient = 0 then some (Binary64.ofMagnitude negative 0)
  else
    let top : Int := width d.coefficient + d.exponent
    if 310 < top || top < -330 then none
    else
      let rounded :=
        if 0 ≤ d.exponent then
          Binary64.nearest? negative (d.coefficient * 10 ^ d.exponent.toNat) 1
        else Binary64.nearest? negative d.coefficient (10 ^ (-d.exponent).toNat)
      rounded.filter fun x => !x.isZero

end Decimal

namespace Binary64

/-- The bytes that may stand between the parentheses of a NaN: letters, digits and the low
line. -/
def isNaNMark (b : UInt8) : Bool :=
  Numeral.isDigit b || (65 ≤ b && b ≤ 90) || (97 ≤ b && b ≤ 122) || b == 95

/-- Whether a text is `nan`, alone or with marks in parentheses. -/
def spellsNaN (b : Bytes) : Bool :=
  match Bytes.after? (Bytes.ascii "nan") (Bytes.toLower (b.take 3)) with
  | none => false
  | some _ =>
    match b.drop 3 with
    | [] => true
    | 40 :: marks => marks.getLast? == some 41 && marks.dropLast.all isNaNMark
    | _ => false

/-- Whether a text is one of the two spellings of an infinity. -/
def spellsInfinity (b : Bytes) : Bool :=
  Bytes.toLower b == Bytes.ascii "inf" || Bytes.toLower b == Bytes.ascii "infinity"

/-- The number that a text without a sign spells, with the given sign. -/
def readMagnitude? (negative : Bool) (b : Bytes) : Option Binary64 :=
  if spellsInfinity b then some (infinity negative)
  else if spellsNaN b then some (nan negative)
  else (Decimal.read? b).bind (Decimal.nearest? negative)

/-- The number that a text spells. The minus may stand in front of each spelling. -/
def read? : Bytes → Option Binary64
  | 45 :: b => readMagnitude? true b
  | b => readMagnitude? false b

end Binary64

end RemoteCache
