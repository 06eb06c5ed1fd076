import RemoteCache.Bytes

/-!
# Decimal numerals

Integers as runs of decimal digits, in both directions. Readers differ in what may stand around
the digits; all of them share the digits' value.

## Main definitions

* `Numeral.ofNat`, `Numeral.ofInt` — an integer in decimal, without leading zeros
* `Numeral.padLeft` — a text filled up with zeros on the left
* `Numeral.value` — the value of a run of digits
* `Numeral.readDigits?` — a text that is all digits, below a bound
* `Numeral.readSigned?` — an optional minus and digits, in the signed 64-bit range
* `Numeral.readLeading?` — the signed 64-bit number at the front of a text, after white space

## Main results

* `Numeral.value_ofNat` — a printed number has the value it was printed from
-/

namespace RemoteCache.Numeral

/-- Whether a byte is a decimal digit. -/
def isDigit (b : UInt8) : Bool := 48 ≤ b && b ≤ 57

/-- The byte of a digit below ten. -/
def digit (d : Nat) : UInt8 := (48 + d).toUInt8

/-- The value of a byte that is a digit. -/
def digitValue (b : UInt8) : Nat := b.toNat - 48

/-- A number in decimal, without leading zeros. -/
def ofNat (n : Nat) : Bytes :=
  if n < 10 then [digit n] else ofNat (n / 10) ++ [digit (n % 10)]

/-- An integer in decimal, with a minus in front of a negative one. -/
def ofInt : Int → Bytes
  | .ofNat n => ofNat n
  | .negSucc n => 45 :: ofNat (n + 1)

/-- A text filled up with zeros on the left to at least `width` bytes. -/
def padLeft (width : Nat) (b : Bytes) : Bytes := List.replicate (width - b.length) 48 ++ b

/-- The value of a run of digits, the most significant first. -/
def value (digits : Bytes) : Nat := digits.foldl (fun n d => 10 * n + digitValue d) 0

/-- The digits a text begins with, and the rest. -/
def digitsOf (b : Bytes) : Bytes × Bytes := (b.takeWhile isDigit, b.dropWhile isDigit)

/-- The value of a non-empty text of digits only, provided it is below `bound`. -/
def readDigits? (bound : Nat) (b : Bytes) : Option Nat :=
  if !b.isEmpty && b.all isDigit && value b < bound then some (value b) else none

/-- A number in the signed 64-bit range that is written as an optional minus and digits. -/
def readSigned? : Bytes → Option Int
  | 45 :: digits => (readDigits? (2 ^ 63 + 1) digits).map fun n => -(n : Int)
  | digits => (readDigits? (2 ^ 63) digits).map fun n => (n : Int)

/-- A sign, if there is one, and what follows it. -/
def signOf : Bytes → Int × Bytes
  | [] => (1, [])
  | b :: rest => if b = 45 then (-1, rest) else if b = 43 then (1, rest) else (1, b :: rest)

/-- The number at the front of a text, and what follows it. White space and a sign may stand in
front of the digits. There is none without a digit or outside the signed 64-bit range. -/
def readLeading? (b : Bytes) : Option (Int × Bytes) :=
  let (sign, rest) := signOf (b.dropWhile Bytes.isSpace)
  let (digits, rest) := digitsOf rest
  let n := sign * (value digits : Nat)
  if digits.isEmpty || n < -2 ^ 63 || 2 ^ 63 ≤ n then none else some (n, rest)

@[simp]
theorem digitValue_digit {d : Nat} (h : d < 10) : digitValue (digit d) = d := by
  have : (48 + d) % 256 = 48 + d := by omega
  simp [digitValue, digit, this]

@[simp]
theorem isDigit_digit {d : Nat} (h : d < 10) : isDigit (digit d) = true := by
  have : (48 + d) % 256 = 48 + d := by omega
  simp only [isDigit, digit, Bool.and_eq_true, decide_eq_true_eq, UInt8.le_iff_toNat_le]
  simp [this]
  omega

theorem value_append_digit (b : Bytes) (d : UInt8) :
    value (b ++ [d]) = 10 * value b + digitValue d := by
  simp [value]

@[simp]
theorem value_ofNat (n : Nat) : value (ofNat n) = n := by
  fun_induction ofNat n with
  | case1 n h => simp [value, h]
  | case2 n h ih =>
    rw [value_append_digit, ih, digitValue_digit (Nat.mod_lt _ (by decide))]
    omega

theorem all_isDigit_ofNat (n : Nat) : (ofNat n).all isDigit = true := by
  fun_induction ofNat n with
  | case1 n h => simp [h]
  | case2 n h ih =>
    rw [List.all_append, ih]
    simp [isDigit_digit (Nat.mod_lt n (by decide : 0 < 10))]

@[simp]
theorem ofNat_ne_nil (n : Nat) : ofNat n ≠ [] := by
  unfold ofNat
  split <;> simp

end RemoteCache.Numeral
