import RemoteCache.Numeral
import RemoteCache.Policy
import RemoteCache.Wire.Reader

/-!
# Fields

Numbers travel with their least significant byte first. A text is its length, as a 32-bit
number, and its bytes. A flag is one of two bytes.

## Main definitions

* `Wire.littleEndian`, `Wire.ofLittleEndian` — a number as bytes and back
* `Wire.word32`, `Wire.word64`, `Wire.binary64`, `Wire.text`, `Wire.flag`, `Wire.policy` — what
  is written for a value
* the readers of the same names in `Wire.Reader`
* `Wire.Fault.message` — the wording of a fault

## Main results

* `Wire.ofLittleEndian_littleEndian` — a number is read back as far as its width reaches
* `Wire.Reader.Advances.text` and its like — the readers of fields advance
-/

namespace RemoteCache.Wire

/-- The least significant `width` bytes of a number, least significant first. -/
def littleEndian : Nat → Nat → Bytes
  | 0, _ => []
  | width + 1, n => (n % 256).toUInt8 :: littleEndian width (n / 256)

/-- The number whose bytes these are, least significant first. -/
def ofLittleEndian : Bytes → Nat
  | [] => 0
  | b :: rest => b.toNat + 256 * ofLittleEndian rest

/-- A number in four bytes, which hold its low 32 bits. -/
def word32 (n : Nat) : Bytes := littleEndian 4 n

/-- A number in eight bytes, which hold its low 64 bits. -/
def word64 (n : Nat) : Bytes := littleEndian 8 n

/-- A floating-point number, bit by bit. -/
def binary64 (x : Binary64) : Bytes := word64 x.bits.toNat

/-- A text: its length and its bytes. -/
def text (b : Bytes) : Bytes := word32 b.length ++ b

/-- The byte of a set flag, an exclamation mark. -/
def flagSet : UInt8 := 0x21

/-- The byte of a cleared flag, a question mark. -/
def flagClear : UInt8 := 0x3F

/-- A flag in one byte. -/
def flag (isSet : Bool) : Bytes := [if isSet then flagSet else flagClear]

/-- A policy, as its name. -/
def policy (p : Policy) : Bytes := text p.text

/-- The wording of a fault. -/
def Fault.message : Fault → Bytes
  | .invalidFlag byte offset =>
    Bytes.ascii "invalid bool byte " ++ Numeral.ofNat byte.toNat ++ Bytes.ascii " at offset " ++
      Numeral.ofNat offset
  | .unknownPolicy name => Bytes.ascii "unknown policy '" ++ name ++ Bytes.ascii "'"
  | .unknownCommand byte => Bytes.ascii "unknown command byte " ++ Numeral.ofNat byte.toNat
  | .capacityOutOfRange => Bytes.ascii "resize capacity out of range"
  | .payloadMismatch shape =>
    Bytes.ascii "payload does not match response shape " ++ Numeral.ofNat shape

/-- The wording for bytes that are missing. -/
def missingMessage (missing offset : Nat) : Bytes :=
  Bytes.ascii "need " ++ Numeral.ofNat missing ++ Bytes.ascii " more bytes at offset " ++
    Numeral.ofNat offset

namespace Reader

/-- A number in so many bytes. -/
def number (width : Nat) : Reader Nat := do
  let b ← bytes width
  return ofLittleEndian b

/-- One byte. -/
def byte : Reader UInt8 := do
  let n ← number 1
  return n.toUInt8

/-- A number in four bytes. -/
def word32 : Reader Nat := number 4

/-- A number in eight bytes. -/
def word64 : Reader Nat := number 8

/-- A floating-point number, with whatever bits it has. -/
def binary64 : Reader Binary64 := do
  let n ← number 8
  return ⟨n.toUInt64⟩

/-- A text: a length, and as many bytes. The length has been passed even if they are missing. -/
def text : Reader Bytes := do
  let length ← number 4
  bytes length

/-- A flag. Its fault tells where the byte was. -/
def flag : Reader Bool := do
  let position ← offset
  let b ← byte
  if b = flagSet then return true
  else if b = flagClear then return false
  else fail (.invalidFlag b position)

/-- A policy by its name. A name of none is a fault. -/
def policy : Reader Policy := do
  let name ← text
  match Policy.read? name with
  | some p => return p
  | none => fail (.unknownPolicy name)

end Reader

@[simp]
theorem length_littleEndian (width n : Nat) : (littleEndian width n).length = width := by
  induction width generalizing n with
  | zero => rfl
  | succ width ih => simp [littleEndian, ih]

theorem ofLittleEndian_littleEndian (width n : Nat) :
    ofLittleEndian (littleEndian width n) = n % 256 ^ width := by
  induction width generalizing n with
  | zero => simp [littleEndian, ofLittleEndian, Nat.mod_one]
  | succ width ih =>
    have hbyte : (n % 256).toUInt8.toNat = n % 256 := by simp
    rw [littleEndian, ofLittleEndian, ih, hbyte, Nat.pow_succ, Nat.mul_comm (256 ^ width) 256,
      Nat.mod_mul]

/-- What is beyond the width of a field is not written. -/
theorem littleEndian_mod (width n : Nat) :
    littleEndian width (n % 256 ^ width) = littleEndian width n := by
  induction width generalizing n with
  | zero => rfl
  | succ width ih =>
    have hfirst : n % 256 ^ (width + 1) % 256 = n % 256 :=
      Nat.mod_mod_of_dvd n (Nat.dvd_mul_left 256 (256 ^ width))
    have hrest : n % 256 ^ (width + 1) / 256 = n / 256 % 256 ^ width := by
      rw [Nat.pow_succ, Nat.mul_comm, Nat.mod_mul_right_div_self]
    rw [littleEndian, littleEndian, hfirst, hrest, ih]

namespace Reader

theorem Advances.number (width : Nat) : Advances (Reader.number width) :=
  (Advances.bytes width).bind fun b => .pure (ofLittleEndian b)

theorem Advances.text : Advances Reader.text :=
  (Advances.number 4).bind fun length => Advances.bytes length

theorem Advances.policy : Advances Reader.policy := by
  unfold Reader.policy
  apply Advances.text.bind
  intro name
  split
  · exact Advances.pure _
  · exact Advances.fail _

end Reader

end RemoteCache.Wire
