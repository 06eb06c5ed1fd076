import RemoteCache.Command
import RemoteCache.Wire.Field

/-!
# Request frames

A request is the byte of its command and then the command's fields. Nothing tells its length in
advance: it ends where its last field ends.

## Main definitions

* `Request.encode` — the frame of a command
* `Request.frame` — the frame of a command that can be sent, or the command's fault
* `Request.read` — the command at the front of some bytes
* `Request.frames` — all commands that some bytes hold, one frame after the other

## Main results

* `Request.read_length_lt` — a command that is read takes at least one byte
-/

namespace RemoteCache.Request

open Wire

/-- The low 32 bits of a number of seconds. -/
def secondsWord (seconds : Int) : Nat := (seconds % 2 ^ 32).toNat

/-- A lifetime as a 32-bit number of seconds, zero for none. -/
def ttlWord : Option Int → Nat
  | none => 0
  | some seconds => secondsWord seconds

/-- The lifetime that a number of seconds stands for. -/
def ttlOfWord (seconds : Nat) : Option Int := if seconds = 0 then none else some seconds

/-- The fields of a command, without its byte. -/
def fields : Command → Bytes
  | .get key | .del key | .has key | .peek key | .getTtl key | .valueSize key => text key
  | .set key value ttl => text key ++ text value ++ word32 (ttlWord ttl)
  | .setTtl key ttl => text key ++ word32 (ttlWord ttl)
  | .resize capacity => word64 (capacity % 2 ^ 64).toNat
  | .setPolicy p => policy p
  | .ping | .version | .wipe | .getStatus => []

/-- The bytes of a command, whether or not it is valid. -/
def encode (c : Command) : Bytes := c.byte :: fields c

/-- The bytes of a valid command. They are written only if there is no fault. -/
def frame (c : Command) : Except Command.Fault Bytes := do
  c.check
  return encode c

/-- A capacity, which fits a signed 64-bit number. -/
def readCapacity : Reader Int := do
  let n ← Reader.word64
  if n < 2 ^ 63 then return n else Reader.fail .capacityOutOfRange

/-- The fields of the command with the given byte. -/
def readFields (b : UInt8) : Reader Command :=
  match b.toNat with
  | 0 => return .ping
  | 1 => return .version
  -- The byte 2 belongs to no command.
  | 3 => do return .get (← Reader.text)
  | 4 => do
    let key ← Reader.text
    let value ← Reader.text
    let ttl ← Reader.word32
    return .set key value (ttlOfWord ttl)
  | 5 => do return .del (← Reader.text)
  | 6 => do return .has (← Reader.text)
  | 7 => do return .peek (← Reader.text)
  | 8 => do
    let key ← Reader.text
    let ttl ← Reader.word32
    return .setTtl key (ttlOfWord ttl)
  | 9 => do return .valueSize (← Reader.text)
  | 10 => return .wipe
  | 11 => do return .resize (← readCapacity)
  | 12 => do return .setPolicy (← Reader.policy)
  | 13 => return .getStatus
  | 14 => do return .getTtl (← Reader.text)
  | _ => Reader.fail (.unknownCommand b)

/-- The command at the front of some bytes. It need not be valid: an empty key is read, too. -/
def read : Reader Command := do
  let b ← Reader.byte
  readFields b

/-- How the frames in some bytes end: with bytes that are only part of a frame, possibly none, or
with bytes that can never become one. -/
inductive Ending
  | incomplete (rest : Bytes)
  | malformed (fault : Fault)
deriving DecidableEq

theorem advances_readCapacity : Reader.Advances readCapacity := by
  unfold readCapacity
  apply (Reader.Advances.number 8).bind
  intro n
  split
  · exact Reader.Advances.pure _
  · exact Reader.Advances.fail _

theorem advances_readFields (b : UInt8) : Reader.Advances (readFields b) := by
  unfold readFields
  split
  case h_4 =>
    exact Reader.Advances.text.bind fun key => Reader.Advances.text.bind fun value =>
      (Reader.Advances.number 4).bind fun ttl => Reader.Advances.pure _
  case h_8 =>
    exact Reader.Advances.text.bind fun key =>
      (Reader.Advances.number 4).bind fun ttl => Reader.Advances.pure _
  case h_11 => exact advances_readCapacity.bind fun n => Reader.Advances.pure _
  case h_12 => exact Reader.Advances.policy.bind fun p => Reader.Advances.pure _
  case h_15 => exact Reader.Advances.fail _
  case h_1 | h_2 | h_10 | h_13 => exact Reader.Advances.pure _
  all_goals exact Reader.Advances.text.bind fun key => Reader.Advances.pure _

/-- A command that is read takes at least one byte. -/
theorem read_length_lt {c c' : Cursor} {command : Command} (h : read c = .done command c') :
    c'.rest.length < c.rest.length := by
  obtain ⟨b, c₁, hbyte, hfields⟩ := Reader.bind_eq_done_iff.1 h
  obtain ⟨n, c₂, hnumber, hpure⟩ := Reader.bind_eq_done_iff.1 hbyte
  obtain ⟨raw, c₃, hraw, hpure'⟩ := Reader.bind_eq_done_iff.1 hnumber
  obtain ⟨hrest, hlen, -⟩ := Reader.bytes_eq_done_iff.1 hraw
  cases hpure
  cases hpure'
  have hle := (advances_readFields _).length_le hfields
  rw [hrest, List.length_append, hlen]
  omega

/-- All commands that some bytes hold, one frame after the other, and how the bytes end. -/
def frames (b : Bytes) : List Command × Ending :=
  match h : read (Cursor.start b) with
  | .done command c =>
    have : c.rest.length < b.length := read_length_lt h
    let (commands, ending) := frames c.rest
    (command :: commands, ending)
  | .short _ _ => ([], .incomplete b)
  | .malformed fault => ([], .malformed fault)
termination_by b.length

end RemoteCache.Request
