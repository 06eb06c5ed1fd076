import RemoteCache.Bytes

/-!
# Readers of byte fields

A reader takes a field from the front of the bytes that are there. It ends in one of three ways:
with a value and a later place, with a number of bytes that are still missing, or with a fault
that no further byte can mend.

## Main definitions

* `Wire.Cursor` — a place in a byte string: the bytes passed, counted, and the bytes ahead
* `Wire.Outcome` — how a reader ends
* `Wire.Reader` — a reader; readers compose as a monad
* `Wire.Reader.Advances` — a reader that succeeds has passed some of the bytes ahead

## Main results

* `Wire.Reader.Advances.bind` — advancing readers compose
-/

namespace RemoteCache.Wire

/-- A place in a byte string. -/
structure Cursor where
  /-- How many bytes are behind. -/
  offset : Nat
  /-- The bytes ahead. -/
  rest : Bytes
deriving DecidableEq

/-- The place in front of all bytes. -/
def Cursor.start (b : Bytes) : Cursor := ⟨0, b⟩

/-- Why bytes can never become a frame, or a payload no frame. -/
inductive Fault
  | invalidFlag (byte : UInt8) (offset : Nat)
  | unknownPolicy (name : Bytes)
  | unknownCommand (byte : UInt8)
  | capacityOutOfRange
  /-- The payload to be written is not of the shape with this number. -/
  | payloadMismatch (shape : Nat)
deriving DecidableEq

/-- How a reader ends. -/
inductive Outcome (α : Type)
  | done (value : α) (cursor : Cursor)
  | short (missing : Nat) (cursor : Cursor)
  | malformed (fault : Fault)
deriving DecidableEq

/-- A reader begins at a place, and ends in one of three ways. -/
def Reader (α : Type) : Type := Cursor → Outcome α

namespace Reader

variable {α β : Type}

/-- Reads nothing, and ends with a given value. -/
def pure (a : α) : Reader α := fun c => .done a c

/-- Reads one field, then another that may depend on the first. -/
def bind (r : Reader α) (next : α → Reader β) : Reader β := fun c =>
  match r c with
  | .done a c => next a c
  | .short missing c => .short missing c
  | .malformed fault => .malformed fault

instance : Monad Reader where
  pure := Reader.pure
  bind := Reader.bind

/-- Ends with a fault. -/
def fail (fault : Fault) : Reader α := fun _ => .malformed fault

/-- Reads so many bytes, all of them or none. -/
def bytes (count : Nat) : Reader Bytes := fun c =>
  if (c.rest.take count).length = count then
    .done (c.rest.take count) ⟨c.offset + count, c.rest.drop count⟩
  else .short count c

/-- The number of bytes behind, without reading any. -/
def offset : Reader Nat := fun c => .done c.offset c

/-- Reads so many fields of the same kind. -/
def times (r : Reader α) : Nat → Reader (List α)
  | 0 => pure []
  | count + 1 => bind r fun a => bind (times r count) fun more => pure (a :: more)

/-- A reader that succeeds has passed some of the bytes ahead and has counted them. -/
def Advances (r : Reader α) : Prop :=
  ∀ c a c', r c = .done a c' →
    ∃ passed, c.rest = passed ++ c'.rest ∧ c'.offset = c.offset + passed.length

theorem bind_eq_done_iff {r : Reader α} {next : α → Reader β} {c c'' : Cursor} {b : β} :
    Reader.bind r next c = .done b c'' ↔ ∃ a c', r c = .done a c' ∧ next a c' = .done b c'' := by
  unfold Reader.bind
  constructor
  · intro h
    split at h
    · rename_i a c' hfirst
      exact ⟨a, c', hfirst, h⟩
    · cases h
    · cases h
  · rintro ⟨a, c', hfirst, hsecond⟩
    rw [hfirst]
    exact hsecond

theorem Advances.pure (a : α) : Advances (Reader.pure a) := by
  intro c a' c' h
  cases h
  exact ⟨[], rfl, rfl⟩

theorem Advances.fail (fault : Fault) : Advances (Reader.fail fault : Reader α) := by
  intro c a c' h
  cases h

theorem Advances.offset : Advances Reader.offset := by
  intro c a c' h
  cases h
  exact ⟨[], rfl, rfl⟩

theorem Advances.bind {r : Reader α} {next : α → Reader β} (hr : Advances r)
    (hnext : ∀ a, Advances (next a)) : Advances (Reader.bind r next) := by
  intro c b c'' h
  obtain ⟨a, c', hfirst, hsecond⟩ := bind_eq_done_iff.1 h
  obtain ⟨p, hrest, hoffset⟩ := hr c a c' hfirst
  obtain ⟨q, hrest', hoffset'⟩ := hnext a c' b c'' hsecond
  refine ⟨p ++ q, ?_, ?_⟩
  · rw [hrest, hrest', List.append_assoc]
  · rw [hoffset', hoffset, List.length_append, Nat.add_assoc]

theorem bytes_eq_done_iff {count : Nat} {c c' : Cursor} {b : Bytes} :
    bytes count c = .done b c' ↔
      c.rest = b ++ c'.rest ∧ b.length = count ∧ c'.offset = c.offset + count := by
  unfold bytes
  constructor
  · intro h
    split at h
    · rename_i hlen
      cases h
      exact ⟨(List.take_append_drop count c.rest).symm, hlen, rfl⟩
    · cases h
  · rintro ⟨hrest, hlen, hoffset⟩
    have htake : c.rest.take count = b := by rw [hrest, ← hlen, List.take_left]
    have hdrop : c.rest.drop count = c'.rest := by rw [hrest, ← hlen, List.drop_left]
    rw [htake, hdrop, if_pos hlen, ← hoffset]

theorem Advances.bytes (count : Nat) : Advances (Reader.bytes count) := by
  intro c b c' h
  obtain ⟨hrest, hlen, hoffset⟩ := bytes_eq_done_iff.1 h
  exact ⟨b, hrest, by rw [hoffset, hlen]⟩

theorem Advances.length_le {r : Reader α} (hr : Advances r) {c c' : Cursor} {a : α}
    (h : r c = .done a c') : c'.rest.length ≤ c.rest.length := by
  obtain ⟨p, hrest, -⟩ := hr c a c' h
  rw [hrest, List.length_append]
  exact Nat.le_add_left _ _

end Reader

end RemoteCache.Wire
