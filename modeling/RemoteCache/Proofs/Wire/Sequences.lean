import RemoteCache.Proofs.Wire.Canonical

/-!
# Fields one after the other

Whoever reads the fields of a buffer may ask for any of them at any place, and may go on when a
field is not there. The bytes that are ahead are always those of the buffer behind the place, so the
place never leaves the buffer, and what is left of the buffer can be told by a difference of words
that does not wrap around. A number that is not there leaves the place as it was. A text may stop
behind its length, when the bytes that the length promises are missing.

## Main definitions

* `Wire.Field` — a value of one of the five kinds of field, and the bytes that are written for it
* `Wire.Reading` — a field that is asked for at a place
* `Wire.readings` — fields asked for one after the other, whether they are there or not
* `Wire.Cursor.Within` — a place in a buffer
* `Wire.Reading.InBounds` — all that is promised of a reading

## Main results

* `Wire.Reading.ends` — a field is read from what is written for it, unless bytes are missing
* `Wire.inBounds_of_mem_readings` — every reading is in bounds, whatever was asked for before
* `Wire.read_fields` — fields are read back from what was written for them
* `Wire.readings_inBounds` — both of these together
-/

namespace RemoteCache.Wire

/-! ### Fields -/

/-- A value of one of the five kinds of field. -/
inductive Field
  | byte (b : UInt8)
  | word32 (n : UInt32)
  | word64 (n : UInt64)
  | binary64 (x : Binary64)
  | text (b : Bytes)
deriving DecidableEq

namespace Field

/-- The kinds of field that can be asked for. -/
inductive Kind
  | byte
  | word32
  | word64
  | binary64
  | text
deriving DecidableEq

/-- The kind under which a field is read back. -/
def kind : Field → Kind
  | byte _ => .byte
  | word32 _ => .word32
  | word64 _ => .word64
  | binary64 _ => .binary64
  | text _ => .text

/-- The bytes that are written for a field. -/
def written : Field → Bytes
  | byte b => littleEndian 1 b.toNat
  | word32 n => Wire.word32 n.toNat
  | word64 n => Wire.word64 n.toNat
  | binary64 x => Wire.binary64 x
  | text b => Wire.text b

/-- A text is told by its length as far as that fits into 32 bits. -/
def Fits : Field → Prop
  | text b => b.length < 2 ^ 32
  | _ => True

instance : DecidablePred Fits
  | text b => inferInstanceAs (Decidable (b.length < 2 ^ 32))
  | byte _ | word32 _ | word64 _ | binary64 _ => inferInstanceAs (Decidable True)

namespace Kind

/-- The reader of a kind. -/
def read : Kind → Reader Field
  | byte => do return .byte (← Reader.byte)
  | word32 => do return .word32 (← Reader.word32).toUInt32
  | word64 => do return .word64 (← Reader.word64).toUInt64
  | binary64 => do return .binary64 (← Reader.binary64)
  | text => do return .text (← Reader.text)

/-- The bytes that are asked for first: all of a number, and of a text its length. -/
def width : Kind → Nat
  | byte => 1
  | word32 | text => 4
  | word64 | binary64 => 8

end Kind

theorem written_byte (b : UInt8) : (byte b).written = [b] := by
  have hlt : b.toNat % 256 = b.toNat := Nat.mod_eq_of_lt b.toNat_lt
  simp [written, littleEndian, hlt]

/-- Every field is read back from what is written for it. -/
theorem reads_written {field : Field} (h : field.Fits) :
    Reader.Reads field.kind.read field.written field := by
  cases field with
  | byte b =>
    rw [written_byte]
    exact (Reader.Reads.byte b).map Field.byte
  | word32 n =>
    have hvalue : n.toNat.toUInt32 = n := by simp
    have hread := (Reader.Reads.word32 n.toNat_lt).map fun n => Field.word32 n.toUInt32
    rwa [hvalue] at hread
  | word64 n =>
    have hvalue : n.toNat.toUInt64 = n := by simp
    have hread := (Reader.Reads.word64 n.toNat_lt).map fun n => Field.word64 n.toUInt64
    rwa [hvalue] at hread
  | binary64 x => exact (Reader.Reads.binary64 x).map Field.binary64
  | text b => exact (Reader.Reads.text h).map Field.text

end Field

/-! ### Readers that want some bytes -/

namespace Reader

variable {α β : Type} {r : Reader α}

/-- A reader that ends with a value, unless fewer bytes are ahead than it takes. Then it says how
many it takes, and stays where it is. -/
def Wants (r : Reader α) (width : Nat) : Prop :=
  ∀ c, (∃ a c', r c = .done a c') ∨ c.rest.length < width ∧ r c = .short width c

theorem Wants.bytes (count : Nat) : Wants (Reader.bytes count) count := by
  intro c
  unfold Reader.bytes
  by_cases hlength : (c.rest.take count).length = count
  · exact .inl ⟨_, _, if_pos hlength⟩
  · refine .inr ⟨?_, if_neg hlength⟩
    rw [List.length_take] at hlength
    omega

theorem Wants.map {width : Nat} (h : Wants r width) (f : α → β) :
    Wants (Reader.bind r fun a => Reader.pure (f a)) width := by
  intro c
  unfold Reader.bind
  rcases h c with ⟨a, c', hdone⟩ | ⟨hfew, hshort⟩
  · rw [hdone]
    exact .inl ⟨f a, c', rfl⟩
  · rw [hshort]
    exact .inr ⟨hfew, rfl⟩

theorem Wants.number (width : Nat) : Wants (Reader.number width) width :=
  (Wants.bytes width).map ofLittleEndian

/-- A text is read, or bytes are missing in its length or behind it. -/
theorem text_cases (c : Cursor) :
    (∃ b c', Reader.text c = .done b c') ∨
      c.rest.length < 4 ∧ Reader.text c = .short 4 c ∨
      ∃ length rest, c.rest = Wire.word32 length ++ rest ∧ length < 2 ^ 32 ∧
        rest.length < length ∧ Reader.text c = .short length ⟨c.offset + 4, rest⟩ := by
  change (∃ b c', Reader.bind (Reader.number 4) Reader.bytes c = .done b c') ∨
    c.rest.length < 4 ∧ Reader.bind (Reader.number 4) Reader.bytes c = .short 4 c ∨
    ∃ length rest, _ ∧ _ ∧ _ ∧ Reader.bind (Reader.number 4) Reader.bytes c = .short length _
  unfold Reader.bind
  rcases Wants.number 4 c with ⟨length, ⟨offset, rest⟩, hnumber⟩ | ⟨hfew, hshort⟩
  · obtain ⟨b, hrest, hoffset, rfl, hlength⟩ := Passes.word32 c length ⟨offset, rest⟩ hnumber
    obtain rfl : offset = c.offset + 4 := by rw [← length_littleEndian 4 length]; exact hoffset
    rw [hnumber]
    rcases Wants.bytes length ⟨c.offset + 4, rest⟩ with hdone | ⟨hfew, hshort⟩
    · exact .inl hdone
    · exact .inr (.inr ⟨length, rest, hrest, hlength, hfew, hshort⟩)
  · rw [hshort]
    exact .inr (.inl ⟨hfew, rfl⟩)

theorem Passes.binary64 : Passes Reader.binary64 fun x b => b = Wire.binary64 x := by
  refine Passes.word64.map ?_
  rintro n _ ⟨rfl, hlt⟩
  have hword : n.toUInt64.toNat = n := by simpa using hlt
  rw [Wire.binary64, hword]

end Reader

namespace Field.Kind

open Reader

/-- What is read are the fields whose bytes were passed. -/
theorem passes_read (kind : Kind) :
    Passes kind.read fun field b => field.kind = kind ∧ b = field.written := by
  cases kind with
  | byte =>
    refine Passes.byte.map ?_
    rintro b _ rfl
    exact ⟨rfl, (written_byte b).symm⟩
  | word32 =>
    refine Passes.word32.map ?_
    rintro n _ ⟨rfl, hlt⟩
    have hword : n.toUInt32.toNat = n := by simpa using hlt
    exact ⟨rfl, by rw [written, hword]⟩
  | word64 =>
    refine Passes.word64.map ?_
    rintro n _ ⟨rfl, hlt⟩
    have hword : n.toUInt64.toNat = n := by simpa using hlt
    exact ⟨rfl, by rw [written, hword]⟩
  | binary64 => exact Passes.binary64.map fun x b hb => ⟨rfl, hb⟩
  | text => exact Passes.text.map fun b _ hb => ⟨rfl, hb.1⟩

theorem wants_read {kind : Kind} (h : kind ≠ .text) : Wants kind.read kind.width := by
  cases kind with
  | byte => exact ((Wants.number 1).map Nat.toUInt8).map Field.byte
  | word32 => exact (Wants.number 4).map fun n => Field.word32 n.toUInt32
  | word64 => exact (Wants.number 8).map fun n => Field.word64 n.toUInt64
  | binary64 => exact ((Wants.number 8).map fun n => Binary64.mk n.toUInt64).map Field.binary64
  | text => exact absurd rfl h

end Field.Kind

/-! ### Readings -/

/-- A field that is asked for at a place. -/
structure Reading where
  start : Cursor
  kind : Field.Kind

namespace Reading

/-- How the reading ends. -/
def outcome (r : Reading) : Outcome Field := r.kind.read r.start

/-- The field that is read, if it is there. -/
def field? (r : Reading) : Option Field :=
  match r.outcome with
  | .done field _ => some field
  | _ => none

/-- The place behind a field, or where bytes are missing. -/
def stop (r : Reading) : Cursor :=
  match r.outcome with
  | .done _ c | .short _ c => c
  | .malformed _ => r.start

/-- The three ways in which a reading ends. -/
inductive Ends (r : Reading) : Prop
  /-- The bytes ahead begin with what is written for a field, and the field is read. -/
  | done {field : Field} {rest : Bytes} (hkind : field.kind = r.kind)
      (hrest : r.start.rest = field.written ++ rest)
      (houtcome : r.outcome = .done field ⟨r.start.offset + field.written.length, rest⟩)
  /-- There are too few bytes for a number, or for the length of a text. -/
  | short (hfew : r.start.rest.length < r.kind.width)
      (houtcome : r.outcome = .short r.kind.width r.start)
  /-- There are too few bytes behind the length of a text. -/
  | shortText {length : Nat} {rest : Bytes} (hkind : r.kind = .text)
      (hrest : r.start.rest = word32 length ++ rest) (hlength : length < 2 ^ 32)
      (hfew : rest.length < length)
      (houtcome : r.outcome = .short length ⟨r.start.offset + 4, rest⟩)

theorem ends_of_done {r : Reading} {field : Field} {c : Cursor} (h : r.outcome = .done field c) :
    r.Ends := by
  obtain ⟨offset, rest⟩ := c
  obtain ⟨b, hrest, hoffset, hkind, rfl⟩ := r.kind.passes_read r.start field _ h
  exact .done hkind hrest (by rw [h, ← show offset = _ from hoffset])

/-- A field is read from what is written for it, unless bytes are missing. -/
theorem ends (r : Reading) : r.Ends := by
  -- Only a text is read in two steps, with bytes that may be missing after some were passed.
  by_cases htext : r.kind = .text
  · have houtcome : r.outcome =
        Reader.bind Reader.text (fun b => Reader.pure (Field.text b)) r.start := by
      unfold outcome
      rw [htext]
      rfl
    unfold Reader.bind at houtcome
    rcases Reader.text_cases r.start with ⟨b, c, hdone⟩ | ⟨hfew, hshort⟩ |
      ⟨length, rest, hrest, hlength, hfew, hshort⟩
    · rw [hdone] at houtcome
      exact ends_of_done houtcome
    · rw [hshort] at houtcome
      exact .short (by rwa [htext]) (by rw [houtcome, htext]; rfl)
    · rw [hshort] at houtcome
      exact .shortText htext hrest hlength hfew houtcome
  · rcases Field.Kind.wants_read htext r.start with ⟨field, c, hdone⟩ | ⟨hfew, hshort⟩
    · exact ends_of_done hdone
    · exact .short hfew hshort

end Reading

/-! ### Places in a buffer -/

/-- A place in a buffer: it does not lie behind the end, and the bytes ahead are those of the buffer
from there on. -/
structure Cursor.Within (data : Bytes) (c : Cursor) : Prop where
  offset_le : c.offset ≤ data.length
  rest_eq : c.rest = data.drop c.offset

namespace Cursor.Within

variable {data : Bytes} {c : Cursor}

theorem start (data : Bytes) : (Cursor.start data).Within data := ⟨Nat.zero_le _, rfl⟩

/-- Bytes that are ahead are passed. -/
theorem pass (h : c.Within data) {b rest : Bytes} (hrest : c.rest = b ++ rest) :
    Within data ⟨c.offset + b.length, rest⟩ := by
  have hlength : (b ++ rest).length = data.length - c.offset := by
    rw [← hrest, h.rest_eq, List.length_drop]
  rw [List.length_append] at hlength
  have hle := h.offset_le
  constructor
  · change c.offset + b.length ≤ data.length
    omega
  · change rest = data.drop (c.offset + b.length)
    rw [← List.drop_drop, ← h.rest_eq, hrest, List.drop_left]

end Cursor.Within

/-- A difference of words that does not wrap around. -/
theorem toNat_sub_toUInt64 {size offset : Nat} (hle : offset ≤ size) (hsize : size < 2 ^ 64) :
    (size.toUInt64 - offset.toUInt64).toNat = size - offset := by
  simp only [UInt64.toNat_sub, Nat.toUInt64_eq, UInt64.toNat_ofNat']
  omega

namespace Reading

/-- All that is promised of a reading in a buffer. -/
structure InBounds (data : Bytes) (r : Reading) : Prop where
  start_within : r.start.Within data
  stop_within : r.stop.Within data
  offset_le : r.start.offset ≤ r.stop.offset
  /-- At every place that a reading comes to, the bytes ahead are counted by a difference of
  words. -/
  difference_eq : data.length < 2 ^ 64 → ∀ offset, r.start.offset ≤ offset →
    offset ≤ r.stop.offset →
      (data.length.toUInt64 - offset.toUInt64).toNat = data.length - offset
  /-- A field that is not there leaves the place as it was, or behind the length of a text. -/
  unread : r.field? = none →
    r.stop = r.start ∨ r.kind = .text ∧ r.stop.offset = r.start.offset + 4
  ends : r.Ends

variable {data : Bytes} {r : Reading}

theorem stop_of_field?_eq_none (h : r.field? = none) :
    r.stop = r.start ∨ r.kind = .text ∧ r.stop.offset = r.start.offset + 4 := by
  unfold field? at h
  unfold stop
  cases r.ends with
  | done hkind hrest houtcome =>
    rw [houtcome] at h
    cases h
  | short hfew houtcome =>
    rw [houtcome]
    exact .inl rfl
  | shortText hkind hrest hlength hfew houtcome =>
    rw [houtcome]
    exact .inr ⟨hkind, rfl⟩

theorem inBounds (h : r.start.Within data) : r.InBounds data := by
  have hstop : r.stop.Within data ∧ r.start.offset ≤ r.stop.offset := by
    unfold stop
    cases r.ends with
    | done hkind hrest houtcome =>
      rw [houtcome]
      exact ⟨h.pass hrest, Nat.le_add_right _ _⟩
    | short hfew houtcome =>
      rw [houtcome]
      exact ⟨h, le_refl _⟩
    | shortText hkind hrest hlength hfew houtcome =>
      rw [houtcome]
      exact ⟨h.pass hrest, Nat.le_add_right _ _⟩
  exact {
    start_within := h
    stop_within := hstop.1
    offset_le := hstop.2
    difference_eq := fun hsize offset _ hle =>
      toNat_sub_toUInt64 (hle.trans hstop.1.offset_le) hsize
    unread := stop_of_field?_eq_none
    ends := r.ends }

end Reading

/-! ### Sequences -/

/-- Fields that are asked for one after the other, each where the one before ended, even if it was
not there. -/
def readings : List Field.Kind → Cursor → List Reading
  | [], _ => []
  | kind :: more, c => ⟨c, kind⟩ :: readings more (Reading.stop ⟨c, kind⟩)

/-- The place where the last of some fields ended. -/
def placeAfter : List Field.Kind → Cursor → Cursor
  | [], c => c
  | kind :: more, c => placeAfter more (Reading.stop ⟨c, kind⟩)

variable {data : Bytes} {kinds : List Field.Kind} {c : Cursor}

/-- Every reading is in bounds, whatever was asked for before it. -/
theorem inBounds_of_mem_readings (h : c.Within data) {r : Reading} (hr : r ∈ readings kinds c) :
    r.InBounds data := by
  -- A reading ends within the buffer even if its field is not there, so the next one begins there.
  induction kinds generalizing c with
  | nil => cases hr
  | cons kind more ih =>
    have hfirst : Reading.InBounds data ⟨c, kind⟩ := Reading.inBounds h
    rcases List.mem_cons.1 hr with rfl | hmore
    · exact hfirst
    · exact ih hfirst.stop_within hmore

/-- No later reading is in front of an earlier one. -/
theorem le_offset_of_mem_readings (h : c.Within data) {r : Reading} (hr : r ∈ readings kinds c) :
    c.offset ≤ r.start.offset := by
  induction kinds generalizing c with
  | nil => cases hr
  | cons kind more ih =>
    have hfirst : Reading.InBounds data ⟨c, kind⟩ := Reading.inBounds h
    rcases List.mem_cons.1 hr with rfl | hmore
    · exact le_refl _
    · exact hfirst.offset_le.trans (ih hfirst.stop_within hmore)

theorem pairwise_readings (h : c.Within data) :
    (readings kinds c).Pairwise fun r later => r.stop.offset ≤ later.start.offset := by
  induction kinds generalizing c with
  | nil => exact .nil
  | cons kind more ih =>
    have hfirst : Reading.InBounds data ⟨c, kind⟩ := Reading.inBounds h
    exact .cons (fun r hr => le_offset_of_mem_readings hfirst.stop_within hr)
      (ih hfirst.stop_within)

/-- Fields are read back one after the other from what was written for them, and what follows is
left. -/
theorem read_fields {fields : List Field} (h : ∀ field ∈ fields, field.Fits) (offset : Nat)
    (trailing : Bytes) :
    let start : Cursor := ⟨offset, fields.flatMap Field.written ++ trailing⟩
    (readings (fields.map Field.kind) start).map Reading.field? = fields.map some ∧
      placeAfter (fields.map Field.kind) start =
        ⟨offset + (fields.flatMap Field.written).length, trailing⟩ := by
  induction fields generalizing offset with
  | nil => exact ⟨rfl, rfl⟩
  | cons field fields ih =>
    have houtcome := Field.reads_written (h field List.mem_cons_self) offset
      (fields.flatMap Field.written ++ trailing)
    obtain ⟨hfields, hplace⟩ := ih (fun field hfield => h field (List.mem_cons_of_mem _ hfield))
      (offset + field.written.length)
    have hrest : (field :: fields).flatMap Field.written ++ trailing =
        field.written ++ (fields.flatMap Field.written ++ trailing) := by
      rw [List.flatMap_cons, List.append_assoc]
    have hstop : Reading.stop
        ⟨⟨offset, field.written ++ (fields.flatMap Field.written ++ trailing)⟩, field.kind⟩ =
          ⟨offset + field.written.length, fields.flatMap Field.written ++ trailing⟩ := by
      unfold Reading.stop Reading.outcome
      rw [houtcome]
    dsimp only
    rw [hrest, List.map_cons, List.map_cons, readings, placeAfter, hstop, List.map_cons, hfields,
      hplace]
    refine ⟨congrArg (· :: _) ?_, ?_⟩
    · unfold Reading.field? Reading.outcome
      rw [houtcome]
    · rw [List.flatMap_cons, List.length_append, Nat.add_assoc]

/-- Whatever fields of a buffer are asked for one after the other, and whether they are there or
not, every reading is in bounds and none goes back. Fields that fit are read back from what was
written for them, whatever follows, and the last one ends where that begins. -/
theorem readings_inBounds :
    (∀ (data : Bytes) (kinds : List Field.Kind),
      (∀ r ∈ readings kinds (.start data), r.InBounds data) ∧
      (readings kinds (.start data)).Pairwise fun r later => r.stop.offset ≤ later.start.offset) ∧
    ∀ (fields : List Field) (trailing : Bytes), (∀ field ∈ fields, field.Fits) →
      (readings (fields.map Field.kind)
        (.start (fields.flatMap Field.written ++ trailing))).map Reading.field? = fields.map some ∧
      placeAfter (fields.map Field.kind) (.start (fields.flatMap Field.written ++ trailing)) =
        ⟨(fields.flatMap Field.written).length, trailing⟩ := by
  refine ⟨fun data kinds => ?_, fun fields trailing hfits => ?_⟩
  · have hstart := Cursor.Within.start data
    exact ⟨fun r hr => inBounds_of_mem_readings hstart hr, pairwise_readings hstart⟩
  · have hread := read_fields hfits 0 trailing
    rwa [Nat.zero_add] at hread

/-- The text in front promises six bytes, of which five are there: the bytes behind its length are
read as numbers instead, and one of eight bytes is not there. What is written for fields is read
back, also for what is not a number, bit by bit. -/
theorem readings_inBounds_sample :
    (readings [.text, .byte, .word64, .word32, .byte] (.start [6, 0, 0, 0, 1, 2, 3, 4, 6])).map
        (fun r => (r.field?, r.stop.offset)) =
      [(none, 4), (some (.byte 1), 5), (none, 5), (some (.word32 100926210), 9), (none, 9)] ∧
    (∀ r ∈ readings [.text, .byte, .word64, .word32, .byte] (.start [6, 0, 0, 0, 1, 2, 3, 4, 6]),
      r.InBounds [6, 0, 0, 0, 1, 2, 3, 4, 6]) ∧
    (∀ field ∈ ([.byte 255, .text [107], .binary64 ⟨0x7FF0000000000001⟩] : List Field),
      field.Fits) ∧
    (readings [.byte, .text, .binary64]
        (.start [255, 1, 0, 0, 0, 107, 1, 0, 0, 0, 0, 0, 240, 127, 9])).map Reading.field? =
      [some (.byte 255), some (.text [107]), some (.binary64 ⟨0x7FF0000000000001⟩)] := by
  have hfits : ∀ field ∈ ([.byte 255, .text [107], .binary64 ⟨0x7FF0000000000001⟩] : List Field),
      field.Fits := by decide
  have hwritten : ([.byte 255, .text [107], .binary64 ⟨0x7FF0000000000001⟩] : List Field).flatMap
      Field.written ++ [9] = [255, 1, 0, 0, 0, 107, 1, 0, 0, 0, 0, 0, 240, 127, 9] := by
    decide +kernel
  have hread := (readings_inBounds.2 _ [9] hfits).1
  rw [hwritten] at hread
  exact ⟨by decide, (readings_inBounds.1 _ _).1, hfits, hread⟩

end RemoteCache.Wire
