import RemoteCache.Wire.Reply
import RemoteCache.Wire.Request

/-!
# Decoders and the bytes that follow

A frame has no outer length, so a decoder is called again and again on a growing byte string
until it says more than "not yet". What it says then must not depend on when it was called: a
value stays the same value and a fault the same fault, however many bytes follow, and in front
of the end of a frame there is nothing but "not yet".

## Main definitions

* `Cursor.extend` — the same place, with further bytes behind those ahead
* `Reader.Stable` — a reader that advances and whose value or fault stays when bytes follow
* `Reader.Moves` — a reader that passes at least one byte
* `Reader.FixedByStream` — a decoder whose outcome is fixed by the stream

## Main results

* `Reader.Stable.bind`, `Reader.Stable.times` — stable readers compose
* `Reader.Stable.short_of_prefix` — in front of the end of a frame, bytes are missing
* `Reply.stable_read`, `Request.stable_read` — both decoders are stable
* `decoders_fixedByStream` — the outcome of both decoders is fixed by the stream
-/

namespace RemoteCache.Wire

/-- The same place, with further bytes behind those ahead. -/
def Cursor.extend (c : Cursor) (t : Bytes) : Cursor := ⟨c.offset, c.rest ++ t⟩

@[simp]
theorem Cursor.offset_extend (c : Cursor) (t : Bytes) : (c.extend t).offset = c.offset := rfl

@[simp]
theorem Cursor.rest_extend (c : Cursor) (t : Bytes) : (c.extend t).rest = c.rest ++ t := rfl

theorem Cursor.extend_start (b t : Bytes) : (Cursor.start b).extend t = .start (b ++ t) := rfl

namespace Reader

variable {α β : Type}

/-- A reader that advances, and whose value or fault stays when further bytes follow. Nothing is
asked of a reader that ran short: the further bytes may be the ones it missed. -/
structure Stable (r : Reader α) : Prop where
  advances : Advances r
  /-- A value stays, and the further bytes are left ahead. -/
  done_extend : ∀ {c a c'}, r c = .done a c' → ∀ t, r (c.extend t) = .done a (c'.extend t)
  /-- A fault stays. -/
  malformed_extend : ∀ {c fault}, r c = .malformed fault → ∀ t, r (c.extend t) = .malformed fault

/-- A reader that passes at least one byte when it succeeds. -/
def Moves (r : Reader α) : Prop := ∀ c a c', r c = .done a c' → c.offset < c'.offset

/-- A decoder whose outcome is fixed by the stream, not by when the decoder was called on it. -/
structure FixedByStream (r : Reader α) : Prop where
  /-- A frame takes at least one byte and at most those that are there; the others are left. -/
  bounds : ∀ {b a c}, r (.start b) = .done a c →
    1 ≤ c.offset ∧ c.offset ≤ b.length ∧ c.rest = b.drop c.offset
  /-- A frame is read alike whatever follows it. -/
  done_append : ∀ {b a c}, r (.start b) = .done a c →
    ∀ t, r (.start (b ++ t)) = .done a ⟨c.offset, c.rest ++ t⟩
  /-- In front of the end of a frame, bytes are missing. -/
  short_prefix : ∀ {b a c}, r (.start b) = .done a c →
    ∀ p, p <+: b → p.length < c.offset → ∃ missing c', r (.start p) = .short missing c'
  /-- A fault is the same fault, in the same words, whatever follows. -/
  malformed_append : ∀ {b fault}, r (.start b) = .malformed fault →
    ∀ t, r (.start (b ++ t)) = .malformed fault

/-! ### Combinators -/

theorem bind_eq_malformed_iff {r : Reader α} {next : α → Reader β} {c : Cursor} {fault : Fault} :
    Reader.bind r next c = .malformed fault ↔
      r c = .malformed fault ∨ ∃ a c', r c = .done a c' ∧ next a c' = .malformed fault := by
  unfold Reader.bind
  cases r c with
  | done a c' =>
    constructor
    · intro h
      exact .inr ⟨a, c', rfl, h⟩
    · rintro (h | ⟨_, _, h, hnext⟩) <;> cases h
      exact hnext
  | short missing c' => simp
  | malformed fault' => simp

theorem Stable.pure (a : α) : Stable (Reader.pure a) where
  advances := .pure a
  done_extend h t := by
    cases h
    rfl
  malformed_extend h := by cases h

theorem Stable.fail (fault : Fault) : Stable (Reader.fail fault : Reader α) where
  advances := .fail fault
  done_extend h := by cases h
  malformed_extend h t := by
    cases h
    rfl

theorem Stable.offset : Stable Reader.offset where
  advances := .offset
  done_extend h t := by
    cases h
    rfl
  malformed_extend h := by cases h

theorem Stable.bind {r : Reader α} {next : α → Reader β} (hr : Stable r)
    (hnext : ∀ a, Stable (next a)) : Stable (Reader.bind r next) where
  advances := hr.advances.bind fun a => (hnext a).advances
  done_extend h t := by
    obtain ⟨a, c', hfirst, hsecond⟩ := bind_eq_done_iff.1 h
    exact bind_eq_done_iff.2
      ⟨a, c'.extend t, hr.done_extend hfirst t, (hnext a).done_extend hsecond t⟩
  malformed_extend h t := by
    -- The fault lies in the first part, or behind its value.
    rcases bind_eq_malformed_iff.1 h with hfirst | ⟨a, c', hfirst, hsecond⟩
    · exact bind_eq_malformed_iff.2 (.inl (hr.malformed_extend hfirst t))
    · exact bind_eq_malformed_iff.2 (.inr
        ⟨a, c'.extend t, hr.done_extend hfirst t, (hnext a).malformed_extend hsecond t⟩)

theorem Stable.bytes (count : Nat) : Stable (Reader.bytes count) where
  advances := .bytes count
  done_extend h t := by
    obtain ⟨hrest, hlen, hoffset⟩ := bytes_eq_done_iff.1 h
    refine bytes_eq_done_iff.2 ⟨?_, hlen, hoffset⟩
    rw [Cursor.rest_extend, Cursor.rest_extend, hrest, List.append_assoc]
  malformed_extend h := by
    -- Bytes can be missing, but no byte is wrong.
    unfold Reader.bytes at h
    split at h <;> cases h

theorem Stable.times {r : Reader α} (hr : Stable r) (count : Nat) : Stable (times r count) := by
  induction count with
  | zero => exact .pure []
  | succ count ih => exact hr.bind fun a => ih.bind fun more => .pure (a :: more)

/-- A reader that moves still does when another one follows. -/
theorem Moves.bind {r : Reader α} {next : α → Reader β} (hr : Moves r)
    (hnext : ∀ a, Advances (next a)) : Moves (Reader.bind r next) := by
  intro c b c'' h
  obtain ⟨a, c', hfirst, hsecond⟩ := bind_eq_done_iff.1 h
  obtain ⟨passed, -, hoffset⟩ := hnext a c' b c'' hsecond
  have hmove := hr c a c' hfirst
  omega

/-- A reader that advances moves when the one that follows does. -/
theorem Moves.of_next {r : Reader α} {next : α → Reader β} (hr : Advances r)
    (hnext : ∀ a, Moves (next a)) : Moves (Reader.bind r next) := by
  intro c b c'' h
  obtain ⟨a, c', hfirst, hsecond⟩ := bind_eq_done_iff.1 h
  obtain ⟨passed, -, hoffset⟩ := hr c a c' hfirst
  have hmove := hnext a c' b c'' hsecond
  omega

theorem Moves.bytes {count : Nat} (h : 0 < count) : Moves (Reader.bytes count) := by
  intro c b c' hdone
  obtain ⟨-, -, hoffset⟩ := bytes_eq_done_iff.1 hdone
  omega

/-! ### Fields -/

theorem Stable.number (width : Nat) : Stable (Reader.number width) :=
  (Stable.bytes width).bind fun b => .pure (ofLittleEndian b)

theorem Stable.byte : Stable Reader.byte :=
  (Stable.number 1).bind fun n => .pure n.toUInt8

theorem Stable.binary64 : Stable Reader.binary64 :=
  (Stable.number 8).bind fun n => .pure (Binary64.mk n.toUInt64)

theorem Stable.text : Stable Reader.text :=
  (Stable.number 4).bind fun length => Stable.bytes length

theorem Stable.flag : Stable Reader.flag := by
  unfold Reader.flag
  apply Stable.offset.bind
  intro position
  apply Stable.byte.bind
  intro b
  split
  · exact Stable.pure true
  · split
    · exact Stable.pure false
    · exact Stable.fail _

theorem Stable.policy : Stable Reader.policy := by
  unfold Reader.policy
  apply Stable.text.bind
  intro name
  split
  · exact Stable.pure _
  · exact Stable.fail _

theorem Moves.number {width : Nat} (h : 0 < width) : Moves (Reader.number width) :=
  (Moves.bytes h).bind fun b => .pure (ofLittleEndian b)

theorem Moves.byte : Moves Reader.byte :=
  (Moves.number Nat.one_pos).bind fun n => .pure n.toUInt8

theorem Moves.flag : Moves Reader.flag := by
  unfold Reader.flag
  apply Moves.of_next Advances.offset
  intro position
  apply Moves.byte.bind
  intro b
  split
  · exact Advances.pure true
  · split
    · exact Advances.pure false
    · exact Advances.fail _

/-! ### Decoders -/

/-- In front of the end of a frame, bytes are missing: a value or a fault there would still
stand at the end of the frame. -/
theorem Stable.short_of_prefix {r : Reader α} (hr : Stable r) {p b : Bytes} {a : α} {c : Cursor}
    (hp : p <+: b) (h : r (.start b) = .done a c) (hlen : p.length < c.offset) :
    ∃ missing c', r (.start p) = .short missing c' := by
  obtain ⟨t, rfl⟩ := hp
  cases hout : r (.start p) with
  | short missing c' => exact ⟨missing, c', rfl⟩
  | malformed fault =>
    have hstays := hr.malformed_extend hout t
    rw [Cursor.extend_start, h] at hstays
    cases hstays
  | done a' c' =>
    have hstays := hr.done_extend hout t
    rw [Cursor.extend_start, h] at hstays
    cases hstays
    -- The frame would end within the prefix, in front of its own end.
    obtain ⟨passed, hrest, hoffset⟩ := hr.advances _ _ _ hout
    have hall : p.length = passed.length + c'.rest.length := by
      rw [← List.length_append, ← hrest]
      rfl
    simp only [Cursor.start, Cursor.offset_extend] at hoffset hlen
    omega

theorem Stable.fixedByStream {r : Reader α} (hr : Stable r) (hmove : Moves r) :
    FixedByStream r where
  bounds {b a c} h := by
    obtain ⟨passed, hrest, hoffset⟩ := hr.advances _ _ _ h
    have hpos := hmove _ _ _ h
    simp only [Cursor.start, Nat.zero_add] at hrest hoffset hpos
    -- What was passed and what is left make up all the bytes there were.
    refine ⟨hpos, ?_, ?_⟩
    · rw [hoffset, hrest, List.length_append]
      exact Nat.le_add_right _ _
    · rw [hoffset, hrest, List.drop_left]
  done_append h t := hr.done_extend h t
  short_prefix h p hp hlen := hr.short_of_prefix hp h hlen
  malformed_append h t := hr.malformed_extend h t

end Reader

end RemoteCache.Wire

namespace RemoteCache

open Wire

namespace Request

theorem stable_readCapacity : Reader.Stable readCapacity := by
  unfold readCapacity
  apply (Reader.Stable.number 8).bind
  intro n
  split
  · exact Reader.Stable.pure _
  · exact Reader.Stable.fail _

theorem stable_readFields (b : UInt8) : Reader.Stable (readFields b) := by
  unfold readFields
  split
  -- Most commands have a key and nothing else, so the others come first.
  case h_4 =>
    exact Reader.Stable.text.bind fun _ => Reader.Stable.text.bind fun _ =>
      (Reader.Stable.number 4).bind fun _ => Reader.Stable.pure _
  case h_8 =>
    exact Reader.Stable.text.bind fun _ =>
      (Reader.Stable.number 4).bind fun _ => Reader.Stable.pure _
  case h_11 => exact stable_readCapacity.bind fun _ => Reader.Stable.pure _
  case h_12 => exact Reader.Stable.policy.bind fun _ => Reader.Stable.pure _
  case h_15 => exact Reader.Stable.fail _
  case h_1 | h_2 | h_10 | h_13 => exact Reader.Stable.pure _
  all_goals exact Reader.Stable.text.bind fun _ => Reader.Stable.pure _

theorem stable_read : Reader.Stable read :=
  Reader.Stable.byte.bind fun b => stable_readFields b

theorem moves_read : Reader.Moves read :=
  Reader.Moves.byte.bind fun b => advances_readFields b

end Request

namespace Reply

theorem stable_readRefusal : Reader.Stable readRefusal := by
  unfold readRefusal
  apply Reader.Stable.byte.bind
  intro code
  split
  · exact Reader.Stable.byte.bind fun _ => Reader.Stable.pure _
  · exact Reader.Stable.pure _

theorem stable_readStatus : Reader.Stable readStatus :=
  -- The number of policies is read too, so their list has any length.
  (Reader.Stable.number 4).bind fun _ => (Reader.Stable.number 8).bind fun _ =>
  (Reader.Stable.number 8).bind fun _ => (Reader.Stable.number 8).bind fun _ =>
  (Reader.Stable.number 8).bind fun _ => (Reader.Stable.number 8).bind fun _ =>
  (Reader.Stable.number 8).bind fun _ => (Reader.Stable.number 8).bind fun _ =>
  (Reader.Stable.number 8).bind fun _ => Reader.Stable.binary64.bind fun _ =>
  (Reader.Stable.number 4).bind fun count => (Reader.Stable.policy.times count).bind fun _ =>
  Reader.Stable.policy.bind fun _ => Reader.Stable.flag.bind fun _ =>
  (Reader.Stable.number 8).bind fun _ => Reader.Stable.pure _

theorem stable_readPayload (shape : Shape) : Reader.Stable (readPayload shape) := by
  cases shape with
  | ack => exact Reader.Stable.pure _
  | value => exact Reader.Stable.text.bind fun _ => Reader.Stable.pure _
  | flag => exact Reader.Stable.flag.bind fun _ => Reader.Stable.pure _
  | size => exact (Reader.Stable.number 4).bind fun _ => Reader.Stable.pure _
  | expiry => exact (Reader.Stable.number 4).bind fun _ => Reader.Stable.pure _
  | status => exact stable_readStatus.bind fun _ => Reader.Stable.pure _

/-- What follows the flag of a reply. -/
theorem stable_readBody (shape : Shape) (accepted : Bool) :
    Reader.Stable (if accepted then do return .ok (← readPayload shape)
      else do return .refused (← readRefusal) : Reader Response) := by
  cases accepted with
  | false => exact stable_readRefusal.bind fun _ => Reader.Stable.pure _
  | true => exact (stable_readPayload shape).bind fun _ => Reader.Stable.pure _

theorem stable_read (shape : Shape) : Reader.Stable (read shape) :=
  Reader.Stable.flag.bind fun accepted => stable_readBody shape accepted

theorem moves_read (shape : Shape) : Reader.Moves (read shape) :=
  Reader.Moves.flag.bind fun accepted => (stable_readBody shape accepted).advances

end Reply

/-- What either decoder says of a byte stream is fixed by the stream. -/
theorem decoders_fixedByStream :
    (∀ shape, Reader.FixedByStream (Reply.read shape)) ∧ Reader.FixedByStream Request.read :=
  ⟨fun shape => (Reply.stable_read shape).fixedByStream (Reply.moves_read shape),
   Request.stable_read.fixedByStream Request.moves_read⟩

/-- A value of two bytes with its flag in front: whole with more behind it, short without its last
byte. -/
theorem decoders_fixedByStream_value :
    Reply.read .value (.start [0x21, 2, 0, 0, 0, 104, 105, 0x3F]) =
      .done (.ok (.value [104, 105])) ⟨7, [0x3F]⟩ ∧
    ∃ missing c, Reply.read .value (.start [0x21, 2, 0, 0, 0, 104]) = .short missing c := by
  have hread : Reply.read .value (.start [0x21, 2, 0, 0, 0, 104, 105]) =
      .done (.ok (.value [104, 105])) ⟨7, []⟩ := by decide
  have hfixed := decoders_fixedByStream.1 .value
  exact ⟨hfixed.done_append hread [0x3F],
    hfixed.short_prefix hread [0x21, 2, 0, 0, 0, 104] ⟨[105], rfl⟩ (by decide)⟩

end RemoteCache
