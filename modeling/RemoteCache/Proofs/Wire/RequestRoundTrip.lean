import RemoteCache.Proofs.Wire.Reading

/-!
# Requests are read back

Every command that can be sent, except the choice of a policy, is read back from its frame. The
frame has one word for a lifetime and zero for none, so a lifetime of zero seconds comes back as
none; everything else comes back as it was sent.

## Main definitions

* `Command.nonzeroTtl`, `Command.withoutZeroTtl` — a lifetime of zero seconds is replaced by none
* `Command.Plain` — a command that can be sent, that chooses no policy and whose capacity is a
  signed 64-bit number

## Main results

* `Request.reads_encode` — the frame of a plain command is read as that command
* `Request.frames_encode_append` — and in front of further frames it is the first of them
* `Request.plain_round_trip` — a command and any list of commands survive the wire
-/

namespace RemoteCache

open Wire

namespace Command

/-- A lifetime; none for one of zero seconds. -/
def nonzeroTtl (ttl : Option Int) : Option Int := if ttl = some 0 then none else ttl

/-- A command whose lifetime of zero seconds is replaced by none. -/
def withoutZeroTtl : Command → Command
  | .set key value ttl => .set key value (nonzeroTtl ttl)
  | .setTtl key ttl => .setTtl key (nonzeroTtl ttl)
  | c => c

/-- A command that can be sent and chooses no policy. Capacities are signed 64-bit numbers. -/
structure Plain (c : Command) : Prop where
  valid : c.Valid
  ne_setPolicy : ∀ p, c ≠ .setPolicy p
  capacity_lt : ∀ capacity, c = .resize capacity → capacity < 2 ^ 63

/-! ### What a check that passes says -/

theorem bind_eq_ok_iff {a b : Except Fault Unit} :
    (a >>= fun _ => b) = .ok () ↔ a = .ok () ∧ b = .ok () := by
  cases a with
  | error fault => simp [bind, Except.bind]
  | ok u => simp [bind, Except.bind]

theorem length_lt_of_checkKey {key : Bytes} (h : checkKey key = .ok ()) :
    key.length < 2 ^ 32 := by
  unfold checkKey at h
  split at h
  · cases h
  · split at h
    · cases h
    · simp only [maxWord] at *
      omega

theorem length_lt_of_checkValue {value : Bytes} (h : checkValue value = .ok ()) :
    value.length < 2 ^ 32 := by
  unfold checkValue at h
  split at h
  · cases h
  · simp only [maxWord] at *
    omega

theorem bounds_of_checkTtl {seconds : Int} (h : checkTtl (some seconds) = .ok ()) :
    0 ≤ seconds ∧ seconds < 2 ^ 32 := by
  have hcases : (if seconds < 0 then .error .negativeTtl
      else if (maxWord : Int) < seconds then .error .longTtl else .ok ()) =
      (.ok () : Except Fault Unit) := h
  split at hcases
  · cases hcases
  · split at hcases
    · cases hcases
    · simp only [maxWord] at *
      omega

theorem checkTtl_nonzeroTtl {ttl : Option Int} (h : checkTtl ttl = .ok ()) :
    checkTtl (nonzeroTtl ttl) = .ok () := by
  unfold nonzeroTtl
  split
  · rfl
  · exact h

theorem capacity_nonneg_of_checkCapacity {capacity : Int} (h : checkCapacity capacity = .ok ()) :
    0 ≤ capacity := by
  unfold checkCapacity at h
  split at h
  · cases h
  · omega

theorem Valid.withoutZeroTtl {c : Command} (h : c.Valid) : c.withoutZeroTtl.Valid := by
  cases c with
  | set key value ttl =>
    obtain ⟨hkey, hrest⟩ := bind_eq_ok_iff.1 h
    obtain ⟨hvalue, httl⟩ := bind_eq_ok_iff.1 hrest
    exact bind_eq_ok_iff.2 ⟨hkey, bind_eq_ok_iff.2 ⟨hvalue, checkTtl_nonzeroTtl httl⟩⟩
  | setTtl key ttl =>
    obtain ⟨hkey, httl⟩ := bind_eq_ok_iff.1 h
    exact bind_eq_ok_iff.2 ⟨hkey, checkTtl_nonzeroTtl httl⟩
  | _ => exact h

end Command

namespace Request

open Command

/-! ### Lifetimes and capacities -/

theorem ttlWord_lt (ttl : Option Int) : ttlWord ttl < 2 ^ 32 := by
  cases ttl with
  | none => exact Nat.two_pow_pos 32
  | some seconds =>
    simp only [ttlWord, secondsWord]
    omega

/-- A lifetime that can be sent comes back, and one of zero seconds as none. -/
theorem ttlOfWord_ttlWord {ttl : Option Int} (h : checkTtl ttl = .ok ()) :
    ttlOfWord (ttlWord ttl) = nonzeroTtl ttl := by
  cases ttl with
  | none => rfl
  | some seconds =>
    obtain ⟨hlow, hhigh⟩ := bounds_of_checkTtl h
    -- The check leaves no seconds that the word would cut off.
    have hword : (secondsWord seconds : Int) = seconds := by
      simp only [secondsWord]
      omega
    by_cases hzero : seconds = 0
    · -- The word zero stands for none.
      subst hzero
      rfl
    · have hne : secondsWord seconds ≠ 0 := by omega
      simp [ttlWord, ttlOfWord, nonzeroTtl, hzero, hne, hword]

/-- None and zero seconds are written alike. -/
theorem ttlWord_nonzeroTtl (ttl : Option Int) : ttlWord (nonzeroTtl ttl) = ttlWord ttl := by
  unfold nonzeroTtl
  split
  · rename_i hzero
    rw [hzero]
    rfl
  · rfl

theorem reads_readCapacity {capacity : Int} (hlow : 0 ≤ capacity) (hhigh : capacity < 2 ^ 63) :
    Reader.Reads readCapacity (word64 (capacity % 2 ^ 64).toNat) capacity := by
  have hlt : (capacity % 2 ^ 64).toNat < 2 ^ 63 := by omega
  have hvalue : ((capacity % 2 ^ 64).toNat : Int) = capacity := by omega
  unfold readCapacity
  apply (Reader.Reads.word64 (by omega)).then
  rw [if_pos hlt, hvalue]
  exact Reader.Reads.pure capacity

/-! ### Frames -/

theorem frame_eq_ok {c : Command} (h : c.Valid) : frame c = .ok (encode c) := by
  unfold frame
  rw [h]
  rfl

theorem reads_key {key : Bytes} (h : checkKey key = .ok ()) (make : Bytes → Command) :
    Reader.Reads (Reader.bind Reader.text fun key => Reader.pure (make key)) (text key)
      (make key) :=
  (Reader.Reads.text (length_lt_of_checkKey h)).map make

/-- The fields of a plain command are read as that command. -/
theorem reads_fields {c : Command} (hc : c.Plain) :
    Reader.Reads (readFields c.byte) (fields c) c.withoutZeroTtl := by
  have hvalid := hc.valid
  cases c with
  | ping | version | wipe | getStatus => exact Reader.Reads.pure _
  | get key => exact reads_key hvalid .get
  | del key => exact reads_key hvalid .del
  | has key => exact reads_key hvalid .has
  | peek key => exact reads_key hvalid .peek
  | getTtl key => exact reads_key hvalid .getTtl
  | valueSize key => exact reads_key hvalid .valueSize
  | set key value ttl =>
    obtain ⟨hkey, hrest⟩ := bind_eq_ok_iff.1 hvalid
    obtain ⟨hvalue, httl⟩ := bind_eq_ok_iff.1 hrest
    -- The decoder builds the command from the word, not from the lifetime that was sent.
    rw [fields, withoutZeroTtl, List.append_assoc, ← ttlOfWord_ttlWord httl]
    exact (Reader.Reads.text (length_lt_of_checkKey hkey)).bind
      ((Reader.Reads.text (length_lt_of_checkValue hvalue)).bind
        ((Reader.Reads.word32 (ttlWord_lt ttl)).map fun n => Command.set key value (ttlOfWord n)))
  | setTtl key ttl =>
    obtain ⟨hkey, httl⟩ := bind_eq_ok_iff.1 hvalid
    rw [fields, withoutZeroTtl, ← ttlOfWord_ttlWord httl]
    exact (Reader.Reads.text (length_lt_of_checkKey hkey)).bind
      ((Reader.Reads.word32 (ttlWord_lt ttl)).map fun n => Command.setTtl key (ttlOfWord n))
  | resize capacity =>
    have hcapacity := reads_readCapacity (capacity_nonneg_of_checkCapacity hvalid)
      (hc.capacity_lt capacity rfl)
    exact hcapacity.map Command.resize
  | setPolicy p => exact absurd rfl (hc.ne_setPolicy p)

/-- The frame of a plain command is read as that command. -/
theorem reads_encode {c : Command} (hc : c.Plain) :
    Reader.Reads read (encode c) c.withoutZeroTtl :=
  (Reader.Reads.byte c.byte).bind (reads_fields hc)

theorem encode_withoutZeroTtl (c : Command) : encode c.withoutZeroTtl = encode c := by
  cases c <;> simp [encode, withoutZeroTtl, Command.byte, fields, ttlWord_nonzeroTtl]

/-- A command that is read is the first of those that the bytes hold. -/
theorem frames_of_done {b : Bytes} {command : Command} {c : Cursor}
    (h : read (.start b) = .done command c) :
    frames b = (command :: (frames c.rest).1, (frames c.rest).2) := by
  rw [frames]
  split
  · rename_i heq
    rw [h] at heq
    cases heq
    rfl
  · rename_i heq
    rw [h] at heq
    cases heq
  · rename_i heq
    rw [h] at heq
    cases heq

/-- A frame is the first of the frames in front of which it stands. -/
theorem frames_append {c : Command} {f : Bytes} (h : Reader.Reads read f c) (t : Bytes) :
    frames (f ++ t) = (c :: (frames t).1, (frames t).2) :=
  frames_of_done (h.start t)

/-- The frame of a plain command is the first of the frames in front of which it stands. -/
theorem frames_encode_append {c : Command} (hc : c.Plain) (t : Bytes) :
    frames (encode c ++ t) = (c.withoutZeroTtl :: (frames t).1, (frames t).2) :=
  frames_append (reads_encode hc) t

/-- A beginning of a frame is no frame yet. -/
theorem frames_of_short {b : Bytes} {missing : Nat} {c : Cursor}
    (h : read (.start b) = .short missing c) : frames b = ([], .incomplete b) := by
  rw [frames]
  split
  · rename_i heq
    rw [h] at heq
    cases heq
  · rfl
  · rename_i heq
    rw [h] at heq
    cases heq

theorem frames_of_malformed {b : Bytes} {fault : Wire.Fault}
    (h : read (.start b) = .malformed fault) : frames b = ([], .malformed fault) := by
  rw [frames]
  split
  · rename_i heq
    rw [h] at heq
    cases heq
  · rename_i heq
    rw [h] at heq
    cases heq
  · rename_i heq
    rw [h] at heq
    cases heq
    rfl

theorem frames_nil : frames [] = ([], .incomplete []) := by
  rw [frames]
  rfl

theorem frames_flatMap_encode {commands : List Command} (h : ∀ c ∈ commands, c.Plain) :
    frames (commands.flatMap encode) = (commands.map withoutZeroTtl, .incomplete []) := by
  induction commands with
  | nil => exact frames_nil
  | cons c commands ih =>
    have hrest := ih fun c' hc' => h c' (List.mem_cons_of_mem c hc')
    rw [List.flatMap_cons, frames_encode_append (h c List.mem_cons_self), hrest]
    rfl

/-- A plain command is read back from its frame, whatever follows, with a lifetime of zero
seconds turned into none, which does not change the frame; and the frames of any list of plain
commands are read back in order, with nothing left over. -/
theorem plain_round_trip :
    (∀ c : Command, c.Plain → frame c = .ok (encode c) ∧
      (∀ t, read (.start (encode c ++ t)) = .done c.withoutZeroTtl ⟨(encode c).length, t⟩) ∧
      frame c.withoutZeroTtl = .ok (encode c)) ∧
    ∀ commands : List Command, (∀ c ∈ commands, c.Plain) →
      frames (commands.flatMap encode) = (commands.map withoutZeroTtl, .incomplete []) := by
  refine ⟨fun c hc => ⟨frame_eq_ok hc.valid, (reads_encode hc).start, ?_⟩,
    fun commands h => frames_flatMap_encode h⟩
  rw [frame_eq_ok hc.valid.withoutZeroTtl, encode_withoutZeroTtl]

/-- A value set with a lifetime of zero seconds comes back without one, alone and between two
other commands. -/
theorem plain_round_trip_zero_ttl :
    (Command.set [107] [0, 118] (some 0)).Plain ∧
    read (.start (encode (.set [107] [0, 118] (some 0)) ++ [3])) =
      .done (.set [107] [0, 118] none) ⟨16, [3]⟩ ∧
    frames ([.ping, .set [107] [0, 118] (some 0), .resize 7].flatMap encode) =
      ([.ping, .set [107] [0, 118] none, .resize 7], .incomplete []) := by
  have hping : Command.ping.Plain := ⟨rfl, nofun, nofun⟩
  have hset : (Command.set [107] [0, 118] (some 0)).Plain := ⟨rfl, nofun, nofun⟩
  have hresize : (Command.resize 7).Plain :=
    ⟨rfl, nofun, fun capacity heq => by cases heq; decide⟩
  refine ⟨hset, (plain_round_trip.1 _ hset).2.1 [3], plain_round_trip.2 _ ?_⟩
  simp [hping, hset, hresize]

end Request

end RemoteCache
