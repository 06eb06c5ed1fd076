import RemoteCache.Proofs.Wire.ReplyRoundTrip

/-!
# One written form

A decoder accepts nothing that the encoder would not have written. Whatever it makes of some bytes,
the bytes that it took are those that are written for what it made of them. So a reply or a command
has one written form, and two different frames are never read alike.

Policies are left out: a number may be spelt in many ways in the name of a policy.

## Main definitions

* `Reader.Passes` — what the values of a reader and the bytes taken for them have to do with each
  other
* `Command.key?` — the key that a command is about

## Main results

* `Reader.Passes.bind` — the bytes of two fields are those of the first and then of the second
* `Reply.passes_read` — a reply without a report is read from its own frame
* `Request.passes_read` — so is a command, and only an empty key keeps it from being sent
* `written_as_read` — what was read is written as the bytes that it was read from
-/

namespace RemoteCache

open Wire

namespace Wire.Reader

variable {α β : Type} {P P' : α → Bytes → Prop} {Q : β → Bytes → Prop} {r : Reader α} {a : α}

/-- Whenever a reader ends with a value, it has passed some of the bytes ahead and has counted them,
and the value and these bytes are as said. -/
def Passes (r : Reader α) (P : α → Bytes → Prop) : Prop :=
  ∀ c a c', r c = .done a c' →
    ∃ b, c.rest = b ++ c'.rest ∧ c'.offset = c.offset + b.length ∧ P a b

theorem Passes.mono (h : Passes r P) (himp : ∀ a b, P a b → P' a b) : Passes r P' := by
  intro c a c' hdone
  obtain ⟨b, hrest, hoffset, hp⟩ := h c a c' hdone
  exact ⟨b, hrest, hoffset, himp a b hp⟩

/-- The bytes that were passed are the first of those that were there. -/
theorem Passes.take (h : Passes r P) {b : Bytes} {c : Cursor} (hdone : r (.start b) = .done a c) :
    P a (b.take c.offset) := by
  obtain ⟨passed, hrest, hoffset, hp⟩ := h _ _ _ hdone
  have htake : b.take c.offset = passed := by
    rw [show b = passed ++ c.rest from hrest, hoffset]
    exact List.take_left' (Nat.zero_add _).symm
  rwa [htake]

/-! ### Combinators -/

theorem Passes.pure (h : P a []) : Passes (Reader.pure a) P := by
  intro c a' c' hdone
  cases hdone
  exact ⟨[], rfl, rfl, h⟩

theorem Passes.fail (fault : Fault) : Passes (Reader.fail fault) P := fun _ _ _ => nofun

theorem Passes.bind {next : α → Reader β} (hr : Passes r P)
    (hnext : ∀ a b, P a b → Passes (next a) fun x b' => Q x (b ++ b')) :
    Passes (Reader.bind r next) Q := by
  intro c x c'' hdone
  obtain ⟨a, c', hfirst, hsecond⟩ := bind_eq_done_iff.1 hdone
  obtain ⟨b, hrest, hoffset, hp⟩ := hr c a c' hfirst
  obtain ⟨b', hrest', hoffset', hq⟩ := hnext a b hp c' x c'' hsecond
  refine ⟨b ++ b', ?_, ?_, hq⟩
  · rw [hrest, hrest', List.append_assoc]
  · rw [hoffset', hoffset, List.length_append, Nat.add_assoc]

/-- A step that passes nothing turns the value that was read into another. -/
theorem Passes.map {f : α → β} (hr : Passes r P) (h : ∀ a b, P a b → Q (f a) b) :
    Passes (Reader.bind r fun a => Reader.pure (f a)) Q :=
  hr.bind fun a b hp => .pure ((List.append_nil b).symm ▸ h a b hp)

/-! ### Fields -/

theorem Passes.bytes (count : Nat) :
    Passes (Reader.bytes count) fun a b => b = a ∧ a.length = count := by
  intro c a c' hdone
  obtain ⟨hrest, hlength, hoffset⟩ := bytes_eq_done_iff.1 hdone
  exact ⟨a, hrest, hlength.symm ▸ hoffset, rfl, hlength⟩

/-- Bytes are written for the number that they are read as. -/
theorem littleEndian_ofLittleEndian (b : Bytes) :
    littleEndian b.length (ofLittleEndian b) = b := by
  induction b with
  | nil => rfl
  | cons first rest ih =>
    have hfirst := first.toNat_lt
    have hlow : (first.toNat + 256 * ofLittleEndian rest) % 256 = first.toNat := by omega
    have hhigh : (first.toNat + 256 * ofLittleEndian rest) / 256 = ofLittleEndian rest := by omega
    rw [ofLittleEndian, List.length_cons, littleEndian, hlow, hhigh, ih]
    simp

theorem Passes.number (width : Nat) :
    Passes (Reader.number width) fun n b => b = littleEndian width n ∧ n < 256 ^ width := by
  refine (Passes.bytes width).map ?_
  rintro a b ⟨rfl, rfl⟩
  exact ⟨(littleEndian_ofLittleEndian b).symm, ofLittleEndian_lt b⟩

theorem Passes.word32 :
    Passes Reader.word32 fun n b => b = Wire.word32 n ∧ n < 2 ^ 32 :=
  Passes.number 4

theorem Passes.word64 :
    Passes Reader.word64 fun n b => b = Wire.word64 n ∧ n < 2 ^ 64 :=
  Passes.number 8

theorem Passes.byte : Passes Reader.byte fun x b => b = [x] := by
  refine (Passes.number 1).map ?_
  rintro n b ⟨rfl, hlt⟩
  have hmod : n % 256 = n := Nat.mod_eq_of_lt hlt
  simp [littleEndian, hmod]

theorem Passes.text :
    Passes Reader.text fun x b => b = Wire.text x ∧ x.length < 2 ^ 32 := by
  refine Passes.word32.bind ?_
  rintro n _ ⟨rfl, hlt⟩
  refine (Passes.bytes n).mono ?_
  rintro x _ ⟨rfl, rfl⟩
  exact ⟨rfl, hlt⟩

theorem Passes.flag : Passes Reader.flag fun x b => b = Wire.flag x := by
  have hoffset : Passes Reader.offset fun _ b => b = [] := by
    intro c a c' hdone
    cases hdone
    exact ⟨[], rfl, rfl, rfl⟩
  unfold Reader.flag
  refine Passes.bind hoffset ?_
  rintro position _ rfl
  refine Passes.byte.bind ?_
  rintro byte _ rfl
  split
  · rename_i hset
    exact .pure (by rw [hset]; rfl)
  · split
    · rename_i hclear
      exact .pure (by rw [hclear]; rfl)
    · exact .fail _

end Wire.Reader

/-! ### Replies -/

namespace Reply

open Wire.Reader

variable {shape : Shape}

/-- A refusal is read from the codes that are written for it. -/
theorem passes_readRefusal :
    Passes readRefusal fun r b => Wire.flag false ++ b = encodeRefusal r := by
  unfold readRefusal
  refine Passes.byte.bind ?_
  rintro code _ rfl
  split
  · -- The code zero announces a cache, and a cache's refusal is written with it.
    rename_i hzero
    subst hzero
    refine Passes.byte.map ?_
    rintro code _ rfl
    rfl
  · exact .pure rfl

theorem passes_readPayload (h : shape ≠ .status) :
    Passes (readPayload shape) fun payload b => payload.shape = shape ∧ b = fields payload := by
  cases shape with
  | ack => exact .pure ⟨rfl, rfl⟩
  | value => exact Passes.text.map fun data b hdata => ⟨rfl, hdata.1⟩
  | flag => exact Passes.flag.map fun isSet b hflag => ⟨rfl, hflag⟩
  | size =>
    refine Passes.word32.map ?_
    rintro n _ ⟨rfl, hlt⟩
    have hword : n.toUInt32.toNat = n := by simpa using hlt
    exact ⟨rfl, by rw [fields, hword]⟩
  | expiry =>
    refine Passes.word32.map ?_
    rintro n _ ⟨rfl, hlt⟩
    have hword : Request.secondsWord n = n := by
      unfold Request.secondsWord
      omega
    exact ⟨rfl, by rw [fields, hword]⟩
  | status => exact absurd rfl h

/-- A reply without a report is read from its own frame. -/
theorem passes_read (h : shape ≠ .status) :
    Passes (read shape) fun r b => r.HasShape shape ∧ b = frame r := by
  unfold read
  refine Passes.flag.bind ?_
  rintro accepted _ rfl
  cases accepted with
  | true =>
    refine (passes_readPayload h).map ?_
    rintro payload _ ⟨hshape, rfl⟩
    exact ⟨hshape, rfl⟩
  | false =>
    refine passes_readRefusal.map ?_
    intro refusal b hcodes
    exact ⟨trivial, hcodes⟩

end Reply

/-! ### Requests -/

/-- The key that a command is about, if there is one. -/
def Command.key? : Command → Option Bytes
  | .get key | .del key | .has key | .peek key | .getTtl key | .valueSize key => some key
  | .set key _ _ | .setTtl key _ => some key
  | .ping | .version | .wipe | .resize _ | .setPolicy _ | .getStatus => none

namespace Request

open Wire.Reader Command

theorem checkKey_of_length_lt {key : Bytes} (h : key.length < 2 ^ 32) :
    checkKey key = if some key = some [] then .error .emptyKey else .ok () := by
  have hlength : ¬ maxWord < key.length := by
    unfold maxWord
    omega
  unfold checkKey
  rw [if_neg hlength]
  simp

/-- A key that fits its field is the only thing that can be wrong if nothing else is. -/
theorem checkKey_then {key : Bytes} {others : Except Command.Fault Unit} (h : key.length < 2 ^ 32)
    (hothers : others = .ok ()) :
    (checkKey key >>= fun _ => others) =
      if some key = some [] then .error .emptyKey else .ok () := by
  rw [checkKey_of_length_lt h, hothers]
  cases key <;> rfl

theorem checkValue_of_length_lt {value : Bytes} (h : value.length < 2 ^ 32) :
    checkValue value = .ok () := by
  unfold checkValue maxWord
  rw [if_neg (by omega)]

/-- A lifetime that fits a word passes, and the word is written for it. -/
theorem ttlOfWord_spec {n : Nat} (h : n < 2 ^ 32) :
    checkTtl (ttlOfWord n) = .ok () ∧ ttlWord (ttlOfWord n) = n := by
  unfold ttlOfWord
  split
  · rename_i hzero
    exact ⟨rfl, hzero.symm⟩
  · constructor
    · unfold checkTtl maxWord
      dsimp only
      rw [if_neg (by omega), if_neg (by omega)]
    · change secondsWord n = n
      unfold secondsWord
      omega

theorem passes_readCapacity :
    Passes readCapacity fun n b => 0 ≤ n ∧ b = Wire.word64 (n % 2 ^ 64).toNat := by
  unfold readCapacity
  refine Passes.word64.bind ?_
  rintro n _ ⟨rfl, hlt⟩
  split
  · have hword : ((n : Int) % 2 ^ 64).toNat = n := by omega
    exact .pure ⟨Int.natCast_nonneg n, by rw [hword, List.append_nil]⟩
  · exact .fail _

/-- A command with a given byte, whose fields are some bytes, and that only an empty key keeps from
being sent. -/
structure Spells (byte : UInt8) (c : Command) (b : Bytes) : Prop where
  byte_eq : c.byte = byte
  eq_fields : b = fields c
  check_eq : c.check = if c.key? = some [] then .error .emptyKey else .ok ()

/-- The commands whose only field is a key. -/
theorem passes_key {byte : UInt8} {make : Bytes → Command} (hbyte : ∀ key, (make key).byte = byte)
    (hfields : ∀ key, fields (make key) = text key) (hkey : ∀ key, (make key).key? = some key)
    (hcheck : ∀ key, (make key).check = checkKey key) :
    Passes (Reader.bind Reader.text fun key => Reader.pure (make key)) fun c b =>
      (∀ p, c ≠ .setPolicy p) → Spells byte c b := by
  refine Passes.text.map ?_
  rintro key _ ⟨rfl, hlt⟩ -
  exact ⟨hbyte key, (hfields key).symm, by rw [hcheck, hkey, checkKey_of_length_lt hlt]⟩

theorem passes_readFields (byte : UInt8) :
    Passes (readFields byte) fun c b => (∀ p, c ≠ .setPolicy p) → Spells byte c b := by
  have hbyte {n : UInt8} (h : byte.toNat = n.toNat) : n = byte := (UInt8.toNat_inj.1 h).symm
  unfold readFields
  split <;> rename_i hn
  case h_1 | h_2 | h_10 | h_13 => exact .pure fun _ => ⟨hbyte hn, rfl, rfl⟩
  case h_3 | h_5 | h_6 | h_7 | h_9 | h_14 =>
    exact passes_key (fun _ => hbyte hn) (fun _ => rfl) (fun _ => rfl) fun _ => rfl
  case h_4 =>
    refine Passes.text.bind ?_
    rintro key _ ⟨rfl, hkey⟩
    refine Passes.text.bind ?_
    rintro value _ ⟨rfl, hvalue⟩
    refine Passes.word32.map ?_
    rintro ttl _ ⟨rfl, httl⟩ -
    obtain ⟨hpass, hword⟩ := ttlOfWord_spec httl
    refine ⟨hbyte hn, ?_, ?_⟩
    · rw [fields, hword, List.append_assoc]
    · refine checkKey_then hkey ?_
      rw [checkValue_of_length_lt hvalue, hpass]
      rfl
  case h_8 =>
    refine Passes.text.bind ?_
    rintro key _ ⟨rfl, hkey⟩
    refine Passes.word32.map ?_
    rintro ttl _ ⟨rfl, httl⟩ -
    obtain ⟨hpass, hword⟩ := ttlOfWord_spec httl
    exact ⟨hbyte hn, by rw [fields, hword], checkKey_then hkey hpass⟩
  case h_11 =>
    refine passes_readCapacity.map ?_
    rintro capacity _ ⟨hcapacity, rfl⟩ -
    refine ⟨hbyte hn, rfl, ?_⟩
    dsimp only [Command.check, checkCapacity]
    rw [if_neg (by omega)]
    rfl
  case h_12 =>
    -- The name of a policy has other spellings, so nothing is said of it but that it is one.
    have hadvances : Passes Reader.policy fun _ _ => True := fun c p c' hdone =>
      (Advances.policy c p c' hdone).imp fun _ h => ⟨h.1, h.2, trivial⟩
    exact hadvances.map fun p b _ hplain => absurd rfl (hplain p)
  case h_15 => exact .fail _

/-- A command that chooses no policy is read from its own frame, and only an empty key keeps it from
being sent. -/
theorem passes_read :
    Passes read fun c b => (∀ p, c ≠ .setPolicy p) →
      b = encode c ∧ c.check = if c.key? = some [] then .error .emptyKey else .ok () := by
  unfold read
  refine Passes.byte.bind ?_
  rintro byte _ rfl
  refine (passes_readFields byte).mono fun c b h hplain => ?_
  obtain ⟨rfl, rfl, hcheck⟩ := h hplain
  exact ⟨rfl, hcheck⟩

end Request

/-- What was read is written as the bytes that it was read from: a reply of any shape but that of a
report, and a command that chooses no policy, which cannot be sent if its key is empty. So no two
frames are read as the same reply, or as the same command. -/
theorem written_as_read :
    (∀ {shape b r c}, shape ≠ .status → Reply.read shape (.start b) = .done r c →
      Reply.encode shape r = .ok (b.take c.offset)) ∧
    (∀ {b command c}, (∀ p, command ≠ .setPolicy p) → Request.read (.start b) = .done command c →
      Request.frame command =
        if command.key? = some [] then .error .emptyKey else .ok (b.take c.offset)) ∧
    (∀ {shape b b' r c c'}, shape ≠ .status → Reply.read shape (.start b) = .done r c →
      Reply.read shape (.start b') = .done r c' → b.take c.offset = b'.take c'.offset) ∧
    ∀ {b b' command c c'}, (∀ p, command ≠ .setPolicy p) →
      Request.read (.start b) = .done command c → Request.read (.start b') = .done command c' →
      b.take c.offset = b'.take c'.offset := by
  refine ⟨?_, ?_, ?_, ?_⟩
  · intro shape b r c hshape hread
    obtain ⟨hr, hframe⟩ := (Reply.passes_read hshape).take hread
    rw [Reply.encode_eq_frame hr, hframe]
  · intro b command c hplain hread
    obtain ⟨hencode, hcheck⟩ := Request.passes_read.take hread hplain
    rw [Request.frame, hcheck, hencode]
    split <;> rfl
  · intro shape b b' r c c' hshape hread hread'
    rw [((Reply.passes_read hshape).take hread).2, ((Reply.passes_read hshape).take hread').2]
  · intro b b' command c c' hplain hread hread'
    rw [(Request.passes_read.take hread hplain).1, (Request.passes_read.take hread' hplain).1]

/-- A server's refusal in front of another reply, and a command that stores an empty value for ever,
once with a key and once without. -/
theorem written_as_read_refusal_set :
    Reply.read .value (.start [0x3F, 2, 0x21]) = .done (.refused (.ofCode .server 2)) ⟨2, [0x21]⟩ ∧
    Reply.encode .value (.refused (.ofCode .server 2)) = .ok [0x3F, 2] ∧
    Request.frame (.set [107] [] none) = .ok [4, 1, 0, 0, 0, 107, 0, 0, 0, 0, 0, 0, 0, 0] ∧
    Request.frame (.set [] [] none) = .error .emptyKey ∧
    ([4, 1, 0, 0, 0, 107, 0, 0, 0, 0, 0, 0, 0, 0, 7] : Bytes).take 14 =
      ([4, 1, 0, 0, 0, 107, 0, 0, 0, 0, 0, 0, 0, 0] : Bytes).take 14 := by
  have hrefusal : Reply.read .value (.start [0x3F, 2, 0x21]) =
      .done (.refused (.ofCode .server 2)) ⟨2, [0x21]⟩ := rfl
  have hset : Request.read (.start [4, 1, 0, 0, 0, 107, 0, 0, 0, 0, 0, 0, 0, 0]) =
      .done (.set [107] [] none) ⟨14, []⟩ := rfl
  have hmore : Request.read (.start [4, 1, 0, 0, 0, 107, 0, 0, 0, 0, 0, 0, 0, 0, 7]) =
      .done (.set [107] [] none) ⟨14, [7]⟩ := rfl
  have hkeyless : Request.read (.start [4, 0, 0, 0, 0, 0, 0, 0, 0, 0, 0, 0, 0]) =
      .done (.set [] [] none) ⟨13, []⟩ := rfl
  have hshape : Shape.value ≠ .status := nofun
  have hplain (key : Bytes) (p : Policy) : Command.set key [] none ≠ .setPolicy p := nofun
  obtain ⟨hreply, hrequest, -, halike⟩ := written_as_read
  exact ⟨hrefusal, hreply hshape hrefusal, hrequest (hplain [107]) hset,
    hrequest (hplain []) hkeyless, halike (hplain [107]) hmore hset⟩

end RemoteCache
