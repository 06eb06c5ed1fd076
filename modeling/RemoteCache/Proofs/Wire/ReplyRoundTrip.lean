import Mathlib.Data.List.Forall2
import RemoteCache.Proofs.Wire.PolicyRoundTrip

/-!
# Replies are read back

A payload is read back from the frame of its shape, field by field, in front of whatever follows.
Lengths, counts and lifetimes travel as 32-bit numbers, and a payload that does not fit them is
not read back. A refusal has no field for the side that refused: the code zero announces a cache,
so that a server's code is read back unless it is zero.

## Main definitions

* `Status.Agrees`, `Payload.Agrees` — the same numbers, and policies that agree in order
* `Payload.NamesItself` — a payload whose policies are read back
* `Payload.Fits` — a payload whose lengths, counts and lifetimes fit their fields
* `Refusal.Announced` — a refusal whose code tells which side refused
* `Reply.frame` — the bytes of a response, in the shape of its own payload

## Main results

* `Reply.reads_frame` — every response that has a frame of its own is read back from it
* `Reply.ok_round_trip_iff` — a payload is read back if and only if it fits
* `Reply.ok_long_value_not_read_back` — a value of four gigabytes is not
* `Reply.refused_round_trip_iff` — a refusal is read back unless it is a server's with code zero
-/

namespace RemoteCache

open Wire

/-! ### What is read back -/

namespace Status

/-- A report without the parameters that its policies ignore. -/
def essence (s : Status) : Status :=
  { s with policies := s.policies.map Policy.essence, policy := s.policy.essence }

/-- Two reports are the same but for policies, which agree one by one. -/
structure Agrees (s r : Status) : Prop where
  policies : List.Forall₂ (fun p q => p.agrees q = true) s.policies r.policies
  policy : s.policy.agrees r.policy = true
  rest : { s with policies := r.policies, policy := r.policy } = r

/-- A report whose policies are all read back from their texts. -/
structure NamesItself (s : Status) : Prop where
  policies : ∀ p ∈ s.policies, p.NamesItself
  policy : s.policy.NamesItself

theorem agrees_essence {s : Status} (h : s.NamesItself) : s.Agrees s.essence where
  policies := by
    apply List.forall₂_map_right_iff.2
    exact List.forall₂_same.2 fun p hp => Policy.agrees_essence (h.policies p hp)
  policy := Policy.agrees_essence h.policy
  rest := rfl

end Status

namespace Payload

/-- A payload without the parameters that its policies ignore. -/
def essence : Payload → Payload
  | .status report => .status report.essence
  | payload => payload

/-- Two payloads are the same but for policies, which agree one by one. -/
def Agrees : Payload → Payload → Prop
  | .status s, .status r => s.Agrees r
  | payload, back => payload = back

/-- A payload whose policies are all read back from their texts. -/
def NamesItself : Payload → Prop
  | .status report => report.NamesItself
  | _ => True

/-- A payload that its fields can hold: the length of a value, the number of policies and a
lifetime are 32-bit numbers. -/
def Fits : Payload → Prop
  | .value data => data.length < 2 ^ 32
  | .expiry seconds => 0 ≤ seconds ∧ seconds < 2 ^ 32
  | .status report => report.policies.length < 2 ^ 32
  | .ack | .flag _ | .size _ => True

theorem agrees_essence {payload : Payload} (h : payload.NamesItself) :
    payload.Agrees payload.essence := by
  cases payload with
  | status report => exact Status.agrees_essence h
  | _ => rfl

theorem Agrees.fits {payload back : Payload} (h : payload.Agrees back) (hback : back.Fits) :
    payload.Fits := by
  cases payload with
  | status report =>
    cases back with
    | status report' =>
      have hlength := (show report.Agrees report' from h).policies.length_eq
      change report.policies.length < 2 ^ 32
      rw [hlength]
      exact hback
    | _ => cases h
  | _ =>
    obtain rfl := h
    exact hback

end Payload

/-- A refusal whose code tells which side refused: a server's code is not the zero that announces
a cache. -/
def Refusal.Announced (r : Refusal) : Prop := ¬ (r.origin = .server ∧ r.code = 0)

namespace Response

/-- A response that can answer a command of the given shape: a refusal can answer any. -/
def HasShape (shape : Shape) : Response → Prop
  | .ok payload => payload.shape = shape
  | .refused _ => True

/-- A response that is read back from its frame. -/
def Readable : Response → Prop
  | .ok payload => payload.NamesItself ∧ payload.Fits
  | .refused refusal => refusal.Announced

/-- What a response is read back as: without the parameters that its policies ignore, and a
refusal in the words of its code. -/
def essence : Response → Response
  | .ok payload => .ok payload.essence
  | .refused refusal => .refused (.ofCode refusal.origin refusal.code)

end Response

namespace Wire.Reader

/-! ### What readers yield -/

variable {α β : Type}

/-- Every value that a reader ends with is as said. -/
def Yields (r : Reader α) (P : α → Prop) : Prop := ∀ c a c', r c = .done a c' → P a

theorem Yields.pure {P : α → Prop} {a : α} (h : P a) : Yields (Reader.pure a) P := by
  intro c a' c' hdone
  cases hdone
  exact h

theorem Yields.bind {r : Reader α} {next : α → Reader β} {P : α → Prop} {Q : β → Prop}
    (hr : Yields r P) (hnext : ∀ a, P a → Yields (next a) Q) : Yields (Reader.bind r next) Q := by
  intro c b c'' h
  obtain ⟨a, c', hfirst, hsecond⟩ := bind_eq_done_iff.1 h
  exact hnext a (hr c a c' hfirst) c' b c'' hsecond

/-- Of some fields nothing need be known. -/
theorem Yields.of_next {r : Reader α} {next : α → Reader β} {Q : β → Prop}
    (hnext : ∀ a, Yields (next a) Q) : Yields (Reader.bind r next) Q := by
  intro c b c'' h
  obtain ⟨a, c', -, hsecond⟩ := bind_eq_done_iff.1 h
  exact hnext a c' b c'' hsecond

theorem ofLittleEndian_lt (b : Bytes) : ofLittleEndian b < 256 ^ b.length := by
  induction b with
  | nil => exact Nat.one_pos
  | cons first rest ih =>
    have hfirst := first.toNat_lt
    rw [ofLittleEndian, List.length_cons, Nat.pow_succ]
    omega

theorem Yields.bytes (count : Nat) : Yields (Reader.bytes count) fun b => b.length = count := by
  intro c b c' h
  exact (bytes_eq_done_iff.1 h).2.1

theorem Yields.word32 : Yields Reader.word32 fun n => n < 2 ^ 32 := by
  refine (Yields.bytes 4).bind fun b hlength => .pure ?_
  have hlt := ofLittleEndian_lt b
  rwa [hlength] at hlt

theorem Yields.text : Yields Reader.text fun b => b.length < 2 ^ 32 := by
  refine Yields.word32.bind fun n hn c b c' h => ?_
  rw [Yields.bytes n c b c' h]
  exact hn

theorem Yields.times (r : Reader α) (count : Nat) :
    Yields (Reader.times r count) fun items => items.length = count := by
  induction count with
  | zero => exact .pure rfl
  | succ count ih =>
    exact .of_next fun a => ih.bind fun items hlength => .pure (congrArg (· + 1) hlength)

end Wire.Reader

namespace Reply

open Wire.Reader

/-! ### Frames -/

/-- The fields of a payload, in the order of its own shape. -/
def fields : Payload → Bytes
  | .ack => []
  | .value data => text data
  | .flag isSet => flag isSet
  | .size n => word32 n.toNat
  | .expiry seconds => word32 (Request.secondsWord seconds)
  | .status report => encodeStatus report

/-- The bytes of a response, in the shape of its own payload. -/
def frame : Response → Bytes
  | .ok payload => flag true ++ fields payload
  | .refused refusal => encodeRefusal refusal

theorem encode_eq_frame {shape : Shape} {r : Response} (h : r.HasShape shape) :
    encode shape r = .ok (frame r) := by
  cases r with
  | refused refusal => rfl
  | ok payload =>
    obtain rfl : payload.shape = shape := h
    cases payload <;> rfl

/-! ### Payloads -/

theorem reads_policy {p : Policy} (h : p.NamesItself) :
    Reads Reader.policy (Wire.policy p) p.essence :=
  Reads.policy (Policy.read?_text h) p.length_text_lt

theorem reads_status {s : Status} (hnames : s.NamesItself) (hcount : s.policies.length < 2 ^ 32) :
    Reads readStatus (encodeStatus s) s.essence := by
  have hpolicies : Reads (times Reader.policy s.policies.length)
      (s.policies.flatMap Wire.policy) (s.policies.map Policy.essence) :=
    Reads.times fun p hp => reads_policy (hnames.policies p hp)
  have h64 (n : UInt64) : Reads Reader.word64 (Wire.word64 n.toNat) n.toNat :=
    Reads.word64 n.toNat_lt
  unfold encodeStatus
  simp only [List.append_assoc]
  -- One law for each field, in the order in which they stand.
  refine (Reads.word32 s.pid.toNat_lt).bind <| (h64 s.maxSize).bind <|
    (h64 s.usedSize).bind <| (h64 s.numObjects).bind <| (h64 s.rss).bind <| (h64 s.hwm).bind <|
    (h64 s.totalGets).bind <| (h64 s.totalSets).bind <| (h64 s.totalDels).bind <|
    (Reads.binary64 s.missRatio).bind <| (Reads.word32 hcount).bind <| hpolicies.bind <|
    (reads_policy hnames.policy).bind <| (Reads.flag s.isAutoPolicy).bind <|
    (h64 s.uptime).then ?_
  simp only [Nat.toUInt32_eq, UInt32.ofNat_toNat, Nat.toUInt64_eq, UInt64.ofNat_toNat]
  exact Reads.pure s.essence

/-- The fields of a payload that fits are read as that payload. -/
theorem reads_fields {payload : Payload} (hnames : payload.NamesItself) (hfits : payload.Fits) :
    Reads (readPayload payload.shape) (fields payload) payload.essence := by
  cases payload with
  | ack => exact Reads.pure _
  | value data => exact (Reads.text hfits).map Payload.value
  | flag isSet => exact (Reads.flag isSet).map Payload.flag
  | size n =>
    refine (Reads.word32 n.toNat_lt).then ?_
    simp only [Nat.toUInt32_eq, UInt32.ofNat_toNat]
    exact Reads.pure _
  | expiry seconds =>
    obtain ⟨hlow, hhigh⟩ := hfits
    have hword : (Request.secondsWord seconds : Int) = seconds := by
      simp only [Request.secondsWord]
      omega
    refine (Reads.word32 (by omega)).then ?_
    rw [hword]
    exact Reads.pure _
  | status report => exact (reads_status hnames hfits).map Payload.status

/-- A payload that is read has the shape that was asked for, and fits. -/
theorem yields_readPayload (shape : Shape) :
    Yields (readPayload shape) fun payload => payload.shape = shape ∧ payload.Fits := by
  cases shape with
  | ack => exact .pure ⟨rfl, trivial⟩
  | value => exact Yields.text.bind fun data hdata => .pure ⟨rfl, hdata⟩
  | flag => exact .of_next fun isSet => .pure ⟨rfl, trivial⟩
  | size => exact .of_next fun n => .pure ⟨rfl, trivial⟩
  | expiry =>
    refine Yields.word32.bind fun n hn => .pure ⟨rfl, Int.natCast_nonneg n, ?_⟩
    exact Int.ofNat_lt.2 hn
  | status =>
    have hcount : Yields readStatus fun report => report.policies.length < 2 ^ 32 := by
      -- Only the number of policies and their list matter among the fields.
      refine .of_next fun _ => .of_next fun _ => .of_next fun _ => .of_next fun _ =>
        .of_next fun _ => .of_next fun _ => .of_next fun _ => .of_next fun _ => .of_next fun _ =>
        .of_next fun _ => Yields.word32.bind fun count hcount => ?_
      refine (Yields.times _ count).bind fun policies hlength => .of_next fun _ =>
        .of_next fun _ => .of_next fun _ => .pure ?_
      exact hlength ▸ hcount
    exact hcount.bind fun report hreport => .pure ⟨rfl, hreport⟩

/-! ### Responses -/

variable {shape : Shape}

/-- A refusal whose code tells which side refused is read in the words of its code. -/
theorem reads_encodeRefusal {r : Refusal} (h : r.Announced) :
    Reads (read shape) (encodeRefusal r) (.refused (.ofCode r.origin r.code)) := by
  obtain ⟨origin, code, message⟩ := r
  cases origin with
  | cache =>
    have hcodes : Reads readRefusal [0, code] (.ofCode .cache code) :=
      (Reads.byte 0).bind ((Reads.byte code).map (Refusal.ofCode .cache))
    exact (Reads.flag false).bind (hcodes.map Response.refused)
  | server =>
    have hne : code ≠ 0 := fun hzero => h ⟨rfl, hzero⟩
    have hcode : Reads readRefusal [code] (.ofCode .server code) := by
      refine (Reads.byte code).then ?_
      rw [if_neg hne]
      exact Reads.pure _
    exact (Reads.flag false).bind (hcode.map Response.refused)

/-- A response that is read back from its frame, in front of whatever follows. -/
theorem reads_frame {r : Response} (hshape : r.HasShape shape) (hread : r.Readable) :
    Reads (read shape) (frame r) r.essence := by
  cases r with
  | refused refusal => exact reads_encodeRefusal hread
  | ok payload =>
    obtain rfl : payload.shape = shape := hshape
    exact (Reads.flag true).bind ((reads_fields hread.1 hread.2).map Response.ok)

/-- A response that is read can answer a command of the shape that was asked for, and its payload
fits. -/
theorem yields_read (shape : Shape) :
    Yields (read shape) fun r => r.HasShape shape ∧ ∀ payload, r = .ok payload → payload.Fits := by
  refine .of_next fun accepted => ?_
  cases accepted with
  | true =>
    refine (yields_readPayload shape).bind fun payload hpayload => .pure ⟨hpayload.1, ?_⟩
    intro payload' heq
    cases heq
    exact hpayload.2
  | false => exact .of_next fun refusal => .pure ⟨trivial, nofun⟩

/-- A server's code zero is read as the announcement of a cache, whose code is the byte that
follows. -/
theorem read_encodeRefusal_zero_cons (message : Bytes) (code : UInt8) (t : Bytes) :
    read shape (.start (encodeRefusal ⟨.server, 0, message⟩ ++ code :: t)) =
      .done (.refused (.ofCode .cache code)) ⟨3, t⟩ := by
  have hannounced : Refusal.Announced ⟨.cache, code, message⟩ := by
    rintro ⟨hserver, -⟩
    cases hserver
  exact (reads_encodeRefusal hannounced).start t

/-- With nothing behind it, the code of that cache is missing. -/
theorem read_encodeRefusal_zero (message : Bytes) :
    read shape (.start (encodeRefusal ⟨.server, 0, message⟩)) = .short 1 ⟨2, []⟩ := rfl

/-- A value is announced with the last 32 bits of its length. So its frame begins with the frame of
as many of its bytes as are announced. -/
theorem frame_value_eq (data : Bytes) :
    frame (.ok (.value data)) =
      frame (.ok (.value (data.take (data.length % 2 ^ 32)))) ++
        data.drop (data.length % 2 ^ 32) := by
  have hkept : (data.take (data.length % 2 ^ 32)).length = data.length % 2 ^ 32 :=
    List.length_take_of_le (Nat.mod_le _ _)
  have hwritten : Wire.word32 (data.length % 2 ^ 32) = Wire.word32 data.length :=
    littleEndian_mod 4 data.length
  simp only [frame, fields, Wire.text, hkept, hwritten, List.append_assoc, List.take_append_drop]

/-- A payload is read back from its frame, whatever follows, as one that agrees with it, if and
only if its length, its count or its lifetime fits a 32-bit number. -/
theorem ok_round_trip_iff {payload : Payload} (hnames : payload.NamesItself) (t : Bytes) :
    ∃ f, encode payload.shape (.ok payload) = .ok f ∧
      ((∃ back, payload.Agrees back ∧
        read payload.shape (.start (f ++ t)) = .done (.ok back) ⟨f.length, t⟩) ↔
          payload.Fits) := by
  refine ⟨frame (.ok payload), encode_eq_frame rfl, ?_, ?_⟩
  · rintro ⟨back, hagrees, hread⟩
    exact hagrees.fits ((yields_read _ _ _ _ hread).2 back rfl)
  · intro hfits
    have hframe : Reads (read payload.shape) (frame (.ok payload)) (.ok payload.essence) :=
      reads_frame rfl ⟨hnames, hfits⟩
    exact ⟨payload.essence, Payload.agrees_essence hnames, hframe.start t⟩

/-- A report with two policies, one of them with parameters, in front of another reply. -/
theorem ok_round_trip_iff_status :
    ∃ report : Status,
      report.policies =
        [{ kind := .lru }, ⟨.twoQ, ⟨0x3FD0000000000000⟩, ⟨0x3FE0000000000000⟩, .zero⟩] ∧
      (Payload.status report).NamesItself ∧
      ∃ f, encode .status (.ok (.status report)) = .ok f ∧
        ∃ back, (Payload.status report).Agrees back ∧
          read .status (.start (f ++ [0x21])) = .done (.ok back) ⟨f.length, [0x21]⟩ := by
  let report : Status := { maxSize := 1000, policies := [{ kind := .lru },
    ⟨.twoQ, ⟨0x3FD0000000000000⟩, ⟨0x3FE0000000000000⟩, .zero⟩], policy := { kind := .lru } }
  have hnames : (Payload.status report).NamesItself := by
    refine ⟨?_, trivial⟩
    simp [report, Policy.NamesItself]
    decide
  obtain ⟨f, hframe, hread⟩ := ok_round_trip_iff hnames [0x21]
  exact ⟨report, rfl, hnames, f, hframe, hread.2 (show 2 < 2 ^ 32 by decide)⟩

/-- A value of four gigabytes, which is announced with the length zero: its frame begins like that
of the empty value, and is read as that. -/
theorem ok_long_value_not_read_back :
    ∃ (data f : Bytes), data.length = 2 ^ 32 ∧ (Payload.value data).NamesItself ∧
      encode .value (.ok (.value data)) = .ok f ∧
      read .value (.start f) = .done (.ok (.value [])) ⟨5, data⟩ ∧
      ¬ ∃ back, (Payload.value data).Agrees back ∧
        read .value (.start f) = .done (.ok back) ⟨f.length, []⟩ := by
  obtain ⟨data, hlength⟩ : ∃ data : Bytes, data.length = 2 ^ 32 :=
    ⟨List.replicate (2 ^ 32) 97, List.length_replicate⟩
  have hframe : frame (.ok (.value data)) = frame (.ok (.value [])) ++ data := by
    have hcut := frame_value_eq data
    rwa [hlength, Nat.mod_self, List.take_zero, List.drop_zero] at hcut
  have hread : read .value (.start (frame (.ok (.value data)))) =
      .done (.ok (.value [])) ⟨5, data⟩ := by
    have hempty : Response.Readable (.ok (.value [])) := ⟨trivial, show 0 < 2 ^ 32 by decide⟩
    have hshape : Response.HasShape .value (.ok (.value [])) := rfl
    rw [hframe]
    exact (reads_frame hshape hempty).start data
  refine ⟨data, _, hlength, trivial, encode_eq_frame rfl, hread, ?_⟩
  rintro ⟨back, hagrees, hback⟩
  rw [hread] at hback
  -- Nothing is left over behind a value that is read back, but here all of it is.
  obtain rfl : data = [] := congrArg Cursor.rest (Outcome.done.inj hback).2
  cases hlength

/-- A refusal is read back from its frame, whatever its shape and whatever follows, from the same
side and with the same code, unless it is a server's with the code zero, which announces a
cache. -/
theorem refused_round_trip_iff (shape : Shape) (r : Refusal) (t : Bytes) :
    ∃ f, encode shape (.refused r) = .ok f ∧
      ((∃ back, back.origin = r.origin ∧ back.code = r.code ∧
        read shape (.start (f ++ t)) = .done (.refused back) ⟨f.length, t⟩) ↔
          ¬ (r.origin = .server ∧ r.code = 0)) := by
  refine ⟨encodeRefusal r, rfl, ?_, ?_⟩
  · rintro ⟨back, horigin, -, hread⟩ ⟨hserver, hzero⟩
    obtain ⟨origin, code, message⟩ := r
    obtain rfl : origin = .server := hserver
    obtain rfl : code = 0 := hzero
    cases t with
    | nil =>
      rw [List.append_nil, read_encodeRefusal_zero] at hread
      cases hread
    | cons next t =>
      -- The first byte of what follows is passed too.
      rw [read_encodeRefusal_zero_cons] at hread
      cases hread
  · intro hannounced
    exact ⟨.ofCode r.origin r.code, rfl, rfl, (reads_encodeRefusal hannounced).start t⟩

/-- A server's refusal with the code zero is not read back: alone it is not whole, and in front of
an acknowledgement it takes the byte of that. -/
theorem refused_serverZero_not_read_back :
    encode .ack (.refused (.ofCode .server 0)) = .ok [0x3F, 0] ∧
    (¬ ∃ back : Refusal, back.origin = .server ∧ back.code = 0 ∧
      read .ack (.start [0x3F, 0]) = .done (.refused back) ⟨2, []⟩) ∧
    read .ack (.start [0x3F, 0]) = .short 1 ⟨2, []⟩ ∧
    read .ack (.start ([0x3F, 0] ++ [0x21])) = .done (.refused (.ofCode .cache 0x21)) ⟨3, []⟩ := by
  refine ⟨rfl, ?_, rfl, rfl⟩
  rintro ⟨back, -, -, hread⟩
  cases hread

end Reply

end RemoteCache
