import RemoteCache.Proofs.Wire.ReplyRoundTrip

/-!
# Frames are read to their end

A frame that is not read back may still be read as something else, or be found to be no frame at
all. But where its lengths and counts fit their fields, nothing is read of it that ends within the
frame, and nothing that reaches beyond it: a reader of replies takes exactly the bytes of one reply,
whatever it makes of them.

## Main definitions

* `Reader.Exhausts` — whatever is read where some bytes stand takes exactly these bytes
* `Response.Compact` — a response whose lengths and counts fit their fields

## Main results

* `Reader.Exhausts.eq_of_prefix` — no beginning of such bytes is read, except all of them
* `Reply.exhausts_frame` — what is read where a compact response stands takes exactly its frame
-/

namespace RemoteCache

open Wire

namespace Wire.Reader

variable {α β : Type} {r : Reader α} {f f' p : Bytes} {a : α} {c : Cursor}

/-- Whatever a reader makes of some bytes, it takes exactly them: what follows is left. -/
def Exhausts (r : Reader α) (f : Bytes) : Prop :=
  ∀ offset t a c, r ⟨offset, f ++ t⟩ = .done a c → c.rest = t

theorem Reads.exhausts (h : Reads r f a) : Exhausts r f := by
  intro offset t a' c hdone
  rw [h offset t] at hdone
  cases hdone
  rfl

theorem Exhausts.pure (a : α) : Exhausts (Reader.pure a) [] := (Reads.pure a).exhausts

theorem Exhausts.fail (fault : Fault) : Exhausts (Reader.fail fault : Reader α) f :=
  fun _ _ _ _ hdone => nomatch hdone

/-- A field that is read as a known value, and then others that may depend on it. -/
theorem Reads.bind_exhausts {next : α → Reader β} (hr : Reads r f a)
    (hnext : Exhausts (next a) f') : Exhausts (Reader.bind r next) (f ++ f') := by
  intro offset t b c hdone
  obtain ⟨a', c', hfirst, hsecond⟩ := bind_eq_done_iff.1 hdone
  rw [List.append_assoc, hr] at hfirst
  cases hfirst
  exact hnext _ t b c hsecond

/-- Whatever the first field is read as, the second one begins behind it. -/
theorem Exhausts.bind {next : α → Reader β} (hr : Exhausts r f)
    (hnext : ∀ a, Exhausts (next a) f') : Exhausts (Reader.bind r next) (f ++ f') := by
  intro offset t b c hdone
  obtain ⟨a, ⟨offset', rest⟩, hfirst, hsecond⟩ := bind_eq_done_iff.1 hdone
  rw [List.append_assoc] at hfirst
  obtain rfl : rest = f' ++ t := hr _ _ _ _ hfirst
  exact hnext a offset' t b c hsecond

theorem Exhausts.then {next : α → Reader β} (hr : Exhausts r f)
    (hnext : ∀ a, Exhausts (next a) []) : Exhausts (Reader.bind r next) f := by
  have hboth := hr.bind hnext
  rwa [List.append_nil] at hboth

theorem Exhausts.map (hr : Exhausts r f) (g : α → β) :
    Exhausts (Reader.bind r fun a => Reader.pure (g a)) f :=
  hr.then fun a => .pure (g a)

theorem Exhausts.times {write : β → Bytes} {items : List β}
    (h : ∀ b ∈ items, Exhausts r (write b)) :
    Exhausts (Reader.times r items.length) (items.flatMap write) := by
  induction items with
  | nil => exact .pure []
  | cons b items ih =>
    have hrest := ih fun b' hb' => h b' (List.mem_cons_of_mem b hb')
    exact (h b List.mem_cons_self).bind fun a => hrest.map fun more => a :: more

/-- A policy takes the bytes of its name, whichever policy that stands for. -/
theorem Exhausts.policy (p : Policy) : Exhausts Reader.policy (Wire.policy p) := by
  refine (Reads.text p.length_text_lt).exhausts.then fun name => ?_
  split
  · exact .pure _
  · exact .fail _

/-- No beginning of such bytes is read as anything, except all of them. -/
theorem Exhausts.eq_of_prefix (hstable : Stable r) (h : Exhausts r f) (hp : p <+: f)
    (hdone : r (.start p) = .done a c) : p = f ∧ c.rest = [] := by
  obtain ⟨q, rfl⟩ := hp
  have hwhole := hstable.done_extend hdone q
  rw [Cursor.extend_start, Cursor.start, ← List.append_nil (p ++ q)] at hwhole
  obtain ⟨hrest, rfl⟩ := List.append_eq_nil_iff.1 (h _ _ _ _ hwhole)
  exact ⟨(List.append_nil p).symm, hrest⟩

end Wire.Reader

/-- A response whose lengths and counts fit their fields. A lifetime takes the bytes of its field
even where it does not fit. -/
def Response.Compact : Response → Prop
  | .ok (.value data) => data.length < 2 ^ 32
  | .ok (.status report) => report.policies.length < 2 ^ 32
  | .ok _ => True
  | .refused refusal => refusal.Announced

namespace Reply

open Wire.Reader

theorem exhausts_status {s : Status} (hcount : s.policies.length < 2 ^ 32) :
    Exhausts readStatus (encodeStatus s) := by
  have hpolicies : Exhausts (times Reader.policy s.policies.length)
      (s.policies.flatMap Wire.policy) := .times fun p _ => .policy p
  have h64 (n : UInt64) : Reads Reader.word64 (Wire.word64 n.toNat) n.toNat :=
    Reads.word64 n.toNat_lt
  unfold encodeStatus
  simp only [List.append_assoc]
  -- Only the number of policies decides how much is read.
  refine (Reads.word32 s.pid.toNat_lt).bind_exhausts <| (h64 s.maxSize).bind_exhausts <|
    (h64 s.usedSize).bind_exhausts <| (h64 s.numObjects).bind_exhausts <|
    (h64 s.rss).bind_exhausts <| (h64 s.hwm).bind_exhausts <| (h64 s.totalGets).bind_exhausts <|
    (h64 s.totalSets).bind_exhausts <| (h64 s.totalDels).bind_exhausts <|
    (Reads.binary64 s.missRatio).bind_exhausts <| (Reads.word32 hcount).bind_exhausts <|
    hpolicies.bind fun _ => (Exhausts.policy s.policy).bind fun _ =>
    (Reads.flag s.isAutoPolicy).bind_exhausts <| (h64 s.uptime).exhausts.map _

theorem exhausts_fields {payload : Payload} (h : (Response.ok payload).Compact) :
    Exhausts (readPayload payload.shape) (fields payload) := by
  cases payload with
  | ack => exact .pure _
  | value data => exact (Reads.text h).exhausts.map _
  | flag isSet => exact (Reads.flag isSet).exhausts.map _
  | size n => exact (Reads.word32 n.toNat_lt).exhausts.map _
  | expiry seconds =>
    have hword : Request.secondsWord seconds < 2 ^ 32 := by
      unfold Request.secondsWord
      omega
    exact (Reads.word32 hword).exhausts.map _
  | status report => exact (exhausts_status h).map _

/-- What is read where a compact response stands takes exactly its frame. -/
theorem exhausts_frame {shape : Shape} {r : Response} (hshape : r.HasShape shape)
    (hcompact : r.Compact) : Exhausts (read shape) (frame r) := by
  cases r with
  | refused refusal => exact (reads_encodeRefusal hcompact).exhausts
  | ok payload =>
    obtain rfl : payload.shape = shape := hshape
    exact (Reads.flag true).bind_exhausts ((exhausts_fields hcompact).map Response.ok)

/-- No reply begins with the byte zero. -/
theorem read_ne_done_of_prefix {shape : Shape} {p : Bytes} (hp : p <+: [0]) (r : Response)
    (c : Cursor) : read shape (.start p) ≠ .done r c := by
  rcases List.prefix_cons_iff.1 hp with rfl | ⟨q, rfl, hq⟩
  · exact nofun
  · obtain rfl := List.prefix_nil.1 hq
    exact nofun

end Reply

end RemoteCache
