import Mathlib.Data.Int.ModEq
import RemoteCache.Network.Basic
import RemoteCache.Proofs.Wire.ReplyRoundTrip

/-!
# Requests and responses in pieces

A request is written and a response is read in as many pieces as the network likes, and a signal
may come before any of them. As long as no wait lasts too long and every byte comes in its place,
none of this shows: the whole request is written, and the whole response is read.

## Main definitions

* `Pause.Lasts` — how long waits last
* `Pause.Timely`, `Pause.Within` — waits that end before a limit, and within a timeout
* `Reply.IsFrame` — bytes that are one response and nothing more
* `Script.Takes` — what writing some bytes meets until all of them are taken
* `Script.Brings` — what reading meets until a frame is whole

## Main results

* `Network.wait_of_inTime` — a wait that ends in time leaves enough time for the next ones
* `Network.sendAll_of_takes` — the whole request is written
* `Script.brings_ofBytes` — a long segment may come in pieces
* `Network.receive_of_brings` — the response of the frame is read, and the bytes behind it are kept
-/

namespace RemoteCache

open Wire

/-! ### Time -/

theorem le_add_nanoseconds (now : Instant) (ns : Nat) : now ≤ now + ns :=
  Int.le_add_of_nonneg_right (Int.natCast_nonneg ns)

theorem wrapInstant_sub (x y : Int) : wrapInstant (wrapInstant x - y) = wrapInstant (x - y) :=
  Int.bmod_sub_bmod

/-- As long as the difference is not negative, nothing wraps around. -/
theorem wrapInstant_sub_of_le {x y : Int} (hy : 0 ≤ y) (h : y ≤ wrapInstant x) :
    wrapInstant (x - y) = wrapInstant x - y := by
  have hlt : x.bmod (2 ^ 64) < (2 ^ 64 + 1) / 2 := Int.bmod_lt (by decide)
  rw [← wrapInstant_sub]
  unfold wrapInstant at *
  exact Int.bmod_eq_of_le (by omega) (by omega)

namespace Deadline

variable {limit now : Instant}

theorem granted_nanoseconds (limit now : Instant) :
    ((granted limit now).nanoseconds : Int) = milliseconds (remaining limit now) := by
  simp [granted, Span.ofMilliseconds, milliseconds]

/-- It does not matter at which instant the deadline is set. -/
theorem granted_of_after {timeout : Int} (h : after now timeout = some limit) (elapsed : Int) :
    granted limit (elapsed + now) = granted (wrapInstant (milliseconds timeout)) elapsed := by
  unfold after at h
  split at h
  · cases h
  · cases h
    have hspan : wrapInstant (wrapInstant (now + wrapInstant (milliseconds timeout)) -
        (elapsed + now)) = wrapInstant (wrapInstant (milliseconds timeout) - elapsed) := by
      rw [wrapInstant_sub]
      congr 1
      omega
    rw [granted, remaining, hspan, granted, remaining]

theorem le_remaining_iff {ms : Nat} (h : 0 < ms) :
    ms ≤ remaining limit now ↔
      milliseconds ms ≤ wrapInstant (limit - now) ∧ ms ≤ longestWait := by
  have htdiv (x : Int) : ms ≤ (x.tdiv 1000000).toNat ↔ (ms : Int) * 1000000 ≤ x := by
    rw [Int.tdiv_eq_ediv]
    split
    · omega
    · rw [Int.sign_eq_one_of_pos (by decide)]
      omega
  rw [remaining, le_min_iff, htdiv, milliseconds]

/-- Rounding down to whole milliseconds loses less than one of them. -/
theorem le_granted {ns : Nat} (hfits : (ns : Int) + 999999 ≤ wrapInstant (limit - now))
    (hlong : (ns : Int) ≤ milliseconds longestWait) : ns ≤ (granted limit now).nanoseconds := by
  rcases Nat.eq_zero_or_pos ns with rfl | hpos
  · exact Nat.zero_le _
  · have hrounded : (ns + 999999) / 1000000 ≤ remaining limit now := by
      refine (le_remaining_iff (by omega)).2 ⟨?_, ?_⟩ <;> unfold milliseconds at * <;> omega
    have hgranted := granted_nanoseconds limit now
    unfold milliseconds at hgranted
    omega

end Deadline

namespace Pause

open Deadline

variable {limit now : Instant} {pauses more : List Pause} {ns rest : Nat}

/-- Waits through these pauses, one after another, end with their events so many nanoseconds later.
A signal makes a wait start anew. -/
inductive Lasts : List Pause → Nat → Prop
  | nil : Lasts [] 0
  | delay (span : Span) {more : List Pause} {rest : Nat} (h : Lasts more rest) :
    Lasts (.delay span :: more) (span.nanoseconds + rest)
  | signal {more : List Pause} {rest : Nat} (h : Lasts more rest) :
    Lasts (.failed .interrupted :: more) rest

/-- Waits through these pauses end with their events so many nanoseconds after an instant, before a
limit. It is not told how many waits they are: a wait that begins with any of the pauses is granted
all that is still to come. -/
inductive Timely (limit : Instant) : List Pause → Nat → Instant → Prop
  | nil (now : Instant) : Timely limit [] 0 now
  | delay (span : Span) {more : List Pause} {rest : Nat} {now : Instant}
      (hgranted : span.nanoseconds + rest ≤ (granted limit now).nanoseconds)
      (h : Timely limit more rest (now + span.nanoseconds)) :
    Timely limit (.delay span :: more) (span.nanoseconds + rest) now
  | signal {more : List Pause} {rest : Nat} {now : Instant} (h : Timely limit more rest now) :
    Timely limit (.failed .interrupted :: more) rest now

/-- Pauses that a timeout does not cut short. Without one, any pauses will do. -/
def Within (timeout : Int) (pauses : List Pause) : Prop :=
  0 < timeout → ∃ ns, Timely (wrapInstant (milliseconds timeout)) pauses ns 0

theorem Timely.le_granted (h : Timely limit pauses ns now) :
    ns ≤ (granted limit now).nanoseconds := by
  induction h with
  | nil now => exact Nat.zero_le _
  | delay span hgranted h ih => exact hgranted
  | signal h ih => exact ih

/-- Only the time that is left matters. -/
theorem Timely.shift {limit' : Instant} (h : Timely limit pauses ns now) (start : Instant)
    (hgranted : ∀ elapsed, granted limit' (elapsed + start) = granted limit elapsed) :
    Timely limit' pauses ns (now + start) := by
  induction h with
  | nil now => exact .nil _
  | delay span hspan h ih =>
    refine .delay span (hspan.trans_eq (congrArg _ (hgranted _).symm)) ?_
    rwa [Int.add_right_comm]
  | signal h ih => exact .signal ih

/-- Delays are waited for in time, in whatever portions they come, if they leave the part of a
millisecond that rounding may lose. -/
theorem Lasts.timely (h : Lasts pauses ns) (hfits : (ns : Int) + 999999 ≤ wrapInstant (limit - now))
    (hlong : (ns : Int) ≤ milliseconds longestWait) : Timely limit pauses ns now := by
  induction h generalizing now with
  | nil => exact .nil now
  | delay span h ih =>
    refine .delay span (Deadline.le_granted hfits hlong) (ih ?_ ?_)
    · rw [← Int.sub_sub, wrapInstant_sub_of_le (by omega) (by omega)]
      omega
    · omega
  | signal h ih => exact .signal (ih hfits hlong)

/-- A wait that lasts no longer than it may ends with its event, and leaves the others enough
time. -/
theorem awaitUntil_of_timely {left : Nat} (h : Timely limit (pauses ++ more) ns now)
    (hleft : ns ≤ left) :
    ∃ time rest, awaitUntil limit pauses left now = (.ready, time) ∧
      Timely limit more rest time := by
  induction pauses generalizing ns left now with
  | nil => exact ⟨now, ns, rfl, h⟩
  | cons pause pauses ih =>
    cases h with
    | delay span hgranted h =>
      obtain ⟨time, rest, hawait, hrest⟩ := ih h (Nat.le_sub_of_add_le' hleft)
      refine ⟨time, rest, ?_, hrest⟩
      rw [awaitUntil, if_neg (by omega), hawait]
    | signal h =>
      obtain ⟨time, rest, hawait, hrest⟩ := ih h h.le_granted
      refine ⟨time, rest, ?_, hrest⟩
      rw [awaitUntil, if_pos rfl, hawait]

end Pause

namespace Network

variable {n n' : Network} {deadline : Deadline} {pauses more : List Pause} {d : Nat}

/-- Waits through these pauses end before the deadline, if there is one. -/
def InTime (deadline : Deadline) (pauses : List Pause) (n : Network) : Prop :=
  ∀ limit, deadline = some limit → ∃ ns, Pause.Timely limit pauses ns n.clock

theorem InTime.congr (h : n.InTime deadline pauses) (hclock : n'.clock = n.clock) :
    n'.InTime deadline pauses := by
  unfold InTime
  rwa [hclock]

theorem inTime_of_within {timeout : Int} (h : Pause.Within timeout pauses) :
    n.InTime (Deadline.after n.clock timeout) pauses := by
  intro limit hlimit
  have hpos : 0 < timeout := by
    by_contra hnone
    rw [Deadline.after, if_pos (Int.not_lt.1 hnone)] at hlimit
    cases hlimit
  obtain ⟨ns, htimely⟩ := h hpos
  have hshifted := htimely.shift n.clock (Deadline.granted_of_after hlimit)
  rw [Int.zero_add] at hshifted
  exact ⟨ns, hshifted⟩

/-- A wait that ends in time leaves enough time for the next ones. -/
theorem wait_of_inTime (h : n.InTime deadline (pauses ++ more)) (d : Nat) :
    ∃ n', n.wait deadline d pauses = (.ready, n') ∧ n'.InTime deadline more := by
  cases deadline with
  | none => exact ⟨_, rfl, nofun⟩
  | some limit =>
    obtain ⟨ns, htimely⟩ := h limit rfl
    obtain ⟨time, rest, hawait, hmore⟩ := Pause.awaitUntil_of_timely htimely htimely.le_granted
    refine ⟨({ n with clock := time }).record (.use d), ?_, ?_⟩
    · unfold wait Pause.await
      dsimp only
      rw [hawait]
      rfl
    · rintro _ ⟨⟩
      exact ⟨rest, hmore⟩

end Network

/-! ### Writing -/

namespace Script

/-- Writing some bytes meets the events of a script until all of them are taken: the waits last
through some pauses, and a rest of the script is left. A call takes at least one byte, or is
repeated after a signal; after the last event everything is taken. -/
inductive Takes : Bytes → Script Departure → List Pause → Script Departure → Prop
  | nil (script : Script Departure) : Takes [] script [] script
  | dry (b : Bytes) : Takes b [] [] []
  | all (pauses : List Pause) (script : Script Departure) {b : Bytes} (hb : b ≠ []) :
    Takes b (⟨pauses, .accept none⟩ :: script) pauses script
  | part (pauses : List Pause) {limit : Nat} (hlimit : limit ≠ 0) {b : Bytes} (hb : b ≠ [])
      {script rest : Script Departure} {more : List Pause}
      (h : Takes (b.drop limit) script more rest) :
    Takes b (⟨pauses, .accept (some limit)⟩ :: script) (pauses ++ more) rest
  | signal (pauses : List Pause) {b : Bytes} (hb : b ≠ []) {script rest : Script Departure}
      {more : List Pause} (h : Takes b script more rest) :
    Takes b (⟨pauses, .failed .interrupted⟩ :: script) (pauses ++ more) rest

end Script

namespace Network

variable {n : Network} {deadline : Deadline} {socket : Socket}

theorem deliver_of_not_hosted (hpeer : socket.isHosted = false) (b : Bytes) :
    n.deliver socket b = (.ok (), n.record (.send socket.descriptor b)) := by
  unfold deliver isGone
  rw [hpeer]
  rfl

/-! One call at a time: after a wait that ends with the event, a call takes all, takes some, or is
repeated. -/

section Calls

variable {n' : Network} {pauses : List Pause} {script : Script Departure} {b : Bytes}

theorem sendAll_all (hpeer : socket.isHosted = false) (hb : b ≠ [])
    (hwait : n.wait deadline socket.descriptor pauses = (.ready, n')) :
    n.sendAll deadline socket (⟨pauses, .accept none⟩ :: script) b =
      (.ok script, n'.record (.send socket.descriptor b)) := by
  obtain ⟨c, b, rfl⟩ := List.exists_cons_of_ne_nil hb
  rw [sendAll, hwait]
  dsimp only
  rw [deliver_of_not_hosted hpeer]
  rfl

theorem sendAll_part (hpeer : socket.isHosted = false) (hb : b ≠ []) {limit : Nat}
    (hlimit : limit ≠ 0) (hwait : n.wait deadline socket.descriptor pauses = (.ready, n')) :
    n.sendAll deadline socket (⟨pauses, .accept (some limit)⟩ :: script) b =
      (n'.record (.send socket.descriptor (b.take limit))).sendAll deadline socket script
        (b.drop limit) := by
  obtain ⟨c, b, rfl⟩ := List.exists_cons_of_ne_nil hb
  rw [sendAll, hwait]
  dsimp only
  rw [deliver_of_not_hosted hpeer]
  dsimp only
  rw [if_neg hlimit]

theorem sendAll_signal (hb : b ≠ [])
    (hwait : n.wait deadline socket.descriptor pauses = (.ready, n')) :
    n.sendAll deadline socket (⟨pauses, .failed .interrupted⟩ :: script) b =
      (n'.record (.send socket.descriptor [])).sendAll deadline socket script b := by
  obtain ⟨c, b, rfl⟩ := List.exists_cons_of_ne_nil hb
  rw [sendAll, hwait]
  dsimp only
  rw [if_pos rfl]

end Calls

/-- The whole request is written. -/
theorem sendAll_of_takes {b : Bytes} {script rest : Script Departure} {pauses more : List Pause}
    (h : Script.Takes b script pauses rest) (hpeer : socket.isHosted = false)
    (htime : n.InTime deadline (pauses ++ more)) :
    ∃ n', n.sendAll deadline socket script b = (.ok rest, n') ∧ n'.InTime deadline more := by
  induction h generalizing n with
  | nil script => exact ⟨n, by rw [sendAll], htime⟩
  | dry b =>
    cases b with
    | nil => exact ⟨n, by rw [sendAll], htime⟩
    | cons c b =>
      -- No event is left to wait for, and the last call takes everything.
      have hnone : n.InTime deadline ([] ++ more) := htime
      obtain ⟨n', hwait, hlater⟩ := wait_of_inTime hnone socket.descriptor
      refine ⟨n'.record (.send socket.descriptor (c :: b)), ?_, hlater⟩
      rw [sendAll, hwait]
      dsimp only
      rw [deliver_of_not_hosted hpeer]
      rfl
  | all pauses script hb =>
    obtain ⟨n', hwait, hlater⟩ := wait_of_inTime htime socket.descriptor
    exact ⟨_, sendAll_all hpeer hb hwait, hlater⟩
  | @part pauses limit hlimit b hb script rest _ h ih =>
    rw [List.append_assoc] at htime
    obtain ⟨n', hwait, hlater⟩ := wait_of_inTime htime socket.descriptor
    rw [sendAll_part hpeer hb hlimit hwait]
    exact ih hlater
  | signal pauses hb h ih =>
    rw [List.append_assoc] at htime
    obtain ⟨n', hwait, hlater⟩ := wait_of_inTime htime socket.descriptor
    rw [sendAll_signal hb hwait]
    exact ih hlater

end Network

/-! ### Reading -/

namespace Reply

variable {shape : Shape} {r : Response} {f : Bytes}

/-- Bytes that are one response of the given shape, and nothing more. -/
def IsFrame (shape : Shape) (r : Response) (f : Bytes) : Prop :=
  read shape (.start f) = .done r ⟨f.length, []⟩

/-- A response that is read back is written as a frame. -/
theorem isFrame_of_encode (hshape : r.HasShape shape) (hread : r.Readable)
    (h : encode shape r = .ok f) : IsFrame shape r.essence f := by
  obtain rfl : frame r = f := by
    rw [encode_eq_frame hshape] at h
    cases h
    rfl
  have hback := (reads_frame hshape hread).start []
  rwa [List.append_nil] at hback

theorem IsFrame.read_append (h : IsFrame shape r f) (extra : Bytes) :
    read shape (.start (f ++ extra)) = .done r ⟨f.length, extra⟩ :=
  (stable_read shape).done_extend h extra

/-- In front of its end, a frame is not whole. -/
theorem IsFrame.short {p q : Bytes} (h : IsFrame shape r (p ++ q)) (hq : q ≠ []) :
    ∃ missing c, read shape (.start p) = .short missing c := by
  refine Reader.Stable.short_of_prefix (stable_read shape) (List.prefix_append p q) h ?_
  rw [List.length_append]
  exact Nat.lt_add_of_pos_right (List.length_pos_iff.2 hq)

end Reply

namespace Script

/-- Reading meets the events of a script until a frame is whole: segments that are not empty, and
signals. The segment that makes the frame whole may bring bytes beyond it. -/
inductive Brings : Bytes → Bytes → Script Arrival → Prop
  | last (pauses : List Pause) {b : Bytes} (hb : b ≠ []) (extra : Bytes) :
    Brings b extra [⟨pauses, .segment (b ++ extra)⟩]
  | segment (pauses : List Pause) {b : Bytes} (hb : b ≠ []) {rest extra : Bytes}
      {script : Script Arrival} (h : Brings rest extra script) :
    Brings (b ++ rest) extra (⟨pauses, .segment b⟩ :: script)
  | signal (pauses : List Pause) {frame extra : Bytes} {script : Script Arrival}
      (h : Brings frame extra script) :
    Brings frame extra (⟨pauses, .failed .interrupted⟩ :: script)

theorem Brings.ne_nil {frame extra : Bytes} {script : Script Arrival}
    (h : Brings frame extra script) : frame ≠ [] := by
  induction h with
  | last pauses hb extra => exact hb
  | segment pauses hb h ih => exact List.append_ne_nil_of_left_ne_nil hb _
  | signal pauses h ih => exact ih

theorem brings_behind_segments {segments : List Bytes} (hne : segments ≠ [])
    (h : ∀ b ∈ segments, b ≠ []) (pauses : List Pause) :
    Brings segments.flatten [] (behind pauses (segments.map .segment)) := by
  induction segments generalizing pauses with
  | nil => exact absurd rfl hne
  | cons b segments ih =>
    obtain ⟨hb, hmore⟩ := List.forall_mem_cons.1 h
    cases segments with
    | nil =>
      have hlast : Brings b [] [⟨pauses, .segment (b ++ [])⟩] := .last pauses hb []
      rw [List.append_nil] at hlast
      rwa [List.flatten_singleton]
    | cons c segments => exact .segment pauses hb (ih nofun hmore [])

/-- However long a segment is, it comes whole, though perhaps in pieces. -/
theorem brings_ofBytes {b : Bytes} (hb : b ≠ []) (pauses : List Pause) :
    Brings b [] (behind pauses (Arrival.ofBytes b)) := by
  have hflatten : (Bytes.pieces Arrival.chunkSize b).flatten = b := Bytes.flatten_piecesOf _ b
  have hpieces : Bytes.pieces Arrival.chunkSize b ≠ [] := by
    intro hnone
    rw [hnone] at hflatten
    exact hb hflatten.symm
  have hsome := brings_behind_segments hpieces (fun piece hpiece =>
    List.length_pos_iff.1 (Bytes.length_le_of_mem_piecesOf hpiece).1) pauses
  rw [hflatten] at hsome
  rwa [Arrival.ofBytes, if_neg (by simpa using hb)]

end Script

namespace Network

variable {n : Network} {deadline : Deadline} {shape : Shape} {r : Response}

theorem settle_of_not_hosted {socket : Socket} (hpeer : socket.isHosted = false) :
    n.settle deadline socket = (socket, n) := by
  unfold settle
  rw [hpeer]

theorem receive_of_done {pending : Bytes} {c : Cursor} {d : Nat} {script : Script Arrival}
    (h : Reply.read shape (.start pending) = .done r c) :
    n.receive deadline shape d script pending = (.ok ⟨r, c.rest, script⟩, n) := by
  rw [receive.eq_def]
  dsimp only
  rw [h]

section Calls

variable {n' : Network} {pauses : List Pause} {script : Script Arrival} {pending : Bytes}
  {missing : Nat} {c : Cursor} {d : Nat}

theorem receive_segment (hshort : Reply.read shape (.start pending) = .short missing c)
    (hwait : n.wait deadline d pauses = (.ready, n')) {b : Bytes} (hb : b ≠ []) :
    n.receive deadline shape d (⟨pauses, .segment b⟩ :: script) pending =
      (n'.record (.receive d b)).receive deadline shape d script (pending ++ b) := by
  rw [receive, hshort]
  dsimp only
  rw [hwait]
  dsimp only
  rw [if_neg (by simpa using hb)]

theorem receive_signal (hshort : Reply.read shape (.start pending) = .short missing c)
    (hwait : n.wait deadline d pauses = (.ready, n')) :
    n.receive deadline shape d (⟨pauses, .failed .interrupted⟩ :: script) pending =
      (n'.record (.receive d [])).receive deadline shape d script pending := by
  rw [receive, hshort]
  dsimp only
  rw [hwait]
  dsimp only
  rw [if_pos rfl]

end Calls

/-- The response of the frame is read, and the bytes behind it are kept. -/
theorem receive_of_brings {pending frame extra : Bytes} {script : Script Arrival}
    (h : Script.Brings frame extra script) (hframe : Reply.IsFrame shape r (pending ++ frame))
    (htime : n.InTime deadline (script.flatMap Timed.pauses)) (d : Nat) (tail : Script Arrival) :
    ∃ n', n.receive deadline shape d (script ++ tail) pending = (.ok ⟨r, extra, tail⟩, n') := by
  induction h generalizing pending n with
  | last pauses hb extra =>
    obtain ⟨missing, c, hshort⟩ := hframe.short hb
    obtain ⟨n', hwait, -⟩ := wait_of_inTime htime d
    have hsome := List.append_ne_nil_of_left_ne_nil hb extra
    rw [List.singleton_append, receive_segment hshort hwait hsome, ← List.append_assoc,
      receive_of_done (hframe.read_append extra)]
    exact ⟨_, rfl⟩
  | @segment pauses b hb rest extra script h ih =>
    have hsome := List.append_ne_nil_of_left_ne_nil hb rest
    obtain ⟨missing, c, hshort⟩ := hframe.short hsome
    obtain ⟨n', hwait, hlater⟩ := wait_of_inTime htime d
    rw [← List.append_assoc] at hframe
    rw [List.cons_append, receive_segment hshort hwait hb]
    exact ih hframe hlater
  | signal pauses h ih =>
    obtain ⟨missing, c, hshort⟩ := hframe.short h.ne_nil
    obtain ⟨n', hwait, hlater⟩ := wait_of_inTime htime d
    rw [List.cons_append, receive_signal hshort hwait]
    exact ih hframe hlater

end Network

end RemoteCache
