import RemoteCache.Proofs.Network.Waits
import RemoteCache.Proofs.Session.Streams

/-!
# Requests with a timeout and without one

A timeout that is longer than all the delays on the way of a request makes no difference to it. The
call returns the same response or fails in the same way, the same bytes are written, and the
connection is left in the same state, with the same bytes left over. Only the record of the calls
shows that there were waits.

How much longer it has to be, the waits decide. Each is given the whole milliseconds that are left
when it begins, so part of a millisecond may be lost.

## Main definitions

* `Session.untimed` — a session without its timeout and without its record of waits

## Main results

* `Session.sendRequest_untimed`, `Session.awaitResponse_untimed` — the parts of a request
* `Session.roundTrip_untimed` — a request in time before its deadline
* `Session.roundTrip_alike` — a long timeout comes to the same as none
* `Session.roundTrip_not_alike` — one that is only a little longer than the delays does not
-/

namespace RemoteCache

open Deadline

/-- A timeout that fits into one wait leaves time for all delays that are shorter by the part of a
millisecond that rounding may lose. -/
theorem Pause.Lasts.within {pauses : List Pause} {ns : Nat} {timeout : Int}
    (h : Lasts pauses ns) (hfits : (ns : Int) + 999999 ≤ milliseconds timeout)
    (hshort : timeout ≤ longestWait) : Within timeout pauses := by
  intro hpos
  have hlongest : longestWait = 2 ^ 31 - 1 := rfl
  have hwrap : wrapInstant (milliseconds timeout) = milliseconds timeout := by
    refine wrapInstant_of_bounds ?_ ?_ <;> unfold milliseconds <;> omega
  refine ⟨ns, h.timely ?_ ?_⟩
  · rwa [hwrap, Int.sub_zero, hwrap]
  · unfold milliseconds at *
    omega

namespace Session

open Network

variable {α β : Type} {s t : Session} {command : Command} {socket : Socket} {pending frame : Bytes}
  {deadline : Deadline} {ns : Nat}

/-! ### Sessions without time -/

/-- A session without its timeout and without its record of waits. -/
def untimed (s : Session) : Session :=
  { s with connection := { s.connection with timeout := 0 }, network := s.network.erase }

/-- The end of a call, of which the session is left without time. -/
def untimedEnd : EStateM.Result Failure Session α → EStateM.Result Failure Session α
  | .ok x s => .ok x s.untimed
  | .error failure s => .error failure s.untimed

theorem untimed_addNote (s : Session) (level : Level) (message : Bytes) :
    (s.addNote level message).untimed = s.untimed.addNote level message := by
  unfold addNote
  rw [show s.untimed.journal = s.journal from rfl]
  split <;> rfl

theorem untimed_breakWith (s : Session) (reason : Breakdown) :
    (s.breakWith reason).untimed = s.untimed.breakWith reason := by
  unfold breakWith
  rw [untimed_addNote]
  have hdrop : (s.dropSocket.setLink (.down reason)).untimed =
      s.untimed.dropSocket.setLink (.down reason) := by
    unfold dropSocket
    rw [show s.untimed.connection.link = s.connection.link from rfl]
    split <;> rfl
  rw [hdrop]
  rfl

theorem untimedEnd_bind {a b : Action α} {next next' : α → Action β}
    (h : untimedEnd (a s) = b t)
    (hnext : ∀ x s', a s = .ok x s' → untimedEnd (next x s') = next' x s'.untimed) :
    untimedEnd ((a >>= next) s) = (b >>= next') t := by
  change untimedEnd (EStateM.bind a next s) = EStateM.bind b next' t
  unfold EStateM.bind
  rw [← h]
  cases hend : a s with
  | ok x s' => exact hnext x s' hend
  | error failure s' => rfl

/-! ### The parts of a request -/

/-- Writing a request in time comes to the same as writing it without a deadline. -/
theorem sendRequest_untimed {more : List Pause} (hlink : s.connection.link = .up socket pending)
    (htime : s.network.InTime deadline
      (socket.departures.pausesWriting (s.network.isGone socket) frame ++ more)) :
    untimedEnd (sendRequest frame deadline s) = sendRequest frame none s.untimed := by
  obtain ⟨n', hsend, herase, -⟩ := sendAll_erase htime
  rw [sendRequest_eq hlink, sendRequest_eq (s := s.untimed) hlink, hsend,
    show s.untimed.network = s.network.erase from rfl]
  rcases hfree : s.network.erase.sendAll none socket socket.departures frame with
    ⟨result, network⟩
  rw [hfree] at herase
  obtain rfl : n'.erase = network := herase
  cases result with
  | ok departures => rfl
  | error reason =>
    dsimp only [untimedEnd]
    rw [untimed_breakWith]
    rfl

/-- Reading a response in time comes to the same as reading it without a deadline. -/
theorem awaitResponse_untimed {shape : Shape} (hlink : s.connection.link = .up socket pending)
    (hready : ∀ service, socket.isHosted = true → s.network.service = some service →
      outlasts deadline s.network.clock service = false)
    (htime : s.network.InTime deadline
      ((s.network.erase.settle none socket).1.arrivals.pausesReading shape pending)) :
    untimedEnd (awaitResponse shape deadline s) = awaitResponse shape none s.untimed := by
  have hsettle := settle_erase hready
  rw [hsettle] at htime
  obtain ⟨n', hreceive, herase⟩ := receive_erase
    (htime.congr (clock_settle s.network deadline socket))
    (s.network.settle deadline socket).1.descriptor
  rw [awaitResponse_eq hlink, awaitResponse_eq (s := s.untimed) hlink, hreceive]
  rw [show s.untimed.network.settle none socket = _ from hsettle]
  dsimp only
  rcases hfree : (s.network.settle deadline socket).2.erase.receive none shape
    (s.network.settle deadline socket).1.descriptor
    (s.network.settle deadline socket).1.arrivals pending with ⟨result, network⟩
  rw [hfree] at herase
  obtain rfl : n'.erase = network := herase
  cases result with
  | ok received => rfl
  | error reason =>
    dsimp only [untimedEnd]
    rw [untimed_breakWith]
    rfl

/-! ### Requests -/

theorem roundTrip_eq (hvalid : command.Valid) (hlink : s.connection.link = .up socket []) :
    roundTrip command s =
      (sendRequest (Request.encode command)
          (Deadline.after s.network.clock s.connection.timeout) >>= fun _ =>
        awaitResponse command.shape (Deadline.after s.network.clock s.connection.timeout))
        (noteRequest command s) := by
  unfold roundTrip
  rw [get_bind, hlink]
  dsimp only
  rw [Request.frame_eq_ok hvalid]
  dsimp only
  rw [if_neg (fun hne => hne rfl)]
  rfl

theorem untimed_noteRequest (command : Command) (s : Session) :
    (noteRequest command s).untimed = noteRequest command s.untimed :=
  untimed_addNote s _ _

/-- A request and its response in time before a deadline come to the same as without one. -/
theorem exchange_untimed (hlink : s.connection.link = .up socket [])
    (hdelays : s.network.Delays command socket ns)
    (htime : ∀ pauses spent, Pause.Lasts pauses spent → spent ≤ ns →
      s.network.InTime deadline pauses) :
    untimedEnd ((sendRequest (Request.encode command) deadline >>= fun _ =>
        awaitResponse command.shape deadline) s) =
      (sendRequest (Request.encode command) none >>= fun _ =>
        awaitResponse command.shape none) s.untimed := by
  have hlasts := htime _ _ hdelays.lasts le_rfl
  obtain ⟨n, hsend, herase, hmore⟩ := sendAll_in_time hlasts
  refine untimedEnd_bind (sendRequest_untimed hlink hlasts) fun u sent hsent => ?_
  rw [sendRequest_eq hlink, hsend] at hsent
  unfold pausesHearing at hmore
  rcases hasked : s.network.asked command socket with ⟨result, written⟩
  rw [hasked] at hsent herase hmore
  cases result with
  | error reason => cases hsent
  | ok departures =>
    obtain rfl := (EStateM.Result.ok.inj hsent).2
    -- The network is as it would be without a deadline, but for the waits.
    have hclock : n.clock = written.clock := (congrArg Network.clock herase :)
    have hservice : n.service = written.service := (congrArg Network.service herase :)
    have hsettle : written.erase.settle none socket =
        ((written.settle none socket).1, (written.settle none socket).2.erase) :=
      settle_erase fun _ _ _ => rfl
    have hup : (({ s with network := n } : Session).setLink
        (.up { socket with departures } [])).connection.link = .up { socket with departures } [] :=
      rfl
    refine awaitResponse_untimed hup ?_ ?_
    · rintro service hhosted hthere
      obtain ⟨spent, busy, hspent, hle, hready⟩ := hdelays.ready service hhosted
        (by rw [hasked]; exact hservice.symm.trans hthere)
      -- What the server is busy for fits into what writing leaves of the time.
      obtain ⟨n₁, hsend₁, -, hleft⟩ :=
        sendAll_in_time (htime _ _ (hspent.append (.delay ⟨busy⟩ .nil)) hle)
      obtain rfl : n = n₁ := (Prod.ext_iff.1 (hsend.symm.trans hsend₁)).2
      rw [hasked, ← hclock] at hready
      exact outlasts_eq_false hleft hready
    · change n.InTime deadline
        ((n.erase.settle none { socket with departures }).1.arrivals.pausesReading command.shape [])
      rw [arrivals_settle, show n.erase = written.erase from herase, hsettle]
      exact hmore

/-- A request in time before its deadline, if it has one, comes to the same as one without. -/
theorem roundTrip_untimed (hvalid : command.Valid) (hlink : s.connection.link = .up socket [])
    (hdelays : s.network.Delays command socket ns)
    (hlong : 0 < s.connection.timeout →
      (ns : Int) + 999999 ≤ milliseconds s.connection.timeout ∧
        s.connection.timeout ≤ longestWait) :
    untimedEnd (roundTrip command s) = roundTrip command s.untimed := by
  have hnone : Deadline.after s.untimed.network.clock s.untimed.connection.timeout = none := rfl
  have hlink' : (noteRequest command s).connection.link = .up socket [] := by
    rw [noteRequest_connection, hlink]
  have hdelays' : (noteRequest command s).network.Delays command socket ns := by
    rwa [noteRequest_network]
  rw [roundTrip_eq hvalid hlink, roundTrip_eq (s := s.untimed) hvalid hlink, hnone,
    ← untimed_noteRequest]
  refine exchange_untimed hlink' hdelays' fun pauses spent hlasts hle => ?_
  rw [noteRequest_network]
  refine inTime_of_within fun hpos => ?_
  obtain ⟨hfits, hshort⟩ := hlong hpos
  exact hlasts.within (by omega) hshort hpos

/-! ### The two ways -/

/-- A session with another timeout. -/
def withTimeout (timeout : Int) (s : Session) : Session :=
  { s with connection := { s.connection with timeout } }

/-- Two calls of the same action that come to the same, but for the timeouts and the waits, end with
the same value or failure, and leave connections that look the same. -/
theorem outcome_eq_of_untimedEnd {a : Action α} (h : untimedEnd (a s) = untimedEnd (a t)) :
    outcome a s = outcome a t ∧ (after a s).untimed = (after a t).untimed := by
  have houtcome (s : Session) : outcome a s =
      match untimedEnd (a s) with
      | .ok x s' => (.ok x, Client.appearance s')
      | .error failure s' => (.error failure, Client.appearance s') := by
    unfold outcome
    cases a s <;> rfl
  have hafter (s : Session) : (after a s).untimed =
      match untimedEnd (a s) with
      | .ok _ s' | .error _ s' => s' := by
    unfold after
    cases a s <;> rfl
  rw [houtcome, houtcome, hafter, hafter, h]
  exact ⟨rfl, rfl⟩

/-- A timeout that is longer than all the delays on the way of a request, by the part of a
millisecond that rounding may lose, makes no difference: the same response is returned or the call
fails alike, the same bytes are written, and the connection is left in the same state, with the same
bytes left over. -/
theorem roundTrip_alike (hvalid : command.Valid) (hlink : s.connection.link = .up socket [])
    (hdelays : s.network.Delays command socket ns) {timeout free : Int}
    (hlong : (ns : Int) + 999999 ≤ milliseconds timeout) (hshort : timeout ≤ longestWait)
    (hfree : free ≤ 0) :
    let bounded := s.withTimeout timeout
    let unbounded := s.withTimeout free
    outcome (roundTrip command) bounded = outcome (roundTrip command) unbounded ∧
    (after (roundTrip command) bounded).connection.link =
      (after (roundTrip command) unbounded).connection.link ∧
    Call.sent (after (roundTrip command) bounded).network.calls =
      Call.sent (after (roundTrip command) unbounded).network.calls ∧
    (after (roundTrip command) bounded).untimed =
      (after (roundTrip command) unbounded).untimed := by
  intro bounded unbounded
  have hbounded : untimedEnd (roundTrip command bounded) = roundTrip command s.untimed :=
    roundTrip_untimed (s := bounded) hvalid hlink hdelays fun _ => ⟨hlong, hshort⟩
  have hunbounded : untimedEnd (roundTrip command unbounded) = roundTrip command s.untimed :=
    roundTrip_untimed (s := unbounded) hvalid hlink hdelays fun hpos => absurd hpos hfree.not_gt
  obtain ⟨houtcome, hafter⟩ := outcome_eq_of_untimedEnd (hbounded.trans hunbounded.symm)
  refine ⟨houtcome, (congrArg (fun t => t.connection.link) hafter :), ?_, hafter⟩
  have hsent : Call.sent (after (roundTrip command) bounded).network.erase.calls =
      Call.sent (after (roundTrip command) unbounded).network.erase.calls :=
    congrArg (fun t => Call.sent t.network.calls) hafter
  rwa [sent_erase, sent_erase] at hsent

/-- A request that is written in two parts and interrupted, and a response that comes in two parts
and with a signal between them: eighty milliseconds of delays, in parts of milliseconds, make no
difference to a request that may take eighty-one. -/
theorem roundTrip_alike_slow :
    ∃ s : Session, s.connection.link.state = .connected ∧
      outcome (roundTrip (.get [107])) (s.withTimeout 81) =
        outcome (roundTrip (.get [107])) (s.withTimeout 0) ∧
      (outcome (roundTrip (.get [107])) (s.withTimeout 0)).1 = .ok (.ok (.value [104, 105])) := by
  let pauses : List Pause := [.delay ⟨30500000⟩, .failed .interrupted, .delay 20,
    .failed .interrupted, .delay ⟨9499999⟩, .delay ⟨20000001⟩]
  let departures : Script Departure :=
    [⟨pauses.take 2, .accept (some 2)⟩, ⟨[], .failed .interrupted⟩]
  let arrivals : Script Arrival := [⟨(pauses.drop 2).take 3, .segment [0x21]⟩,
    ⟨[], .failed .interrupted⟩, ⟨pauses.drop 5, .segment [2, 0, 0, 0, 104, 105]⟩]
  let socket : Socket := ⟨3, arrivals, departures, false⟩
  let s : Session := { connection := { endpoint := {}, link := .up socket [] } }
  have hvalid : Command.Valid (.get [107]) := by decide
  have hlasts : Pause.Lasts pauses 80000000 :=
    .delay _ (.signal (.delay _ (.signal (.delay _ (.delay _ .nil)))))
  have hpauses : s.network.pausesAsking (.get [107]) socket ++
      s.network.pausesHearing (.get [107]) socket = pauses := by decide +kernel
  have hdelays : s.network.Delays (.get [107]) socket 80000000 :=
    ⟨by rwa [hpauses], by simp [socket]⟩
  have hlong : ((80000000 : Nat) : Int) + 999999 ≤ milliseconds 81 := by decide
  have hshort : (81 : Int) ≤ longestWait := by decide
  have hfree : (0 : Int) ≤ 0 := le_rfl
  obtain ⟨hsame, -⟩ := roundTrip_alike hvalid rfl hdelays hlong hshort hfree
  exact ⟨s, rfl, hsame, by decide +kernel⟩

/-- Two delays of a nanosecond each, and a request that may take a millisecond: when the second is
waited for, less than a millisecond is left, and the wait is given none. So one nanosecond more than
`roundTrip_alike` allows is too many. -/
theorem roundTrip_not_alike :
    ∃ (s : Session) (socket : Socket), Command.Valid (.get [107]) ∧
      s.connection.link = .up socket [] ∧ s.network.Delays (.get [107]) socket 2 ∧
      ((2 : Nat) : Int) < milliseconds 1 ∧ (1 : Int) ≤ longestWait ∧
      (outcome (roundTrip (.get [107])) (s.withTimeout 1)).1 = .error (.lost .receiveTimedOut) ∧
      (outcome (roundTrip (.get [107])) (s.withTimeout 0)).1 = .ok (.ok (.value [104, 105])) := by
  let arrivals : Script Arrival :=
    [⟨[.delay ⟨1⟩], .segment [0x21]⟩, ⟨[.delay ⟨1⟩], .segment [2, 0, 0, 0, 104, 105]⟩]
  let socket : Socket := ⟨3, arrivals, [], false⟩
  let s : Session := { connection := { endpoint := {}, link := .up socket [] } }
  have hlasts : Pause.Lasts [.delay ⟨1⟩, .delay ⟨1⟩] 2 := .delay ⟨1⟩ (.delay ⟨1⟩ .nil)
  have hpauses : s.network.pausesAsking (.get [107]) socket ++
      s.network.pausesHearing (.get [107]) socket = [.delay ⟨1⟩, .delay ⟨1⟩] := by decide +kernel
  exact ⟨s, socket, by decide, rfl, ⟨by rwa [hpauses], by simp [socket]⟩, by decide, by decide,
    by decide +kernel, by decide +kernel⟩

end Session

end RemoteCache
