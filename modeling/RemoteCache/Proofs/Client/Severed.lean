import RemoteCache.Proofs.Client.Resending
import RemoteCache.Proofs.Server.Hearings
import RemoteCache.Proofs.Session.Streams

/-!
# A reply that is cut in half

A server that is told to close in the middle of its next response writes the first half of the
reply, and at least one byte of it. Of an acknowledgement that is everything: it is one byte long,
the client reads it whole and does not notice that the server has closed. Every other reply is
longer. Half of it is no response, and the client is told that the connection was closed in the
middle.

## Main definitions

* `Server.severing` — a server that is told to close in the middle of its next response

## Main results

* `Server.length_frame_le_one_iff` — the acknowledgement is the only reply of one byte
* `Reply.verdict_firstHalf` — half of any other reply is the middle of a response
* `Server.writes_severing` — what such a server writes to a command that is read
* `Session.roundTrip_severed` — what becomes of a command whose reply is cut
-/

namespace RemoteCache

open Wire

variable {shape : Shape} {r : Response} {command : Command}

/-! ### Half of a reply -/

namespace Server

variable {reply b : Bytes} {t : Turn} {now : Instant}

theorem firstHalf_eq_self_iff : firstHalf reply = reply ↔ reply.length ≤ 1 := by
  rw [firstHalf, List.take_eq_self_iff]
  omega

/-- The acknowledgement is the only reply of one byte. -/
theorem length_frame_le_one_iff : (Reply.frame r).length ≤ 1 ↔ r = .ok .ack := by
  cases r with
  | refused refusal =>
    refine iff_of_false ?_ fun hack => by cases hack
    rw [Reply.frame, Reply.encodeRefusal]
    split <;> simp [flag]
  | ok payload =>
    rw [Reply.frame, List.length_append, show (flag true).length = 1 from rfl]
    cases payload with
    | ack => exact iff_of_true (le_refl 1) rfl
    | _ =>
      refine iff_of_false ?_ fun hack => by cases hack
      simp only [Reply.fields, Reply.encodeStatus, text, flag, word32, List.length_append,
        length_littleEndian, List.length_singleton]
      omega

theorem firstHalf_frame_eq_iff : firstHalf (Reply.frame r) = Reply.frame r ↔ r = .ok .ack :=
  firstHalf_eq_self_iff.trans length_frame_le_one_iff

theorem Turn.Writes.written_eq (h : t.Writes now b) : t.written = b := by
  rw [Turn.written, h.writes_eq]
  split
  · rename_i hb
    exact hb.symm
  · exact List.append_nil b

/-- A server that is told to close in the middle of its next response. -/
def severing (s : Server) : Server := { s with mischief := .closeMidResponse }

/-- Half of the reply to a command that is read is written. -/
theorem writes_severing (s : Server) (now : Instant) (hcommand : command.Intelligible)
    (lengths : List Nat) :
    (s.severing.attend {} now (Request.encode command) lengths).Writes now
      (firstHalf (Reply.frame (s.cache.handle now command.received).2)) :=
  (Client.replies_of_reads s.severing now hcommand.reads ⟨nofun, nofun⟩ s.connectionsAccepted
    lengths).1

end Server

namespace Reply

/-- Half of any other reply is the middle of a response. -/
theorem verdict_firstHalf (hshape : r.HasShape shape) (hreadable : r.Readable)
    (hr : r ≠ .ok .ack) :
    verdict shape (Server.firstHalf (frame r)) = .error .closedMidResponse := by
  have hread := (reads_frame hshape hreadable).start []
  rw [List.append_nil] at hread
  have hfront : Server.firstHalf (frame r) <+: frame r := List.take_prefix _ _
  have hproper : (Server.firstHalf (frame r)).length < (frame r).length :=
    lt_of_le_of_ne hfront.length_le fun hall =>
      hr (Server.firstHalf_frame_eq_iff.1 (hfront.eq_of_length hall))
  -- In front of the end of a reply that is read back there is always something missing.
  obtain ⟨missing, c, hshort⟩ :=
    Reader.Stable.short_of_prefix (stable_read shape) hfront hread hproper
  rw [verdict_of_short hshort, Network.endOfStream_eq,
    if_neg (Server.firstHalf_ne_nil (Server.frame_ne_nil r))]

end Reply

/-! ### Commands -/

namespace Session

open Client

variable {s : Session} {server : Server} {start : Instant}

theorem AttendedBy.inject (h : s.AttendedBy server start) (m : Server.Mischief) :
    (Client.inject s m).AttendedBy { server with mischief := m } start := by
  obtain ⟨hpeer, service, hservice, rfl, hcaller, hstart, hpatient⟩ := h
  refine ⟨hpeer, { service with server := { service.server with mischief := m } }, ?_, rfl,
    hcaller, hstart, hpatient⟩
  simp only [Client.inject, hservice, Option.map_some]

/-- Where a command is not read, the stream ends before there is anything to read. -/
theorem severed_of_unreadable (hvalid : command.Valid) (h : s.AttendedBy server start)
    (hunreadable : command.Unreadable) :
    (∀ lengths, (server.severing.attend {} start (Request.encode command) lengths).written = []) ∧
      outcome (roundTrip command) (inject s .closeMidResponse) =
        reported s.connection.endpoint (.error .closed) := by
  obtain ⟨fault, hmalformed⟩ := hunreadable.malformed
  have hwrites (lengths : List Nat) :=
    @Server.writes_of_malformed server.severing start _ lengths fault hmalformed
  exact ⟨fun lengths => (hwrites lengths).written_eq,
    outcome_attended hvalid (h.inject .closeMidResponse) hwrites⟩

/-- Where a command is read, half of the reply decides what becomes of it. -/
theorem severed_of_intelligible (hcommand : command.Intelligible)
    (h : s.AttendedBy server start) :
    (∀ lengths, (server.severing.attend {} start (Request.encode command) lengths).written =
        Server.firstHalf (Reply.frame (server.cache.handle start command.received).2)) ∧
      outcome (roundTrip command) (inject s .closeMidResponse) =
        reported s.connection.endpoint (Reply.verdict command.shape
          (Server.firstHalf (Reply.frame (server.cache.handle start command.received).2))) := by
  have hwrites := server.writes_severing start hcommand
  exact ⟨fun lengths => (hwrites lengths).written_eq,
    outcome_attended hcommand.valid (h.inject .closeMidResponse) hwrites⟩

/-- Where a server is told to close in the middle of its next response, it writes a beginning of the
reply that is neither empty nor all of it, and the client is told that the connection was closed in
the middle of a response: for each command, unless the reply is an acknowledgement, of which half
is all, so that it is returned and the connection stays up; or unless the command is not read, to
which nothing is written. -/
theorem roundTrip_severed (hvalid : command.Valid)
    (hcapacity : ∀ capacity, command = .resize capacity → capacity < 2 ^ 63)
    (h : s.AttendedBy server start) (lengths : List Nat) :
    let r := (server.cache.handle start command.received).2
    let written := (server.severing.attend {} start (Request.encode command) lengths).written
    let ended := outcome (roundTrip command) (inject s .closeMidResponse)
    let isSevered := ¬command.Unreadable ∧ r ≠ .ok .ack
    written <+: Reply.frame r ∧
      (written ≠ [] ∧ written ≠ Reply.frame r ↔ isSevered) ∧
      ended = reported s.connection.endpoint (Reply.verdict command.shape written) ∧
      (r.Readable →
        (ended = (.error (.lost .closedMidResponse),
          { endpoint := s.connection.endpoint, state := .faulted,
            lastError := Bytes.ascii "connection closed by server mid-response" }) ↔ isSevered)) ∧
      (¬command.Unreadable → r = .ok .ack →
        ended = (.ok (.ok .ack), { endpoint := s.connection.endpoint, state := .connected })) ∧
      (command.Unreadable → ended = (.error (.lost .closed),
        { endpoint := s.connection.endpoint, state := .faulted,
          lastError := Bytes.ascii "connection closed by server" })) ∧
      (Failure.lost .closedMidResponse).kind = .connection := by
  intro r written ended isSevered
  by_cases hunreadable : command.Unreadable
  · obtain ⟨hwritten, hclosed⟩ := severed_of_unreadable hvalid h hunreadable
    have hnothing : written = [] := hwritten lengths
    have hwhole : ¬isSevered := fun hsevered => hsevered.1 hunreadable
    refine ⟨?_, iff_of_false (fun hcut => hcut.1 hnothing) hwhole, ?_,
      fun _ => iff_of_false (fun hmid => ?_) hwhole, fun hread => absurd hunreadable hread,
      fun _ => hclosed, rfl⟩
    · rw [hnothing]
      exact List.nil_prefix
    · rw [hnothing]
      exact hclosed
    · exact nomatch (Prod.mk.inj (hclosed.symm.trans hmid)).1
  · obtain ⟨hwritten, hended⟩ := severed_of_intelligible
      (Command.intelligible_of_not_unreadable hvalid hcapacity hunreadable) h
    have hhalf : written = Server.firstHalf (Reply.frame r) := hwritten lengths
    have hshape : r.HasShape command.shape := by
      rw [← command.received_shape]
      exact server.cache.hasShape_handle start command.received
    have hsevered : isSevered ↔ r ≠ .ok .ack := and_iff_right hunreadable
    -- An acknowledgement is read before the end of the stream is met.
    have hunnoticed (hr : r = .ok .ack) :
        ended = reported s.connection.endpoint (.ok (.ok .ack)) := by
      have hack : Shape.ack = command.shape := by
        rw [hr] at hshape
        exact hshape
      refine hended.trans ?_
      change reported _ (Reply.verdict command.shape (Server.firstHalf (Reply.frame r))) = _
      rw [hr, ← hack]
      rfl
    refine ⟨?_, ?_, ?_, fun hreadable => ?_, fun _ => hunnoticed,
      fun h => absurd h hunreadable, rfl⟩
    · rw [hhalf]
      exact List.take_prefix _ _
    · rw [hhalf, Ne, Ne, Server.firstHalf_frame_eq_iff, hsevered]
      exact and_iff_right (Server.firstHalf_ne_nil (Server.frame_ne_nil r))
    · rw [hhalf]
      exact hended
    · rw [hsevered]
      refine ⟨fun hmid hr => ?_, fun hr => ?_⟩
      · exact nomatch (Prod.mk.inj ((hunnoticed hr).symm.trans hmid)).1
      · refine hended.trans ?_
        rw [Reply.verdict_firstHalf hshape hreadable hr]
        rfl

/-- A session that is connected to a server, where the request and the reply travel in pieces. -/
def atServer (server : Server) : Session :=
  { connection := { endpoint := {}, link := .up ⟨3, [], [], true⟩ [] },
    network :=
      { service := some { server, caller := some { visit := some {} } },
        transits := [⟨[1], [some 1, none]⟩] } }

theorem attendedBy_atServer (server : Server) : (atServer server).AttendedBy server 0 :=
  ⟨⟨_, rfl, rfl, rfl, List.forall_mem_nil _⟩, _, rfl, rfl, ⟨none, rfl⟩, rfl, rfl⟩

/-- The answer to a ping is cut. -/
theorem roundTrip_severed_ping :
    (atServer {}).AttendedBy {} 0 ∧ Command.ping.Valid ∧
      outcome (roundTrip .ping) (inject (atServer {}) .closeMidResponse) =
        (.error (.lost .closedMidResponse),
          { endpoint := {}, state := .faulted,
            lastError := Bytes.ascii "connection closed by server mid-response" }) := by
  have hvalid : Command.ping.Valid := rfl
  obtain ⟨-, -, -, hmid, -⟩ := roundTrip_severed hvalid nofun (attendedBy_atServer {}) [1]
  refine ⟨attendedBy_atServer {}, hvalid, (hmid ⟨trivial, ?_⟩).2 ⟨?_, nofun⟩⟩
  · exact show (4 : Nat) < 2 ^ 32 by decide
  · rintro ⟨p, hp, -⟩
    cases hp

/-- An acknowledgement is not cut, and nobody notices that the server has closed. -/
theorem acknowledged_though_severed :
    (atServer {}).AttendedBy {} 0 ∧ (Command.set [107] [118] none).Valid ∧
      ((Server.severing {}).attend {} 0 (Request.encode (.set [107] [118] none)) [1]).written =
        Reply.frame (.ok .ack) ∧
      outcome (roundTrip (.set [107] [118] none)) (inject (atServer {}) .closeMidResponse) =
        (.ok (.ok .ack), { endpoint := {}, state := .connected }) := by
  refine ⟨attendedBy_atServer {}, rfl, ?_, ?_⟩
  · decide +kernel
  · decide +kernel

end Session

end RemoteCache
