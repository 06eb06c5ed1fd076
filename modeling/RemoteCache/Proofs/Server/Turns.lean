import RemoteCache.Proofs.Server.Handling
import RemoteCache.Proofs.Wire.Stability
import RemoteCache.Server.Service

/-!
# The turns of a server

A server reads in pieces as the network cuts them. Where the bytes are the frame of one command, the
pieces do not show: the command is answered when the last of them is read. Bytes that can never
become a frame make the server close, whatever the pieces.

## Main definitions

* `Server.Turn.Writes` — a turn that takes no time and writes at most once
* `Server.Mischief.spoil` — what becomes of a reply
* `Service.Quiet` — a service whose next connection finds the server as it is

## Main results

* `Server.attend_of_reads` — a frame is answered, whatever the pieces
* `Server.attend_of_malformed` — bytes that are no frame make the server close
* `Server.writes_answerAll` — a server that misbehaves once spoils one reply at most
-/

namespace RemoteCache

open Wire

namespace Server

variable {s : Server} {now : Instant} {command : Command} {f buffer : Bytes} {pieces : List Bytes}

/-! ### Pieces -/

/-- After the last piece there is nothing more to do. -/
theorem attendPieces_singleton (s : Server) (visit : Visit) (now : Instant) (piece : Bytes) :
    s.attendPieces visit now [piece] = s.attendPiece visit now piece := by
  simp only [attendPieces]
  split
  · rfl
  · rename_i visit' hvisit
    simp only [Turn.after, List.append_nil]
    rw [← hvisit]

/-- In front of the end of a frame, the server only keeps what it reads. -/
theorem attendPieces_cons_of_short {piece : Bytes} {more : List Bytes} {missing : Nat} {c : Cursor}
    (h : Request.read (.start (buffer ++ piece)) = .short missing c) :
    s.attendPieces { buffer } now (piece :: more) =
      attendPieces { s with bytesReceived := s.bytesReceived + piece.length }
        { buffer := buffer ++ piece } now more := by
  simp only [attendPieces, attendPiece, Request.frames_of_short h]
  rfl

/-- Commands are answered when the last piece of their frame is read. -/
theorem attendPieces_of_reads (h : Reader.Reads Request.read f command)
    (hpieces : ∀ piece ∈ pieces, piece ≠ []) (hne : pieces ≠ [])
    (hwhole : buffer ++ pieces.flatten = f) :
    s.attendPieces { buffer } now pieces =
      answerAll { s with bytesReceived := s.bytesReceived + pieces.flatten.length } now [command]
        (.incomplete []) := by
  induction pieces generalizing s buffer with
  | nil => exact absurd rfl hne
  | cons piece more ih =>
    obtain ⟨hpiece, hmore⟩ := List.forall_mem_cons.1 hpieces
    rw [List.flatten_cons] at hwhole ⊢
    by_cases hlast : more = []
    · subst hlast
      have hframes : Request.frames (buffer ++ piece) = ([command], .incomplete []) := by
        have happend := Request.frames_append h []
        rw [List.append_nil, ← hwhole, List.flatten_nil, List.append_nil,
          Request.frames_nil] at happend
        exact happend
      rw [attendPieces_singleton, attendPiece, hframes, List.flatten_nil, List.append_nil]
      rfl
    · have hrest : more.flatten ≠ [] := by
        obtain ⟨next, others, rfl⟩ := List.exists_cons_of_ne_nil hlast
        exact List.append_ne_nil_of_left_ne_nil (hmore next List.mem_cons_self) _
      have hread := h.start []
      rw [List.append_nil, ← hwhole, ← List.append_assoc] at hread
      have hlength : (buffer ++ piece).length < (buffer ++ piece ++ more.flatten).length :=
        (Nat.lt_add_of_pos_right (List.length_pos_iff.2 hrest)).trans_eq List.length_append.symm
      obtain ⟨missing, c, hshort⟩ := Request.stable_read.short_of_prefix
        (List.prefix_append (buffer ++ piece) more.flatten) hread hlength
      rw [attendPieces_cons_of_short hshort, ih hmore hlast (by rw [List.append_assoc, hwhole]),
        List.length_append, Nat.add_assoc]

/-- At some piece it is plain that the bytes are no frame. -/
theorem attendPieces_of_malformed {fault : Fault}
    (h : Request.read (.start f) = .malformed fault) {missing : Nat} {c : Cursor}
    (hbuffer : Request.read (.start buffer) = .short missing c)
    (hwhole : buffer ++ pieces.flatten = f) :
    ∃ count, s.attendPieces { buffer } now pieces =
      { server := { s with bytesReceived := count }, visit := none, time := now } := by
  induction pieces generalizing s buffer missing c with
  | nil =>
    rw [List.flatten_nil, List.append_nil] at hwhole
    rw [hwhole, h] at hbuffer
    cases hbuffer
  | cons piece more ih =>
    rw [List.flatten_cons, ← List.append_assoc] at hwhole
    cases hread : Request.read (.start (buffer ++ piece)) with
    | short missing c =>
      rw [attendPieces_cons_of_short hread]
      exact ih hread hwhole
    | malformed fault' =>
      refine ⟨s.bytesReceived + piece.length, ?_⟩
      simp only [attendPieces, attendPiece, Request.frames_of_malformed hread]
      rfl
    | done command c =>
      -- What is a frame stays one.
      have hstays := Request.stable_read.done_extend hread more.flatten
      rw [Cursor.extend_start, hwhole, h] at hstays
      cases hstays

variable {lengths : List Nat}

/-- A frame is answered, whatever the pieces in which it is read. -/
theorem attend_of_reads (h : Reader.Reads Request.read f command) (hne : f ≠ []) :
    s.attend {} now f lengths =
      answerAll { s with bytesReceived := s.bytesReceived + f.length } now [command]
        (.incomplete []) := by
  have hflatten := Bytes.flatten_piecesBy pieceSize lengths f
  have hpieces : Bytes.piecesBy pieceSize lengths f ≠ [] := by
    intro hnone
    rw [hnone] at hflatten
    exact hne hflatten.symm
  have hattend := @attendPieces_of_reads s now command f [] _ h
    (fun _ => Bytes.ne_nil_of_mem_piecesBy) hpieces hflatten
  rwa [hflatten] at hattend

/-- Bytes that are no frame make the server close, whatever the pieces in which they are read. -/
theorem attend_of_malformed {fault : Fault} (h : Request.read (.start f) = .malformed fault) :
    ∃ count, s.attend {} now f lengths =
      { server := { s with bytesReceived := count }, visit := none, time := now } := by
  have hnothing : Request.read (.start []) = .short 1 (.start []) := rfl
  exact attendPieces_of_malformed h hnothing (Bytes.flatten_piecesBy pieceSize lengths f)

/-- Where there is nothing to read, nothing happens. -/
theorem attend_nil (s : Server) (visit : Visit) (now : Instant) (lengths : List Nat) :
    s.attend visit now [] lengths = { server := s, visit := some visit, time := now } := by
  have hnone : Bytes.piecesBy pieceSize lengths [] = [] := by
    cases lengths with
    | nil => rw [Bytes.piecesBy, Bytes.pieces, Bytes.piecesOf]
    | cons length lengths => rw [Bytes.piecesBy]
  rw [attend, hnone]
  rfl

/-! ### Answers -/

/-- A turn that takes no time, writes some bytes at once or nothing, and leaves the connection as it
was at first or closes it. -/
structure Turn.Writes (t : Turn) (now : Instant) (b : Bytes) : Prop where
  time_eq : t.time = now
  writes_eq : t.writes = if b = [] then [] else [⟨now, b⟩]
  visit_eq : t.visit = some {} ∨ t.visit = none

/-- Nothing is written to bytes that are no frame. -/
theorem writes_of_malformed {fault : Fault} (h : Request.read (.start f) = .malformed fault) :
    (s.attend {} now f lengths).Writes now [] := by
  obtain ⟨count, hturn⟩ := @attend_of_malformed s now f lengths fault h
  rw [hturn]
  exact ⟨rfl, rfl, .inr rfl⟩

/-- A server that has answered a command. -/
def served (s : Server) (now : Instant) (command : Command) : Server :=
  { s with
    cache := (s.cache.handle now command).1
    mischief := .none
    requestsReceived := s.requestsReceived + 1 }

/-- The bytes of the reply to a command. -/
def reply (s : Server) (now : Instant) (command : Command) : Bytes :=
  frame command.shape (s.cache.handle now command).2

theorem reply_eq (s : Server) (now : Instant) (command : Command) :
    s.reply now command = Reply.frame (s.cache.handle now command).2 := by
  rw [reply, frame, Reply.encode_eq_frame (Cache.hasShape_handle s.cache now command)]

theorem frame_ne_nil (r : Response) : Reply.frame r ≠ [] := by
  cases r with
  | ok payload => exact List.append_ne_nil_of_left_ne_nil (List.cons_ne_nil _ _) _
  | refused refusal =>
    simp only [Reply.frame, Reply.encodeRefusal]
    split <;> exact List.append_ne_nil_of_left_ne_nil (List.cons_ne_nil _ _) _

theorem reply_ne_nil (s : Server) (now : Instant) (command : Command) :
    s.reply now command ≠ [] := by
  rw [reply_eq]
  exact frame_ne_nil _

theorem firstHalf_ne_nil {reply : Bytes} (h : reply ≠ []) : firstHalf reply ≠ [] := by
  unfold firstHalf
  rw [Ne, List.take_eq_nil_iff, not_or]
  exact ⟨by omega, h⟩

/-- A server that behaves itself writes the whole reply. -/
theorem answerAll_of_none (h : s.mischief = .none) :
    s.answerAll now [command] (.incomplete []) =
      { server := s.served now command, visit := some {},
        writes := [⟨now, s.reply now command⟩], time := now } := by
  unfold answerAll
  rw [h]
  rfl

theorem Turn.Writes.mk' {server : Server} {visit : Option Visit} {b : Bytes} (hb : b ≠ [])
    (hvisit : visit = some {} ∨ visit = none) :
    Turn.Writes { server, visit, writes := [⟨now, b⟩], time := now } now b :=
  ⟨rfl, by rw [if_neg hb], hvisit⟩

/-- A way to misbehave that is over as soon as one command is answered. -/
def Mischief.IsPassing (m : Mischief) : Prop := m ≠ .stall ∧ m ≠ .split

/-- What becomes of a reply. -/
def Mischief.spoil (m : Mischief) (reply : Bytes) : Bytes :=
  match m with
  | .closeBeforeResponse => []
  | .closeMidResponse => firstHalf reply
  | .garbage => [0]
  | .none | .stall | .split => reply

/-- The cache that is left after a command. -/
def Mischief.leave (m : Mischief) (before after : Cache) : Cache :=
  match m with
  -- The server has not even looked at the command.
  | .closeBeforeResponse => before
  | _ => after

/-- A server that misbehaves once spoils one reply at most. -/
theorem writes_answerAll (s : Server) (now : Instant) (command : Command)
    (h : s.mischief.IsPassing) :
    (s.answerAll now [command] (.incomplete [])).Writes now
        (s.mischief.spoil (s.reply now command)) ∧
      (s.answerAll now [command] (.incomplete [])).server.cache =
        s.mischief.leave s.cache (s.cache.handle now command).1 ∧
      (s.answerAll now [command] (.incomplete [])).server.mischief = .none ∧
      (s.answerAll now [command] (.incomplete [])).server.rejects = s.rejects := by
  have hhalf : firstHalf (s.reply now command) ≠ [] := firstHalf_ne_nil (reply_ne_nil s now command)
  unfold answerAll
  cases hm : s.mischief with
  | none => exact ⟨.mk' (reply_ne_nil s now command) (.inl rfl), rfl, rfl, rfl⟩
  | closeBeforeResponse => exact ⟨⟨rfl, rfl, .inr rfl⟩, rfl, rfl, rfl⟩
  | closeMidResponse => exact ⟨.mk' hhalf (.inr rfl), rfl, rfl, rfl⟩
  | garbage => exact ⟨.mk' (List.cons_ne_nil _ _) (.inl rfl), rfl, rfl, rfl⟩
  | stall => exact absurd hm h.1
  | split => exact absurd hm h.2

/-- What a server says to a new connection. -/
def greeting (s : Server) : Response :=
  if s.rejects then .refused (.ofServer .maxConnectionsExceeded) else .ok .ack

/-- A greeting is read back. -/
theorem read_greeting (s : Server) :
    Reply.read .ack (.start (Reply.frame s.greeting)) =
      .done s.greeting ⟨(Reply.frame s.greeting).length, []⟩ := by
  unfold greeting
  split <;> rfl

theorem greet_eq (s : Server) (now : Instant) :
    s.greet now =
      { server := { s with connectionsAccepted := s.connectionsAccepted + 1 },
        visit := if s.rejects then none else some {},
        writes := [⟨now, Reply.frame s.greeting⟩], time := now } := by
  unfold greet greeting
  split <;> rfl

/-- A connection is accepted on which nothing has arrived yet. -/
theorem accept_nil (s : Server) (now : Instant) (lengths : List Nat) :
    s.accept now [] lengths = s.greet now := by
  unfold accept
  rw [greet_eq]
  cases s.rejects with
  | true => rfl
  | false =>
    simp only [Bool.false_eq_true, if_false]
    rw [attend_nil]
    rfl

theorem writes_greet (s : Server) (now : Instant) :
    (s.greet now).Writes now (Reply.frame s.greeting) := by
  rw [greet_eq]
  refine .mk' (frame_ne_nil _) ?_
  split
  · exact .inr rfl
  · exact .inl rfl

end Server

namespace Service

/-- A service whose next connection finds the server as it is: nobody is in front of it, or somebody
who was greeted and has sent nothing since. -/
def Quiet (service : Service) : Prop :=
  ∀ caller ∈ service.caller, caller.visit.isSome = true ∧ caller.unread = []

/-- The next connection finds the server as it is. -/
theorem Quiet.connect_eq {service : Service} (h : service.Quiet) (now : Instant) :
    service.connect now = { server := service.server, caller := some {} } := by
  obtain ⟨server, caller⟩ := service
  cases caller with
  | none => rfl
  | some caller =>
    obtain ⟨visit, unread, busyUntil⟩ := caller
    obtain ⟨hvisit, hunread⟩ := h _ rfl
    obtain ⟨visit, rfl⟩ := Option.isSome_iff_exists.1 hvisit
    obtain rfl : unread = [] := hunread
    simp only [connect, Caller.turn, Server.attend_nil]

/-- There is no connection in front of the server. -/
theorem quiet_of_closed (server : Server) : Quiet { server } := nofun

/-- What a turn that takes no time makes of a service. -/
theorem ofTurn_of_writes {t : Server.Turn} {now : Instant} {b : Bytes} (h : t.Writes now b) :
    ofTurn now t =
      ({ server := t.server, caller := t.visit.map fun visit => { visit } }, t.writes) := by
  unfold ofTurn
  rw [h.time_eq, if_neg (lt_irrefl now)]

theorem quiet_ofTurn {t : Server.Turn} {now : Instant} {b : Bytes} (h : t.Writes now b) :
    Quiet (ofTurn now t).1 := by
  rw [ofTurn_of_writes h]
  rcases h.visit_eq with hvisit | hvisit <;> rw [hvisit]
  · rintro _ ⟨⟩
    exact ⟨rfl, rfl⟩
  · exact nofun

end Service

end RemoteCache
