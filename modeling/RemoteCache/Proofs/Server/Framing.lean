import RemoteCache.Proofs.Server.Logs
import RemoteCache.Proofs.Server.Turns
import RemoteCache.Server.Probe

/-!
# However the requests are cut

A client may send many requests at once, or one of them in many parts. The server writes the replies
to the commands that the bytes hold, in order, up to the first that is not whole or no frame at all.
How the bytes were cut does not show.

## Main definitions

* `Request.Ending.visit` — what a server remembers of bytes that end in some way
* `Server.replies` — the replies to commands that are handled one after the other
* `Probe.sendAll` — bytes are sent part by part

## Main results

* `Request.frames_append_of_incomplete`, `Request.frames_append_of_end` — what further bytes add to
  the commands that bytes hold
* `Server.attendPieces_eq` — what a server makes of bytes, however it reads them
* `Probe.sendAll_of_frames` — the replies to any bytes, however they are sent
-/

namespace RemoteCache

open Wire

/-! ### The commands in a stream -/

namespace Request

variable {b : Bytes} {commands : List Command}

/-- What can never become a frame stays so. -/
theorem frames_append_of_malformed {fault : Fault} (h : frames b = (commands, .malformed fault))
    (t : Bytes) : frames (b ++ t) = (commands, .malformed fault) := by
  fun_induction frames b generalizing commands with
  | case1 b command c hread hlt more ending hrest ih =>
    cases h
    have hstays := stable_read.done_extend hread t
    rw [Cursor.extend_start] at hstays
    rw [frames_of_done hstays, Cursor.rest_extend, ih hrest]
  | case2 b missing c hread => cases h
  | case3 b fault' hread =>
    cases h
    exact frames_of_malformed (stable_read.malformed_extend hread t)

/-- Further bytes continue what was not whole. -/
theorem frames_append_of_incomplete {rest : Bytes} (h : frames b = (commands, .incomplete rest))
    (t : Bytes) :
    frames (b ++ t) = (commands ++ (frames (rest ++ t)).1, (frames (rest ++ t)).2) := by
  fun_induction frames b generalizing commands with
  | case1 b command c hread hlt more ending hrest ih =>
    cases h
    have hstays := stable_read.done_extend hread t
    rw [Cursor.extend_start] at hstays
    rw [frames_of_done hstays, Cursor.rest_extend, ih hrest]
    rfl
  | case2 b missing c hread =>
    cases h
    rfl
  | case3 b fault hread => cases h

/-- What is left behind the last whole frame holds none. -/
theorem frames_rest {rest : Bytes} (h : frames b = (commands, .incomplete rest)) :
    frames rest = ([], .incomplete rest) := by
  fun_induction frames b generalizing commands with
  | case1 b command c hread hlt more ending hrest ih =>
    cases h
    exact ih hrest
  | case2 b missing c hread =>
    cases h
    exact frames_of_short hread
  | case3 b fault hread => cases h

/-- What the server remembers of a connection once it has read bytes that end in some way; it has
closed the connection if they can never become a frame. -/
def Ending.visit : Ending → Option Server.Visit
  | .incomplete rest => some { buffer := rest }
  | .malformed _ => none

end Request

/-! ### The replies to commands -/

namespace Cache

/-- Commands that all come at one instant. -/
def atOnce (now : Instant) (commands : List Command) : Log :=
  commands.map fun command => (now, command)

/-- The replies to commands that are handled one after the other at one instant. -/
def replies (c : Cache) (now : Instant) : List Command → List Bytes
  | [] => []
  | command :: more =>
    Server.frame command.shape (c.handle now command).2 :: (c.handle now command).1.replies now more

theorem replies_append (c : Cache) (now : Instant) (commands more : List Command) :
    c.replies now (commands ++ more) =
      c.replies now commands ++ (c.after (atOnce now commands)).replies now more := by
  induction commands generalizing c with
  | nil => rfl
  | cons command commands ih => exact congrArg _ (ih _)

/-- Every response to a command has a frame. -/
theorem encode_handle (c : Cache) (now : Instant) (command : Command) :
    Reply.encode command.shape (c.handle now command).2 =
      .ok (Server.frame command.shape (c.handle now command).2) := by
  have hencode := Reply.encode_eq_frame (c.hasShape_handle now command)
  rw [Server.frame, hencode]

/-- The replies are the frames of the responses, none of which is without one. -/
theorem mapM_encode (c : Cache) (now : Instant) (commands : List Command) :
    (commands.zip (c.answers (atOnce now commands))).mapM
        (fun (command, response) => Reply.encode command.shape response) =
      .ok (c.replies now commands) := by
  induction commands generalizing c with
  | nil => rfl
  | cons command commands ih =>
    have hrest := ih (c.handle now command).1
    simp only [atOnce, List.map_cons, answers, List.zip_cons_cons, List.mapM_cons] at hrest ⊢
    rw [encode_handle, hrest]
    rfl

end Cache

namespace Server

variable {s : Server} {now : Instant} {buffer : Bytes}

/-- What is read after some pieces is read by the server that those have left. -/
theorem attendPieces_append (s : Server) (visit : Visit) (now : Instant)
    (pieces more : List Bytes) :
    s.attendPieces visit now (pieces ++ more) =
      match (s.attendPieces visit now pieces).visit with
      | none => s.attendPieces visit now pieces
      | some left =>
        ((s.attendPieces visit now pieces).server.attendPieces left
          (s.attendPieces visit now pieces).time more).after
            (s.attendPieces visit now pieces).writes := by
  induction pieces generalizing s visit now with
  | nil => rfl
  | cons piece pieces ih =>
    simp only [List.cons_append, attendPieces]
    generalize s.attendPiece visit now piece = t
    cases hleft : t.visit with
    | none => simp only [hleft]
    | some left =>
      simp only [ih]
      generalize t.server.attendPieces left t.time pieces = u
      cases hu : u.visit with
      | none => simp only [Turn.after, hu]
      | some left' => simp only [Turn.after, hu, List.append_assoc]

/-- A server that has answered commands at one instant. -/
def afterAll (s : Server) (now : Instant) (commands : List Command) : Server :=
  { s with
    cache := s.cache.after (Cache.atOnce now commands)
    requestsReceived := s.requestsReceived + commands.length }

theorem afterAll_append (s : Server) (now : Instant) (commands more : List Command) :
    s.afterAll now (commands ++ more) = (s.afterAll now commands).afterAll now more := by
  simp only [afterAll, Cache.atOnce, List.map_append, Cache.after_append, List.length_append,
    Nat.add_assoc]

/-- A server that behaves itself, or has nothing to answer, answers every command at once. -/
theorem answerAll_eq (commands : List Command) (h : s.mischief = .none ∨ commands = [])
    (ending : Request.Ending) :
    s.answerAll now commands ending =
      { server := s.afterAll now commands, visit := ending.visit,
        writes := (s.cache.replies now commands).map (Write.mk now), time := now } := by
  induction commands generalizing s with
  | nil => cases ending <;> rfl
  | cons command commands ih =>
    replace h : s.mischief = .none := h.resolve_right (List.cons_ne_nil _ _)
    have hserved : (s.served now command).mischief = .none ∨ commands = [] := .inl rfl
    have hnext : (s.served now command).afterAll now commands =
        s.afterAll now (command :: commands) := by
      simp only [afterAll, served, Cache.atOnce, List.map_cons, Cache.after, List.length_cons,
        Nat.add_assoc, Nat.add_comm 1, h]
    have hrest := ih hserved
    rw [hnext] at hrest
    unfold answerAll
    rw [h]
    exact congrArg (Turn.after [⟨now, s.reply now command⟩]) hrest

/-- What a server makes of bytes, however it reads them: it answers the commands in them, and closes
if what follows the last one can never become a frame. -/
theorem attendPieces_eq (hbuffer : Request.frames buffer = ([], .incomplete buffer))
    (pieces : List Bytes) {commands : List Command} {ending : Request.Ending}
    (hframes : Request.frames (buffer ++ pieces.flatten) = (commands, ending))
    (h : s.mischief = .none ∨ commands = []) :
    ∃ count, s.attendPieces { buffer } now pieces =
      { server := { s.afterAll now commands with bytesReceived := count }, visit := ending.visit,
        writes := (s.cache.replies now commands).map (Write.mk now), time := now } := by
  induction pieces generalizing s buffer commands ending with
  | nil =>
    rw [List.flatten_nil, List.append_nil, hbuffer] at hframes
    cases hframes
    exact ⟨s.bytesReceived, rfl⟩
  | cons piece more ih =>
    rw [List.flatten_cons, ← List.append_assoc] at hframes
    obtain ⟨⟨first, stop⟩, hpiece⟩ : ∃ r, Request.frames (buffer ++ piece) = r := ⟨_, rfl⟩
    have hturn (h : s.mischief = .none ∨ first = []) : s.attendPiece { buffer } now piece =
        { server := { s.afterAll now first with bytesReceived := s.bytesReceived + piece.length }
          visit := stop.visit, writes := (s.cache.replies now first).map (Write.mk now),
          time := now } := by
      simp only [attendPiece, hpiece]
      exact @answerAll_eq { s with bytesReceived := s.bytesReceived + piece.length } now first h
        stop
    cases stop with
    | malformed fault =>
      rw [Request.frames_append_of_malformed hpiece] at hframes
      cases hframes
      refine ⟨s.bytesReceived + piece.length, ?_⟩
      simp only [attendPieces, hturn h]
      rfl
    | incomplete rest =>
      rw [Request.frames_append_of_incomplete hpiece] at hframes
      cases hframes
      have hnone := h.imp_right List.append_eq_nil_iff.1
      obtain ⟨count, hmore⟩ :=
        @ih { s.afterAll now first with bytesReceived := s.bytesReceived + piece.length } rest
          (Request.frames_rest hpiece) _ _ rfl (hnone.imp_right And.right)
      refine ⟨count, ?_⟩
      simp only [attendPieces, hturn (hnone.imp_right And.left), Request.Ending.visit]
      rw [hmore, Cache.replies_append, List.map_append, afterAll_append]
      rfl

end Server

namespace Probe

/-- Bytes are sent part by part. -/
def sendAll (p : Probe) : List Bytes → Probe × Bytes
  | [] => (p, [])
  | segment :: more =>
    let (p, first) := p.send segment
    let (p, rest) := p.sendAll more
    (p, first ++ rest)

variable {p : Probe}

theorem sendAll_of_closed (h : p.visit = none) (segments : List Bytes) :
    p.sendAll segments = (p, []) := by
  induction segments with
  | nil => rfl
  | cons segment more ih => simp only [sendAll, send, h, ih, List.append_nil]

/-- What is sent in parts is read in the pieces of each. -/
theorem sendAll_eq {visit : Server.Visit} (hvisit : p.visit = some visit)
    (segments : List Bytes) :
    p.sendAll segments = ofTurn (p.server.attendPieces visit p.clock
      (segments.flatMap (Bytes.piecesBy Server.pieceSize []))) := by
  induction segments generalizing p visit with
  | nil =>
    obtain ⟨clock, server, _⟩ := p
    cases hvisit
    rfl
  | cons segment more ih =>
    rw [List.flatMap_cons, Server.attendPieces_append]
    simp only [sendAll, send, hvisit]
    unfold Server.attend
    generalize p.server.attendPieces visit p.clock (Bytes.piecesBy Server.pieceSize [] segment) = t
    cases hleft : t.visit with
    | none =>
      rw [sendAll_of_closed (show (ofTurn t).1.visit = none from hleft)]
      exact Prod.ext rfl (List.append_nil _)
    | some left =>
      rw [ih (show (ofTurn t).1.visit = some left from hleft)]
      simp only [ofTurn, Server.Turn.after, List.flatMap_append]

/-- What becomes of a connection on which nothing has been sent yet. -/
theorem sendAll_of_open (hvisit : p.visit = some {}) (hmischief : p.server.mischief = .none)
    (segments : List Bytes) {commands : List Command} {ending : Request.Ending}
    (hframes : Request.frames segments.flatten = (commands, ending)) :
    ∃ count, p.sendAll segments =
      ({ clock := p.clock,
         server := { p.server.afterAll p.clock commands with bytesReceived := count },
         visit := ending.visit },
       (p.server.cache.replies p.clock commands).flatten) := by
  have hflatten : (segments.flatMap (Bytes.piecesBy Server.pieceSize [])).flatten =
      segments.flatten := by
    rw [List.flatMap_def, List.flatten_flatten, List.map_map]
    exact congrArg List.flatten
      ((List.map_congr_left fun b _ => Bytes.flatten_piecesBy _ _ b).trans (List.map_id segments))
  obtain ⟨count, hturn⟩ := @Server.attendPieces_eq p.server p.clock _ Request.frames_nil
    (segments.flatMap (Bytes.piecesBy Server.pieceSize [])) _ _
    ((congrArg Request.frames hflatten).trans hframes) (.inl hmischief)
  refine ⟨count, ?_⟩
  rw [sendAll_eq hvisit, hturn]
  simp only [ofTurn, List.flatMap_map, List.flatMap_id']

/-- A connection is accepted with an acknowledgement, which changes nothing else. -/
theorem connect_of_accepts (hrejects : p.server.rejects = false) :
    p.connect.2 = [0x21] ∧ p.connect.1.visit = some {} ∧ p.connect.1.clock = p.clock ∧
      p.connect.1.server =
        { p.server with connectionsAccepted := p.server.connectionsAccepted + 1 } := by
  have haccepts : ¬ p.server.rejects = true := ne_true_of_eq_false hrejects
  have hgreet := p.server.greet_eq p.clock
  rw [Server.greeting, if_neg haccepts, if_neg haccepts] at hgreet
  unfold connect ofTurn
  rw [hgreet]
  exact ⟨rfl, rfl, rfl, rfl⟩

/-- What a server that behaves itself writes on a connection, however the bytes are cut that it is
sent: an acknowledgement, and then the replies to the commands that the bytes hold. Every response
has a frame. The server closes the connection exactly if what follows these commands can never
become a frame. -/
theorem sendAll_of_frames (hrejects : p.server.rejects = false)
    (hmischief : p.server.mischief = .none) (segments : List Bytes) {commands : List Command}
    {ending : Request.Ending} (hframes : Request.frames segments.flatten = (commands, ending)) :
    p.connect.2 = [0x21] ∧
    (∃ replies,
      (commands.zip (p.server.cache.answers (Cache.atOnce p.clock commands))).mapM
        (fun (command, response) => Reply.encode command.shape response) = .ok replies ∧
      ∀ parts : List Bytes, parts.flatten = segments.flatten →
        (p.connect.1.sendAll parts).2 = replies.flatten) ∧
    (∀ (c : Cache) now command, ∃ b, Reply.encode command.shape (c.handle now command).2 = .ok b) ∧
    (p.connect.1.sendAll segments).1.server.cache =
      p.server.cache.after (Cache.atOnce p.clock commands) ∧
    (p.connect.1.sendAll segments).1.server.requestsReceived =
      p.server.requestsReceived + commands.length ∧
    ((p.connect.1.sendAll segments).1.isClosed = true ↔ ∃ fault, ending = .malformed fault) ∧
    (p.connect.1.sendAll segments).1.clock = p.clock := by
  obtain ⟨hack, hvisit, hclock, hserver⟩ := connect_of_accepts hrejects
  have hobeys : p.connect.1.server.mischief = .none := by
    rw [hserver]
    exact hmischief
  obtain ⟨count, hsent⟩ := sendAll_of_open hvisit hobeys segments hframes
  refine ⟨hack, ⟨_, Cache.mapM_encode _ _ _, fun parts hparts => ?_⟩,
    fun c now command => ⟨_, c.encode_handle now command⟩, ?_⟩
  · obtain ⟨_, hparts⟩ := sendAll_of_open hvisit hobeys parts (hparts ▸ hframes)
    rw [hparts, hserver, hclock]
  · rw [hsent, hserver, hclock]
    refine ⟨rfl, rfl, ?_, rfl⟩
    cases ending with
    | incomplete rest => exact iff_of_false nofun nofun
    | malformed fault => exact iff_of_true rfl ⟨fault, rfl⟩

/-- A value is stored by a request that comes in two parts, the server is asked for a sign of life
right behind it, and then comes a byte that begins no request. -/
theorem sendAll_of_frames_pipelined :
    ({} : Probe).server.rejects = false ∧ ({} : Probe).server.mischief = .none ∧
    Request.frames [[4, 1, 0, 0], [0, 107, 1, 0, 0, 0, 118, 0, 0, 0, 0, 0], [2]].flatten =
      ([.set [107] [118] none, .ping], .malformed (.unknownCommand 2)) ∧
    (({} : Probe).connect.1.sendAll
        [[4, 1, 0, 0], [0, 107, 1, 0, 0, 0, 118, 0, 0, 0, 0, 0], [2]]).2 =
      [0x21, 0x21, 4, 0, 0, 0, 112, 111, 110, 103] ∧
    (({} : Probe).connect.1.sendAll
        [[4, 1, 0, 0], [0, 107, 1, 0, 0, 0, 118, 0, 0, 0, 0, 0], [2]]).1.isClosed = true := by
  have hframes :
      Request.frames [[4, 1, 0, 0], [0, 107, 1, 0, 0, 0, 118, 0, 0, 0, 0, 0], [2]].flatten =
        ([.set [107] [118] none, .ping], .malformed (.unknownCommand 2)) := by
    have hset : Request.read (.start [4, 1, 0, 0, 0, 107, 1, 0, 0, 0, 118, 0, 0, 0, 0, 0, 2]) =
        .done (.set [107] [118] none) ⟨15, [0, 2]⟩ := by decide
    have hping : Request.read (.start [0, 2]) = .done .ping ⟨1, [2]⟩ := by decide
    have hfault : Request.read (.start [2]) = .malformed (.unknownCommand 2) := by decide
    have hrest : Request.frames [0, 2] = ([.ping], .malformed (.unknownCommand 2)) := by
      rw [Request.frames_of_done hping, Request.frames_of_malformed hfault]
    exact (Request.frames_of_done hset).trans (by rw [hrest])
  obtain ⟨-, ⟨replies, hreplies, hsent⟩, -, -, -, hclosed, -⟩ :=
    sendAll_of_frames (p := {}) rfl rfl _ hframes
  have hwritten : replies = [[0x21], [0x21, 4, 0, 0, 0, 112, 111, 110, 103]] := by
    rw [← Except.ok.injEq, ← hreplies]
    rfl
  refine ⟨rfl, rfl, hframes, ?_, hclosed.2 ⟨_, rfl⟩⟩
  rw [hsent _ rfl, hwritten]
  rfl

end Probe

end RemoteCache
