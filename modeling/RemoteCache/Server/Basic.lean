import RemoteCache.Endpoint
import RemoteCache.Server.Cache
import RemoteCache.Wire.Reply

/-!
# The in-memory server

The server attends to one connection at a time. It greets with an acknowledgement, reads bytes in
pieces, and answers each command as soon as its frame is complete. It can be told to misbehave
when it answers the next command.

## Main definitions

* `Server` — the server's state
* `Server.Mischief` — the ways to misbehave
* `Server.Visit` — what the server remembers of an open connection
* `Server.Turn` — the server after it has attended to a connection for a while, and what it wrote
* `Server.greet` — a connection is accepted
* `Server.answerAll` — commands are answered in order
* `Server.attend` — bytes are read and answered
* `Server.accept` — a connection is accepted, with bytes that have arrived on it already
-/

namespace RemoteCache

/-- The ways to misbehave when a command is answered. -/
inductive Server.Mischief
  | none
  /-- Closes and writes nothing. -/
  | closeBeforeResponse
  /-- Writes the first half of the reply and closes. -/
  | closeMidResponse
  /-- Writes one byte that begins no reply. -/
  | garbage
  /-- Never answers again, and keeps the connection open. -/
  | stall
  /-- Writes the reply one byte at a time. -/
  | split
deriving DecidableEq, Inhabited

/-- The state of the in-memory server. -/
structure Server where
  cache : Cache := { }
  rejects : Bool := false
  /-- How the answer to the next command goes wrong. -/
  mischief : Server.Mischief := .none
  bytesReceived : Nat := 0
  requestsReceived : Nat := 0
  connectionsAccepted : Nat := 0
deriving DecidableEq, Inhabited

namespace Server

/-- What the server remembers of an open connection. -/
structure Visit where
  /-- The bytes that were read and are not yet a whole frame. -/
  buffer : Bytes := []
  /-- Whether the server has stopped answering. -/
  isStalled : Bool := false
deriving DecidableEq, Inhabited

/-- Bytes that the server writes at an instant. -/
structure Write where
  time : Instant
  bytes : Bytes
deriving DecidableEq, Inhabited

/-- The server after it has attended to a connection for a while. -/
structure Turn where
  server : Server
  /-- The connection, or none if the server has closed it. -/
  visit : Option Visit
  /-- What was written, in order. -/
  writes : List Write := []
  /-- When the server has time again. -/
  time : Instant
deriving DecidableEq, Inhabited

/-- The frame of a response. The cache's responses have the shape of their commands; another
response would have no frame. -/
def frame (shape : Shape) (response : Response) : Bytes :=
  match Reply.encode shape response with
  | .ok b => b
  | .error _ => []

/-- The time between two bytes of a reply that is written one byte at a time. -/
def pace : Int := milliseconds 1

/-- A reply written one byte at a time. -/
def spread (now : Instant) : Bytes → List Write
  | [] => []
  | b :: rest => ⟨now, [b]⟩ :: spread (now + pace) rest

/-- A connection is accepted: the server greets it, or refuses it and closes. -/
def greet (s : Server) (now : Instant) : Turn :=
  let server := { s with connectionsAccepted := s.connectionsAccepted + 1 }
  if s.rejects then
    let refusal := Refusal.ofServer .maxConnectionsExceeded
    { server, visit := none, writes := [⟨now, frame .ack (.refused refusal)⟩], time := now }
  else { server, visit := some {}, writes := [⟨now, frame .ack (.ok .ack)⟩], time := now }

/-- Puts earlier writes in front of those of a turn. -/
def Turn.after (writes : List Write) (t : Turn) : Turn := { t with writes := writes ++ t.writes }

/-- The first half of a reply, which is never empty. -/
def firstHalf (reply : Bytes) : Bytes := reply.take (max 1 (reply.length / 2))

/-- Answers commands in order, as they stand in bytes that end in the given way. After bytes that
can never become a frame the server closes. A server that has stopped answering still looks at
the next frame, and closes if it is none. -/
def answerAll (s : Server) (now : Instant) : List Command → Request.Ending → Turn
  | [], .incomplete rest => { server := s, visit := some { buffer := rest }, time := now }
  | [], .malformed _ => { server := s, visit := none, time := now }
  | command :: more, ending =>
    let s' := { s with requestsReceived := s.requestsReceived + 1, mischief := .none }
    let (cache, response) := s.cache.handle now command
    let reply := frame command.shape response
    let served := { s' with cache }
    match s.mischief with
    -- The command has been read, but nothing is done about it.
    | .closeBeforeResponse => { server := s', visit := none, time := now }
    -- Of what follows, only the next frame is looked at; the rest is dropped.
    | .stall =>
      match more, ending with
      | [], .malformed _ => { server := s', visit := none, time := now }
      | _, _ => { server := s', visit := some { isStalled := true }, time := now }
    -- From here on the command has taken effect, whatever becomes of the reply.
    | .closeMidResponse =>
      { server := served, visit := none, writes := [⟨now, firstHalf reply⟩], time := now }
    | .garbage => (answerAll served now more ending).after [⟨now, [0]⟩]
    | .split =>
      (answerAll served (now + pace * reply.length) more ending).after (spread now reply)
    | .none => (answerAll served now more ending).after [⟨now, reply⟩]

/-- Reads one piece of bytes and answers what it completes. -/
def attendPiece (s : Server) (visit : Visit) (now : Instant) (piece : Bytes) : Turn :=
  let s := { s with bytesReceived := s.bytesReceived + piece.length }
  if visit.isStalled then { server := s, visit := some visit, time := now }
  else
    let (commands, ending) := Request.frames (visit.buffer ++ piece)
    answerAll s now commands ending

/-- Reads bytes piece by piece. What follows the piece after which the server closes is never
read. -/
def attendPieces (s : Server) (visit : Visit) (now : Instant) : List Bytes → Turn
  | [] => { server := s, visit := some visit, time := now }
  | piece :: more =>
    let turn := s.attendPiece visit now piece
    match turn.visit with
    | none => turn
    | some visit => (attendPieces turn.server visit turn.time more).after turn.writes

/-- The most bytes that are read at once. -/
def pieceSize : Nat := 4096

/-- Bytes are read, the first pieces of them no longer than the given lengths, and answered. -/
def attend (s : Server) (visit : Visit) (now : Instant) (b : Bytes) (lengths : List Nat := []) :
    Turn :=
  s.attendPieces visit now (Bytes.piecesBy pieceSize lengths b)

/-- A connection is accepted, and the bytes that have arrived on it already are answered. -/
def accept (s : Server) (now : Instant) (b : Bytes) (lengths : List Nat := []) : Turn :=
  let greeting := s.greet now
  match greeting.visit with
  | none => greeting
  | some visit => (greeting.server.attend visit now b lengths).after greeting.writes

/-- The value stored under a key. An entry that has expired is taken out. -/
def stored (s : Server) (now : Instant) (key : Bytes) : Server × Option Bytes :=
  ({ s with cache := s.cache.settle now key }, (s.cache.store.live? now key).map Entry.value)

/-- Where a server listens. -/
def endpoint : Endpoint := { host := Bytes.ascii "127.0.0.1", port := 3145 }

end Server

end RemoteCache
