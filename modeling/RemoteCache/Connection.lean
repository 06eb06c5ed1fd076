import RemoteCache.Journal
import RemoteCache.Network.Basic

/-!
# Connections

A connection is one stream to one endpoint, with one request under way at a time. It is idle, up
or broken; a broken connection stays broken until it is opened anew or given up.

## Main definitions

* `Link` — the state of a connection
* `Connection` — an endpoint, two timeouts and a link
* `Session` — a connection, the network around it, its journal and what was shown
* `Session.Action` — what a call does to a session
* `Session.connect`, `Session.disconnect`, `Session.roundTrip` — the calls on a connection
-/

namespace RemoteCache

/-- The state of a connection. -/
inductive Link
  | idle
  /-- Connected, with bytes that were read and belong to no response yet. -/
  | up (socket : Socket) (pending : Bytes)
  | down (reason : Breakdown)
deriving DecidableEq

/-- The three states of a link. -/
inductive Link.State
  | disconnected
  | connected
  | faulted
deriving DecidableEq

/-- The state that a program is told. -/
def Link.state : Link → Link.State
  | .idle => .disconnected
  | .up _ _ => .connected
  | .down _ => .faulted

/-- Why a link is down; nothing when it is not. -/
def Link.lastError : Link → Bytes
  | .down reason => reason.text
  | _ => []

/-- The open socket, if the link is up. -/
def Link.socket? : Link → Option Socket
  | .up socket _ => some socket
  | _ => none

/-- A stream to an endpoint. -/
structure Connection where
  endpoint : Endpoint
  /-- The milliseconds that one request and its response may take; any number if not positive. -/
  timeout : Int := 0
  /-- The milliseconds that connecting may take, the greeting included; any number if not
  positive. -/
  connectTimeout : Int := 0
  link : Link := .idle

/-- A connection, the network around it, its journal and what was shown. -/
structure Session where
  connection : Connection
  network : Network := {}
  journal : Journal := {}
  /-- What was shown, the latest first. -/
  shown : List Utterance := []

namespace Session

/-- What a call does to a session: it ends with a value or a failure, and either way leaves the
session changed. -/
abbrev Action (α : Type) : Type := EStateM Failure Session α

/-- The session with another link. The socket of the old one is not closed. -/
def setLink (s : Session) (link : Link) : Session :=
  { s with connection := { s.connection with link } }

/-- A note is written to the journal, and the line is shown unless it is dropped. -/
def addNote (s : Session) (level : Level) (message : Bytes) : Session :=
  match s.journal.write ⟨level, message⟩ with
  | none => s
  | some line => { s with shown := line :: s.shown }

/-- The socket of the link is closed, if there is one. The link still has to be changed. -/
def dropSocket (s : Session) : Session :=
  match s.connection.link.socket? with
  | some socket => { s with network := s.network.close socket }
  | none => s

/-- The connection breaks: its socket is closed, and the reason is kept and noted. -/
def breakWith (s : Session) (reason : Breakdown) : Session :=
  ((s.dropSocket).setLink (.down reason)).addNote .warn
    (s.connection.endpoint.text ++ Bytes.ascii ": " ++ reason.text)

/-- Writes a note to the journal. -/
def note (level : Level) (message : Bytes) : Action Unit :=
  modify fun s => s.addNote level message

/-- The connection breaks, and the call fails for the same reason. -/
def breakDown {α : Type} (reason : Breakdown) : Action α := do
  modify fun s => s.breakWith reason
  throw reason.failure

/-- Closes the connection, in whatever state it is. -/
def hangUp (s : Session) : Session :=
  let closed := s.dropSocket
  let closed :=
    match s.connection.link with
    | .up _ _ =>
      closed.addNote .debug (Bytes.ascii "disconnected from " ++ s.connection.endpoint.text)
    | _ => closed
  closed.setLink .idle

/-- Closes the connection, in whatever state it is. -/
def disconnect : Action Unit := modify hangUp

/-- Opens a socket to the endpoint. The link is up from then on, before the peer has greeted. -/
def openSocket (deadline : Deadline) : Action Unit := do
  let s ← get
  match s.network.openSocket deadline s.connection.endpoint with
  | (.ok socket, network) => set ({ s with network }.setLink (.up socket []))
  | (.error reason, network) =>
    set { s with network }
    breakDown reason

/-- Reads a response of the given shape over the socket of the link. Bytes behind it are kept. -/
def awaitResponse (shape : Shape) (deadline : Deadline) : Action Response := do
  let s ← get
  match s.connection.link with
  | .up socket pending =>
    let (socket, network) := s.network.settle deadline socket
    match network.receive deadline shape socket.descriptor socket.arrivals pending with
    | (.ok received, network) =>
      let socket := { socket with arrivals := received.arrivals }
      set ({ s with network }.setLink (.up socket received.pending))
      return received.response
    | (.error reason, network) =>
      set { s with network }
      breakDown reason
  | .down reason => throw (.broken s.connection.endpoint reason)
  | .idle => throw (.notConnected s.connection.endpoint)

/-- Writes the whole frame of a request to the socket of the link. -/
def sendRequest (frame : Bytes) (deadline : Deadline) : Action Unit := do
  let s ← get
  match s.connection.link with
  | .up socket pending =>
    match s.network.sendAll deadline socket socket.departures frame with
    | (.ok departures, network) =>
      set ({ s with network }.setLink (.up { socket with departures } pending))
    | (.error reason, network) =>
      set { s with network }
      breakDown reason
  | .down reason => throw (.broken s.connection.endpoint reason)
  | .idle => throw (.notConnected s.connection.endpoint)

/-- Opens the connection, unless it is up: the name is resolved, a socket is connected, and the
peer greets. One deadline covers all of it. -/
def connect : Action Unit := do
  let s ← get
  match s.connection.link with
  | .up _ _ => return ()
  | _ =>
    let deadline := Deadline.after s.network.clock s.connection.connectTimeout
    note .debug (Bytes.ascii "connecting to " ++ s.connection.endpoint.text)
    openSocket deadline
    -- The peer speaks first, with an acknowledgement or a refusal.
    match ← awaitResponse .ack deadline with
    | .refused refusal => breakDown (.rejected refusal)
    | .ok _ => note .info (Bytes.ascii "connected to " ++ s.connection.endpoint.text)

/-- Sends a command and reads the response to it. A command that cannot be sent leaves everything
as it was; bytes that nobody asked for break the connection before anything is sent. -/
def roundTrip (command : Command) : Action Response := do
  let s ← get
  match s.connection.link with
  | .down reason => throw (.broken s.connection.endpoint reason)
  | .idle => throw (.notConnected s.connection.endpoint)
  | .up _ pending =>
    -- The frame is made before anything else, so that a bad command leaves no trace.
    match Request.frame command with
    | .error fault => throw (.argument command.name fault)
    | .ok frame =>
      -- Left-over bytes mean that requests and replies no longer match.
      if pending ≠ [] then breakDown .unsolicited
      else
        let deadline := Deadline.after s.network.clock s.connection.timeout
        note .debug (command.name ++ Bytes.ascii " -> " ++ s.connection.endpoint.text ++
          Bytes.ascii " (" ++ Numeral.ofNat frame.length ++ Bytes.ascii " bytes)")
        sendRequest frame deadline
        awaitResponse command.shape deadline

/-- What was shown since an earlier state of the session, the earliest first. -/
def shownSince (s earlier : Session) : List Utterance :=
  (s.shown.take (s.shown.length - earlier.shown.length)).reverse

/-- The calls made since an earlier state of the session, the latest first. -/
def callsSince (s earlier : Session) : List Call :=
  s.network.calls.take (s.network.calls.length - earlier.network.calls.length)

end Session

end RemoteCache
