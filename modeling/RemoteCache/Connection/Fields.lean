import RemoteCache.Connection

/-!
# A connection in four fields

A link cannot be up without a socket, or broken without a reason. Here a connection is kept in four
fields that know nothing of each other: the socket, the state, the last error, and the bytes that
were read and belong to no response yet. Every call sets and clears them one at a time, so that
nothing but its steps keeps them together. Wherever a call fails, it breaks the connection there and
then, and throws what it finds in the last error.

Both descriptions of a connection come to the same. This one says how the fields are kept; a link
says what there is to know about them.

## Main definitions

* `Thrown` — what a call throws
* `Session.Fields` — a session whose connection is kept in four fields
* `Session.Fields.Action` — what a call does to the fields
* `Session.Fields.fault` — the connection breaks
* `Session.Fields.connect`, `Session.Fields.disconnect`, `Session.Fields.roundTrip` — the calls on a
  connection
-/

namespace RemoteCache

/-- What a call throws: the kind of failure and its wording, and with a refusal what was refused. -/
structure Thrown where
  kind : Failure.Kind
  text : Bytes
  refusal? : Option Refusal := none
deriving DecidableEq

/-- What is thrown for a failure. -/
def Failure.thrown (failure : Failure) : Thrown where
  kind := failure.kind
  text := failure.text
  refusal? :=
    match failure with
    | .refused _ refusal => some refusal
    | _ => none

namespace Session

/-- A session whose connection is kept in four fields, each of which is set by itself. -/
structure Fields where
  endpoint : Endpoint
  timeout : Int := 0
  connectTimeout : Int := 0
  /-- The open socket, if there is one. -/
  socket? : Option Socket := none
  state : Link.State := .disconnected
  lastError : Bytes := []
  /-- The bytes that were read and belong to no response yet. -/
  buffer : Bytes := []
  network : Network := {}
  journal : Journal := {}
  /-- What was shown, the latest first. -/
  shown : List Utterance := []

namespace Fields

/-- What a call does to the fields: it returns a value or throws, and either way leaves the fields
changed. -/
abbrev Action (α : Type) : Type := EStateM Thrown Fields α

/-! ### One field at a time -/

/-- Sets the socket, and closes none. -/
def setSocket (socket? : Option Socket) : Action Unit := modify fun f => { f with socket? }

/-- Sets the state alone. -/
def setState (state : Link.State) : Action Unit := modify fun f => { f with state }

/-- Sets the last error alone. -/
def setLastError (lastError : Bytes) : Action Unit := modify fun f => { f with lastError }

/-- Sets the bytes that were read and belong to no response yet. -/
def setBuffer (buffer : Bytes) : Action Unit := modify fun f => { f with buffer }

/-- Sets the network as a call has left it. -/
def setNetwork (network : Network) : Action Unit := modify fun f => { f with network }

/-- A system call is made, as far as that is recorded. -/
def record (call : Call) : Action Unit :=
  modify fun f => { f with network := f.network.record call }

/-- Writes a note to the journal. -/
def note (level : Level) (message : Bytes) : Action Unit :=
  modify fun f =>
    match f.journal.write ⟨level, message⟩ with
    | none => f
    | some line => { f with shown := line :: f.shown }

/-! ### Failing -/

/-- Closes the socket, if there is one. -/
def closeSocket : Action Unit := do
  let f ← get
  match f.socket? with
  | some socket =>
    setNetwork (f.network.close socket)
    setSocket none
  | none => return ()

/-- The connection breaks: its socket is closed, the bytes that were read are dropped, and the
reason is kept and noted. -/
def fault (reason : Bytes) : Action Unit := do
  closeSocket
  setBuffer []
  setState .faulted
  setLastError reason
  note .warn ((← get).endpoint.text ++ Bytes.ascii ": " ++ reason)

/-- The connection breaks, and the call throws what is the last error by then. -/
def giveUp {α : Type} (kind : Failure.Kind) (reason : Bytes) : Action α := do
  fault reason
  throw { kind, text := (← get).lastError }

/-! ### The parts of calls -/

/-- Connects to the first of some addresses that will. The sockets of the others are closed on the
way, and none of them was ever in the field. -/
def openFirst (deadline : Deadline) (attempt : Attempt) (addresses : List Address) :
    Action Socket := do
  let f ← get
  let (opening, network) := f.network.tryAddresses deadline attempt .noAddress addresses
  setNetwork network
  match opening with
  | .opened socket => return socket
  | .timedOut =>
    giveUp .timeout (Bytes.ascii "connect to " ++ f.endpoint.text ++ Bytes.ascii " timed out")
  | .failed obstacle =>
    giveUp .connection (Bytes.ascii "failed to connect to " ++ f.endpoint.text ++
      Bytes.ascii ": " ++ obstacle.text)

/-- Resolves the name of the endpoint and connects to one of its addresses. -/
def openSocket (deadline : Deadline) : Action Socket := do
  let f ← get
  let (attempt, network) := f.network.nextAttempt
  let resolving := network.record (.resolve f.endpoint.host f.endpoint.port)
  setNetwork (resolving.pass attempt.delay)
  match attempt.resolution with
  | .error e =>
    giveUp .connection
      (Bytes.ascii "cannot resolve " ++ f.endpoint.host ++ Bytes.ascii ": " ++ e.text)
  | .ok [] =>
    giveUp .connection (Bytes.ascii "cannot resolve " ++ f.endpoint.host ++ Bytes.ascii ": " ++
      ResolveError.noAddress.text)
  | .ok addresses => openFirst deadline attempt addresses

/-- Opens a socket and keeps it. From now on the connection is up, though nobody has greeted yet. -/
def keepSocket (deadline : Deadline) : Action Unit := do
  let socket ← openSocket deadline
  setSocket (some socket)
  setState .connected
  setLastError []

/-- Waits for a socket, if there is a deadline. Without one the next call on it waits by itself. -/
def waitFor (deadline : Deadline) (socket : Socket) (pauses : List Pause) (what : Bytes) :
    Action Unit := do
  let (readiness, network) := (← get).network.wait deadline socket.descriptor pauses
  setNetwork network
  match readiness with
  | .ready => return ()
  | .timedOut => giveUp .timeout (Bytes.ascii "timed out waiting for " ++ what)
  | .failed e => giveUp .connection (Bytes.ascii "poll: " ++ e.text)

/-- One call that writes, and is not interrupted. -/
def send (socket : Socket) (b : Bytes) : Action Unit := do
  let (result, network) := (← get).network.deliver socket b
  setNetwork network
  match result with
  | .ok () => return ()
  | .error reason => giveUp .connection reason.text

/-- Writes bytes until all are taken. -/
def sendAll (deadline : Deadline) (socket : Socket) : Script Departure → Bytes → Action Unit
  | script, [] => setSocket (some { socket with departures := script })
  | [], b :: rest => do
    waitFor deadline socket [] (Bytes.ascii "request to be written")
    send socket (b :: rest)
    setSocket (some { socket with departures := [] })
  | event :: script, b :: rest => do
    waitFor deadline socket event.pauses (Bytes.ascii "request to be written")
    match event.event with
    | .accept none =>
      send socket (b :: rest)
      setSocket (some { socket with departures := script })
    | .accept (some limit) =>
      send socket ((b :: rest).take limit)
      if limit = 0 then giveUp .connection (Bytes.ascii "send: connection closed")
      else sendAll deadline socket script ((b :: rest).drop limit)
    | .failed e =>
      record (.send socket.descriptor [])
      if e = .interrupted then sendAll deadline socket script (b :: rest)
      else giveUp .connection (Bytes.ascii "send: " ++ e.text)

/-- The end of a stream in front of a response, or inside it. -/
def endOfStream {α : Type} : Action α := do
  if (← get).buffer.isEmpty then giveUp .connection (Bytes.ascii "connection closed by server")
  else giveUp .connection (Bytes.ascii "connection closed by server mid-response")

/-- Takes a response of the given shape out of the buffer, if there is a whole one. -/
def takeResponse (shape : Shape) : Action (Option Response) := do
  match Reply.read shape (Wire.Cursor.start (← get).buffer) with
  | .malformed reason =>
    fault (Bytes.ascii "invalid response: " ++ Bytes.beforeNul reason.message)
    throw { kind := .codec, text := reason.message }
  | .done response cursor =>
    setBuffer cursor.rest
    return some response
  | .short _ _ => return none

/-- One call that reads, by what it meets. If it is interrupted or brings bytes, `more` follows. -/
def receive (socket : Socket) (more : Action Response) : Arrival → Action Response
  | .close => do
    record (.receive socket.descriptor [])
    endOfStream
  | .segment b => do
    record (.receive socket.descriptor b)
    if b.isEmpty then endOfStream
    else
      setBuffer ((← get).buffer ++ b)
      more
  | .failed e => do
    record (.receive socket.descriptor [])
    if e = .interrupted then more
    else giveUp .connection (Bytes.ascii "recv: " ++ e.text)

/-- Reads until there is a whole response of the given shape in the buffer. -/
def readResponse (deadline : Deadline) (shape : Shape) (socket : Socket) :
    Script Arrival → Action Response
  | [] => do
    match ← takeResponse shape with
    | some response =>
      setSocket (some { socket with arrivals := [] })
      return response
    | none =>
      waitFor deadline socket [] (Bytes.ascii "response")
      -- After the last event the stream is at its end.
      record (.receive socket.descriptor [])
      endOfStream
  | event :: script => do
    match ← takeResponse shape with
    | some response =>
      setSocket (some { socket with arrivals := event :: script })
      return response
    | none =>
      waitFor deadline socket event.pauses (Bytes.ascii "response")
      receive socket (readResponse deadline shape socket script) event.event

/-- A call that finds no socket. Nothing is ever ready then, so that a wait runs out; if there is no
deadline to wait for, the system refuses the call itself. -/
def callNone {α : Type} (deadline : Deadline) (what call : Bytes) : Action α := do
  let n := (← get).network
  match deadline with
  | some limit =>
    setNetwork (n.pass (Deadline.granted limit n.clock))
    giveUp .timeout (Bytes.ascii "timed out waiting for " ++ what)
  | none => giveUp .connection (call ++ Bytes.ascii ": " ++ Errno.badDescriptor.text)

/-- Writes a request to the socket in the field. -/
def sendRequest (frame : Bytes) (deadline : Deadline) : Action Unit := do
  match (← get).socket? with
  | some socket => sendAll deadline socket socket.departures frame
  | none => callNone deadline (Bytes.ascii "request to be written") (Bytes.ascii "send")

/-- Reads a response from the socket in the field, unless there is a whole one already. -/
def awaitResponse (shape : Shape) (deadline : Deadline) : Action Response := do
  let f ← get
  match f.socket? with
  | some socket =>
    -- A server that is the peer looks at what it was sent.
    let settled := f.network.settle deadline socket
    setNetwork settled.2
    readResponse deadline shape settled.1 settled.1.arrivals
  | none =>
    match ← takeResponse shape with
    | some response => return response
    | none => callNone deadline (Bytes.ascii "response") (Bytes.ascii "recv")

/-! ### Calls -/

/-- Opens the connection, unless its state is that it is connected. -/
def connect : Action Unit := do
  let f ← get
  if f.state = .connected then return ()
  else
    closeSocket
    setBuffer []
    let deadline := Deadline.after f.network.clock f.connectTimeout
    note .debug (Bytes.ascii "connecting to " ++ f.endpoint.text)
    keepSocket deadline
    match ← awaitResponse .ack deadline with
    | .refused refusal =>
      fault (Bytes.ascii "handshake rejected: " ++ refusal.message)
      throw (Failure.refused (Bytes.ascii "CONNECT") refusal).thrown
    | .ok _ => note .info (Bytes.ascii "connected to " ++ f.endpoint.text)

/-- Closes the connection, in whatever state it is. -/
def disconnect : Action Unit := do
  closeSocket
  let f ← get
  if f.state = .connected then
    note .debug (Bytes.ascii "disconnected from " ++ f.endpoint.text)
  setState .disconnected
  setLastError []
  setBuffer []

/-- Sends a command and reads the response to it. -/
def roundTrip (command : Command) : Action Response := do
  let f ← get
  match f.state with
  | .faulted =>
    throw { kind := .connection, text := Bytes.ascii "connection to " ++ f.endpoint.text ++
      Bytes.ascii " is faulted (" ++ f.lastError ++ Bytes.ascii "), reconnect first" }
  | .disconnected =>
    throw { kind := .connection, text := Bytes.ascii "not connected to " ++ f.endpoint.text }
  | .connected =>
    match Request.frame command with
    | .error reason => throw (Failure.argument command.name reason).thrown
    | .ok frame =>
      if f.buffer ≠ [] then giveUp .codec (Bytes.ascii "unsolicited bytes from server")
      else
        let deadline := Deadline.after f.network.clock f.timeout
        note .debug (command.name ++ Bytes.ascii " -> " ++ f.endpoint.text ++
          Bytes.ascii " (" ++ Numeral.ofNat frame.length ++ Bytes.ascii " bytes)")
        sendRequest frame deadline
        awaitResponse command.shape deadline

end Fields

end Session

end RemoteCache
