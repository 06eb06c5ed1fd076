import RemoteCache.Network.Address
import RemoteCache.Server.Service

/-!
# The network

All that lies outside a client: the clock, the attempts to connect that are still to come, the
in-memory server if there is one, and a record of the calls that were made. Descriptors are
numbered in the order in which sockets are opened, and no number is used twice.

## Main definitions

* `Call` — a system call, as far as it is recorded
* `Call.openDescriptors`, `Call.sent`, `Call.resolutions` — what a record shows
* `Socket` — a connected socket
* `Network` — the world outside a client
* `Network.openSocket` — resolves a name and connects to the first address that will
* `Network.sendAll` — writes a request
* `Network.settle` — the server looks at what it was sent
* `Network.receive` — reads until a response is whole
-/

namespace RemoteCache

/-- A system call, as far as it is recorded. -/
inductive Call
  | resolve (host : Bytes) (port : UInt16)
  /-- A socket is asked for; the descriptor, if there is one. -/
  | socket (descriptor : Option Nat)
  /-- A descriptor is used without bytes passing: connecting, waiting, setting options. -/
  | use (descriptor : Nat)
  | send (descriptor : Nat) (b : Bytes)
  | receive (descriptor : Nat) (b : Bytes)
  | close (descriptor : Nat)
deriving DecidableEq, Inhabited

namespace Call

/-- The descriptors that are open after some calls, the latest call first. -/
def openDescriptors : List Call → List Nat
  | [] => []
  | .socket (some d) :: earlier => d :: openDescriptors earlier
  | .close d :: earlier => (openDescriptors earlier).erase d
  | _ :: earlier => openDescriptors earlier

/-- The bytes that some calls wrote, to whichever socket, the latest call first. -/
def sent : List Call → Bytes
  | [] => []
  | .send _ b :: earlier => sent earlier ++ b
  | _ :: earlier => sent earlier

/-- How often a name was resolved. -/
def resolutions (calls : List Call) : Nat :=
  calls.countP fun
    | .resolve _ _ => true
    | _ => false

end Call

/-- A connected socket. -/
structure Socket where
  descriptor : Nat
  /-- What reading meets. -/
  arrivals : Script Arrival
  /-- What writing meets. -/
  departures : Script Departure
  /-- Whether the peer is the in-memory server. -/
  isHosted : Bool
deriving DecidableEq

/-- The world outside a client. -/
structure Network where
  clock : Instant := 0
  /-- The attempts to connect that are still to come. -/
  attempts : List Attempt := []
  service : Option Service := none
  /-- How bytes will travel between the server and its client, one entry for each time that the
  server looks. Where there is none, they travel in pieces as long as can be. -/
  transits : List Transit := []
  nextDescriptor : Nat := 0
  /-- The calls so far, the latest first. -/
  calls : List Call := []

namespace Network

/-- A call is made, as far as that is recorded. -/
def record (n : Network) (call : Call) : Network := { n with calls := call :: n.calls }

/-- Some milliseconds pass, or the clock is set back. -/
def advance (n : Network) (ms : Int) : Network := { n with clock := n.clock + milliseconds ms }

/-- Time passes. -/
def pass (n : Network) (span : Span) : Network := { n with clock := n.clock + span.nanoseconds }

/-- The next attempt to connect. When the script has no more, a server takes every attempt, and
without one every attempt is refused. -/
def nextAttempt (n : Network) : Attempt × Network :=
  match n.attempts with
  | attempt :: more => (attempt, { n with attempts := more })
  | [] => (if n.service.isSome then {} else .refusing, n)

/-- Waits for a socket through some pauses. Only under a deadline is that a call of its own. -/
def wait (n : Network) (deadline : Deadline) (descriptor : Nat) (pauses : List Pause) :
    Readiness × Network :=
  let (readiness, time) := Pause.await deadline pauses n.clock
  let n := { n with clock := time }
  (readiness, if deadline.isSome then n.record (.use descriptor) else n)

/-- What reading meets when a server writes at given instants, and of that what the first readings
meet. -/
def arrivalsOf (readings : List (Option Nat)) (now : Instant) :
    List Server.Write → Script Arrival
  | [] => []
  | w :: more =>
    let lag := (w.time - now).toNat
    let pauses := if lag = 0 then [] else [Pause.delay ⟨lag⟩]
    let arrivals := Arrival.cut readings w.bytes
    Script.behind pauses arrivals.1 ++ arrivalsOf arrivals.2 (max now w.time) more

/-- What reading meets once a server has written all it has to write: the end of the stream if it
has closed, nothing ever if it has stopped answering. -/
def arrivalsAfter (s : Service) : Script Arrival :=
  if s.hasClosed then [⟨[], .close⟩]
  else if s.isSilent then [⟨[.stall], .close⟩]
  else []

/-- The peer of a new connection: the script of the attempt, or else the server. -/
def reach (n : Network) (attempt : Attempt) (descriptor : Nat) : Socket × Network :=
  let socket : Socket :=
    { descriptor, arrivals := attempt.arrivals.getD [], departures := attempt.departures,
      isHosted := false }
  match attempt.arrivals, n.service with
  -- Only an attempt without a script of its own leads to the server.
  | none, some service =>
    ({ socket with isHosted := true }, { n with service := some (service.connect n.clock) })
  | _, _ => (socket, n)

/-- A socket is closed. A server that is the peer takes no notice until the next connection. -/
def close (n : Network) (socket : Socket) : Network := n.record (.close socket.descriptor)

/-- How opening a socket ends. -/
inductive Opening
  | opened (socket : Socket)
  | failed (obstacle : Obstacle)
  | timedOut
deriving DecidableEq

/-- A descriptor that was not used before. -/
def openDescriptor (n : Network) : Nat × Network :=
  (n.nextDescriptor,
   { n with nextDescriptor := n.nextDescriptor + 1,
            calls := .socket (some n.nextDescriptor) :: n.calls })

/-- Tries addresses in order. The socket of an address that fails is closed before the next
address is tried; an address that lets the deadline pass is the last. -/
def tryAddresses (deadline : Deadline) (attempt : Attempt) :
    Obstacle → List Address → Network → Opening × Network
  | obstacle, [], n => (.failed obstacle, n)
  | _, .failing .socket e :: more, n =>
    tryAddresses deadline attempt (.socket e) more (n.record (.socket none))
  | _, address :: more, n =>
    let (descriptor, n) := n.openDescriptor
    let (result, time) := address.connect deadline n.clock
    let n := { n with clock := time }.record (.use descriptor)
    match result with
    | .timedOut => (.timedOut, n.record (.close descriptor))
    | .failed obstacle =>
      tryAddresses deadline attempt obstacle more (n.record (.close descriptor))
    | .connected =>
      let (socket, n) := n.reach attempt descriptor
      let n := n.record (.use descriptor)
      match address.setback? deadline with
      -- The peer has the connection in front of it by now, and will find it closed.
      | some obstacle => tryAddresses deadline attempt obstacle more (n.close socket)
      | none => (.opened socket, n)

/-- Resolves the name of an endpoint and connects to the first of its addresses that will. -/
def openSocket (n : Network) (deadline : Deadline) (endpoint : Endpoint) :
    Except Breakdown Socket × Network :=
  let (attempt, n) := n.nextAttempt
  let n := (n.record (.resolve endpoint.host endpoint.port)).pass attempt.delay
  match attempt.resolution with
  | .error e => (.error (.unresolved endpoint.host e), n)
  | .ok [] => (.error (.unresolved endpoint.host .noAddress), n)
  | .ok addresses =>
    match tryAddresses deadline attempt .noAddress addresses n with
    | (.opened socket, n) => (.ok socket, n)
    | (.failed obstacle, n) => (.error (.unreachable endpoint obstacle), n)
    | (.timedOut, n) => (.error (.connectTimedOut endpoint), n)

/-- Whether the peer of a socket is the server, and has closed. -/
def isGone (n : Network) (socket : Socket) : Bool :=
  socket.isHosted && n.service.any Service.hasClosed

/-- A socket takes bytes; a server that is the peer gets to see them when it looks. If the peer
has closed, the bytes are lost and the pipe is broken, even if there are none. -/
def deliver (n : Network) (socket : Socket) (b : Bytes) : Except Breakdown Unit × Network :=
  let sent := n.record (.send socket.descriptor b)
  if n.isGone socket then (.error (.sendFailed .brokenPipe), sent)
  else if socket.isHosted then
    (.ok (), { sent with service := n.service.map fun service => service.hear b })
  else (.ok (), sent)

/-- Writes bytes until all are taken, with what later writing will meet. -/
def sendAll (deadline : Deadline) (socket : Socket) :
    Script Departure → Bytes → Network → Except Breakdown (Script Departure) × Network
  | script, [], n => (.ok script, n)
  | [], b :: rest, n =>
    let (_, n) := n.wait deadline socket.descriptor []
    let (result, n) := n.deliver socket (b :: rest)
    (result.map fun _ => [], n)
  | event :: script, b :: rest, n =>
    match n.wait deadline socket.descriptor event.pauses with
    | (.timedOut, n) => (.error .sendTimedOut, n)
    | (.failed e, n) => (.error (.pollFailed e), n)
    | (.ready, n) =>
      match event.event with
      | .accept none =>
        let (result, n) := n.deliver socket (b :: rest)
        (result.map fun _ => script, n)
      | .accept (some limit) =>
        match n.deliver socket ((b :: rest).take limit) with
        | (.error reason, n) => (.error reason, n)
        | (.ok (), n) =>
          -- A call that takes nothing and does not fail tells of a closed connection.
          if limit = 0 then (.error .sendClosed, n)
          else sendAll deadline socket script ((b :: rest).drop limit) n
      | .failed e =>
        -- The call is repeated after a signal, with a wait of its own.
        if e = .interrupted then
          sendAll deadline socket script (b :: rest) (n.record (.send socket.descriptor []))
        else (.error (.sendFailed e), n.record (.send socket.descriptor []))

/-- A response that was read whole. -/
structure Received where
  response : Response
  /-- The bytes behind it that were read with it. -/
  pending : Bytes
  /-- What later reading will meet. -/
  arrivals : Script Arrival
deriving DecidableEq

/-- The end of a stream in front of a response, or inside it. -/
def endOfStream (pending : Bytes) : Breakdown :=
  if pending.isEmpty then .closed else .closedMidResponse

/-- Reads until the bytes make a response of the given shape. -/
def receive (deadline : Deadline) (shape : Shape) (descriptor : Nat) :
    Script Arrival → Bytes → Network → Except Breakdown Received × Network
  | script, pending, n =>
    match Reply.read shape (Wire.Cursor.start pending) with
    | .malformed fault => (.error (.invalidResponse fault), n)
    | .done response cursor => (.ok ⟨response, cursor.rest, script⟩, n)
    -- The frame is not whole, so there is more to read before anything can be said of it.
    | .short _ _ =>
      match script with
      | [] =>
        let (_, n) := n.wait deadline descriptor []
        (.error (endOfStream pending), n.record (.receive descriptor []))
      | event :: script =>
        match n.wait deadline descriptor event.pauses with
        | (.timedOut, n) => (.error .receiveTimedOut, n)
        | (.failed e, n) => (.error (.pollFailed e), n)
        | (.ready, n) =>
          match event.event with
          | .close => (.error (endOfStream pending), n.record (.receive descriptor []))
          | .segment b =>
            let n := n.record (.receive descriptor b)
            if b.isEmpty then (.error (endOfStream pending), n)
            else receive deadline shape descriptor script (pending ++ b) n
          | .failed e =>
            let n := n.record (.receive descriptor [])
            if e = .interrupted then receive deadline shape descriptor script pending n
            else (.error (.receiveFailed e), n)

/-- Whether a server is still busy when a wait under a deadline ends. -/
def outlasts (deadline : Deadline) (now : Instant) (service : Service) : Bool :=
  deadline.any fun limit =>
    now + (Deadline.granted limit now).nanoseconds < service.readyAt now

/-- A server that is the peer looks at what it was sent, and what it writes is there to read. If
it is busy for too long, it does not get to look, and nothing is there. -/
def settle (n : Network) (deadline : Deadline) (socket : Socket) : Socket × Network :=
  match socket.isHosted, n.service with
  | true, some service =>
    if outlasts deadline n.clock service then
      ({ socket with arrivals := socket.arrivals ++ [⟨[.stall], .close⟩] }, n)
    else
      let transit := n.transits.headD {}
      let (service, writes) := service.answer n.clock transit.requests
      let arrivals := arrivalsOf transit.replies n.clock writes ++ arrivalsAfter service
      ({ socket with arrivals := socket.arrivals ++ arrivals },
       { n with service := some service, transits := n.transits.tail })
  | _, _ => (socket, n)

end Network

end RemoteCache
