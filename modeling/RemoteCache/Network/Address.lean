import RemoteCache.Failure
import RemoteCache.Network.Script

/-!
# Addresses

A name resolves to addresses, and each address answers an attempt to connect in its own way.

## Main definitions

* `Address` — how an address answers
* `Address.Answers` — what each call answers that is made on a socket to an address
* `Address.connectFreely` — connecting without a deadline
* `Address.connectUntil` — connecting with one, by a wait for the socket to become writable
* `Address.setback?` — what goes wrong once the connection is there
* `Attempt` — what one resolution of the name leads to
-/

namespace RemoteCache

/-- The steps of connecting at which an address can fail. -/
inductive Address.Stage
  | socket
  | connect
  | outcomeOfConnect
  | poll
  | askOutcome
  /-- The socket cannot be made non-blocking, for want of its present flags. -/
  | readFlags
  | setFlags
  | restoreFlags
  /-- The connected socket does not send small requests at once. -/
  | noDelay
deriving DecidableEq, Inhabited

/-- What a call to connect comes to that does not block. -/
inductive Address.Start
  | connected
  /-- The socket becomes writable once it is decided. -/
  | underWay
  | failed (e : Errno)
deriving DecidableEq, Inhabited

/-- What each call answers that is made on a socket to an address: why it fails, if it does. Calls
to connect are told apart by whether they block. -/
structure Address.Answers where
  /-- The calls to connect that fail where they block, in order: how long each of them lasts, and
  why it fails. -/
  failures : List (Span × Errno) := []
  /-- How long the call lasts that is made behind them, and gets through. -/
  delay : Span := 0
  readFlags : Option Errno := none
  setFlags : Option Errno := none
  /-- The call to connect that does not block. -/
  start : Address.Start := .underWay
  /-- What the wait for the socket lasts through. -/
  pauses : List Pause := []
  askOutcome : Option Errno := none
  /-- Why there is no connection after all. -/
  outcome : Option Errno := none
  restoreFlags : Option Errno := none
  noDelay : Option Errno := none
deriving DecidableEq, Inhabited

/-- How an address answers an attempt to connect. -/
inductive Address
  | reachable
  /-- The connection is there after a while; signals interrupt the wait for it. -/
  | pending (span : Span) (interruptions : Nat)
  | failing (stage : Address.Stage) (e : Errno)
  | silent
  /-- Every call on a socket to it is answered as told. -/
  | answering (answers : Address.Answers)
deriving DecidableEq, Inhabited

namespace Address

/-- How an attempt to connect ends. -/
inductive Result
  | connected
  | failed (obstacle : Obstacle)
  | timedOut
deriving DecidableEq, Inhabited

/-- Calls to connect that block, repeated for as long as signals interrupt them. -/
def connectAgain (delay : Span) : List (Span × Errno) → Instant → Result × Instant
  | [], now => (.connected, now + delay.nanoseconds)
  | (span, e) :: more, now =>
    let later := now + span.nanoseconds
    if e = .interrupted then connectAgain delay more later else (.failed (.connect e), later)

/-- Connecting with a deadline, call by call. -/
def Answers.connectUntil (limit : Instant) (a : Answers) (now : Instant) : Result × Instant :=
  match a.readFlags, a.setFlags, a.start with
  | some e, _, _ | none, some e, _ => (.failed (.control e), now)
  | none, none, .connected => (.connected, now)
  | none, none, .failed e => (.failed (.connect e), now)
  | none, none, .underWay =>
    match Pause.await (some limit) a.pauses now with
    | (.timedOut, time) => (.timedOut, time)
    | (.failed e, time) => (.failed (.poll e), time)
    | (.ready, time) =>
      match a.askOutcome, a.outcome with
      | some e, _ => (.failed (.outcome e), time)
      | none, some e => (.failed (.connect e), time)
      | none, none => (.connected, time)

/-- Connecting without a deadline: the call blocks until it is through. A call that a signal
interrupts is repeated. -/
def connectFreely (a : Address) (now : Instant) : Result × Instant :=
  match a with
  | .pending span _ => (.connected, now + span.nanoseconds)
  | .failing .connect e | .failing .outcomeOfConnect e =>
    if e = .interrupted then (.connected, now) else (.failed (.connect e), now)
  | .silent => (.failed (.connect .timedOut), now)
  | .answering answers => connectAgain answers.delay answers.failures now
  | .reachable | .failing _ _ => (.connected, now)

/-- Connecting with a deadline: the socket is made non-blocking, waited for, asked for the
outcome. A wait that a signal interrupts is repeated; the call to connect is not. -/
def connectUntil (limit : Instant) (a : Address) (now : Instant) : Result × Instant :=
  let left := (Deadline.granted limit now).nanoseconds
  match a with
  | .pending span _ =>
    if left < span.nanoseconds then (.timedOut, now + left)
    else (.connected, now + span.nanoseconds)
  | .silent => (.timedOut, now + left)
  | .failing .connect e | .failing .outcomeOfConnect e => (.failed (.connect e), now)
  | .failing .poll e => if e = .interrupted then (.connected, now) else (.failed (.poll e), now)
  | .failing .askOutcome e => (.failed (.outcome e), now)
  | .failing .readFlags e | .failing .setFlags e => (.failed (.control e), now)
  | .answering answers => answers.connectUntil limit now
  | .reachable | .failing .socket _ | .failing .restoreFlags _ | .failing .noDelay _ =>
    (.connected, now)

/-- Connects a socket to an address, and when that ends. -/
def connect (deadline : Deadline) (a : Address) (now : Instant) : Result × Instant :=
  match deadline with
  | none => a.connectFreely now
  | some limit => a.connectUntil limit now

/-- What keeps a socket from being used once it is connected. Only under a deadline was it made
non-blocking, and has to be made blocking again. -/
def setback? (deadline : Deadline) (a : Address) : Option Obstacle :=
  match a with
  | .failing .restoreFlags e => if deadline.isSome then some (.control e) else none
  | .failing .noDelay e => some (.noDelay e)
  | .answering answers =>
    match deadline, answers.restoreFlags with
    | some _, some e => some (.control e)
    | _, _ => answers.noDelay.map .noDelay
  | _ => none

end Address

/-- What one resolution of the name leads to. -/
structure Attempt where
  /-- How long the resolution takes. -/
  delay : Span := 0
  resolution : Except ResolveError (List Address) := .ok [.reachable]
  /-- What reading from the connected socket meets, unless the peer is a server. -/
  arrivals : Option (Script Arrival) := none
  departures : Script Departure := []

/-- A name with one address, at which nobody listens. -/
def Attempt.refusing : Attempt :=
  { resolution := .ok [.failing .connect .connectionRefused] }

end RemoteCache
