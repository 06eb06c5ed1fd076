import RemoteCache.Endpoint
import RemoteCache.Network.Errno
import RemoteCache.Response
import RemoteCache.Wire.Field

/-!
# Failures

A call on a client fails for one of a few causes. The causes that break the connection are told
apart from those that leave it as it was: the client remembers why its connection broke.

## Main definitions

* `Obstacle` — why an address cannot be connected to
* `Breakdown` — why a connection broke
* `Failure` — why a call fails
* `Failure.Kind` — the kinds that callers tell apart
* `Breakdown.text`, `Failure.text` — the wording
* `Breakdown.failure` — what the call fails with during which the connection breaks

## Main results

* `Breakdown.text_ne_nil` — a broken connection always has something to say
-/

namespace RemoteCache

/-- Why an address cannot be connected to. -/
inductive Obstacle
  | noAddress
  | socket (e : Errno)
  | control (e : Errno)
  | connect (e : Errno)
  | poll (e : Errno)
  | outcome (e : Errno)
  | noDelay (e : Errno)
deriving DecidableEq, Inhabited

/-- The wording of an obstacle: the call and its reason. -/
def Obstacle.text : Obstacle → Bytes
  | .noAddress => Bytes.ascii "no usable address"
  | .socket e => Bytes.ascii "socket: " ++ e.text
  | .control e => Bytes.ascii "fcntl: " ++ e.text
  | .connect e => Bytes.ascii "connect: " ++ e.text
  | .poll e => Bytes.ascii "poll: " ++ e.text
  | .outcome e => Bytes.ascii "getsockopt: " ++ e.text
  | .noDelay e => Bytes.ascii "setsockopt(TCP_NODELAY): " ++ e.text

/-- Why a connection broke, or could not be opened. -/
inductive Breakdown
  | unresolved (host : Bytes) (e : ResolveError)
  | unreachable (endpoint : Endpoint) (obstacle : Obstacle)
  | connectTimedOut (endpoint : Endpoint)
  | rejected (refusal : Refusal)
  | unsolicited
  | sendFailed (e : Errno)
  | sendClosed
  | sendTimedOut
  | receiveFailed (e : Errno)
  | receiveTimedOut
  | pollFailed (e : Errno)
  | closed
  | closedMidResponse
  | invalidResponse (fault : Wire.Fault)
deriving DecidableEq, Inhabited

/-- The wording of a breakdown. The fault of a response is quoted up to its first zero byte. -/
def Breakdown.text : Breakdown → Bytes
  | .unresolved host e => Bytes.ascii "cannot resolve " ++ host ++ Bytes.ascii ": " ++ e.text
  | .unreachable endpoint obstacle =>
    Bytes.ascii "failed to connect to " ++ endpoint.text ++ Bytes.ascii ": " ++ obstacle.text
  | .connectTimedOut endpoint =>
    Bytes.ascii "connect to " ++ endpoint.text ++ Bytes.ascii " timed out"
  | .rejected refusal => Bytes.ascii "handshake rejected: " ++ refusal.message
  | .unsolicited => Bytes.ascii "unsolicited bytes from server"
  | .sendFailed e => Bytes.ascii "send: " ++ e.text
  | .sendClosed => Bytes.ascii "send: connection closed"
  | .sendTimedOut => Bytes.ascii "timed out waiting for request to be written"
  | .receiveFailed e => Bytes.ascii "recv: " ++ e.text
  | .receiveTimedOut => Bytes.ascii "timed out waiting for response"
  | .pollFailed e => Bytes.ascii "poll: " ++ e.text
  | .closed => Bytes.ascii "connection closed by server"
  | .closedMidResponse => Bytes.ascii "connection closed by server mid-response"
  | .invalidResponse fault =>
    Bytes.ascii "invalid response: " ++ Bytes.beforeNul fault.message

/-- Why a call fails. -/
inductive Failure
  | address (given : Bytes) (fault : Endpoint.Fault)
  | argument (operation : Bytes) (fault : Command.Fault)
  | notConnected (endpoint : Endpoint)
  /-- The connection had broken before. -/
  | broken (endpoint : Endpoint) (reason : Breakdown)
  /-- The connection broke during the call. -/
  | lost (reason : Breakdown)
  | refused (operation : Bytes) (refusal : Refusal)
  /-- A response carries another payload than its command calls for. -/
  | foreignPayload (operation : Bytes)
deriving DecidableEq, Inhabited

/-- What a call fails with during which the connection breaks. A refused greeting fails as a
refusal. -/
def Breakdown.failure : Breakdown → Failure
  | .rejected refusal => .refused (Bytes.ascii "CONNECT") refusal
  | reason => .lost reason

namespace Failure

/-- The kinds of failure that callers tell apart. -/
inductive Kind
  | address
  | argument
  | connection
  | codec
  | timeout
  | protocol
deriving DecidableEq

/-- The kind of failure that a lost connection is. -/
def kindOfBreakdown : Breakdown → Kind
  | .connectTimedOut _ | .sendTimedOut | .receiveTimedOut => .timeout
  | .unsolicited | .invalidResponse _ => .codec
  | .rejected _ => .protocol
  | _ => .connection

/-- The kind of a failure. -/
def kind : Failure → Kind
  | .address _ _ => .address
  | .argument _ _ => .argument
  | .notConnected _ | .broken _ _ => .connection
  | .lost reason => kindOfBreakdown reason
  | .refused _ _ => .protocol
  | .foreignPayload _ => .codec

/-- The wording of a failure. A response that cannot be read is worded by its fault alone. -/
def text : Failure → Bytes
  | .address given fault => Endpoint.refusalText given fault
  | .argument operation fault => operation ++ Bytes.ascii ": " ++ fault.text
  | .notConnected endpoint => Bytes.ascii "not connected to " ++ endpoint.text
  | .broken endpoint reason =>
    Bytes.ascii "connection to " ++ endpoint.text ++ Bytes.ascii " is faulted (" ++
      reason.text ++ Bytes.ascii "), reconnect first"
  | .lost (.invalidResponse fault) => fault.message
  | .lost reason => reason.text
  | .refused operation refusal => operation ++ Bytes.ascii " failed: " ++ refusal.message
  | .foreignPayload operation =>
    operation ++ Bytes.ascii ": reply payload does not match its command"

/-- The message of a failure, which ends before the first zero byte of its wording. -/
def message (f : Failure) : Bytes := Bytes.beforeNul f.text

end Failure

/-- A broken connection always has something to say. -/
theorem Breakdown.text_ne_nil (reason : Breakdown) : reason.text ≠ [] := by
  cases reason <;> simp [Breakdown.text, Bytes.ascii]

end RemoteCache
