import RemoteCache.Connection

/-!
# The client

A client answers a program's questions to one cache. Every question is one command and one
response; a client that is not connected connects first. After a transport fault the client may
connect again and repeat the command, as often as it was allowed to. Refusals are final.

## Main definitions

* `Client` — how often a call may connect again
* `Client.start` — a client of the cache at an address
* `Client.execute` — a command and its response, with repetitions
* `Client.get`, `Client.set` and the other questions
-/

namespace RemoteCache

/-- A client of a cache. Its connection is part of the session that its calls act on. -/
structure Client where
  /-- How many times a call may connect again after a transport fault. -/
  reconnects : Int := 0
deriving DecidableEq, Inhabited

/-- What a program is told about the size of a cache. -/
structure CacheSize where
  maxSize : UInt64
  usedSize : UInt64
  numObjects : UInt64
deriving DecidableEq, Inhabited

/-- What a program is told about the policy of a cache. -/
structure PolicyInfo where
  policy : Policy
  policies : List Policy
  isAuto : Bool
deriving DecidableEq, Inhabited

/-- What a client shows of itself at any time. -/
structure Client.Appearance where
  endpoint : Endpoint := {}
  state : Link.State := .disconnected
  /-- Why its connection is broken; nothing when it is not. -/
  lastError : Bytes := []
deriving DecidableEq

namespace Client

open Session

/-- What a client shows of itself in a session. -/
def appearance (s : Session) : Appearance where
  endpoint := s.connection.endpoint
  state := s.connection.link.state
  lastError := s.connection.link.lastError

/-- What remains of a client whose connection was handed over to another: no endpoint, and no
connection. -/
def vacated : Appearance := {}

/-- A client of the cache at an address, not connected, and the session it begins. -/
def start (address : Bytes) (timeout connectTimeout reconnects : Int) (network : Network)
    (journal : Journal) : Except Failure (Client × Session) :=
  match Endpoint.read address with
  | .error fault => .error (.address address fault)
  | .ok endpoint =>
    .ok ({ reconnects }, { connection := { endpoint, timeout, connectTimeout }, network, journal })

/-- Opens the connection of a client. -/
def connect : Action Unit := Session.connect

/-- Closes the connection of a client, in whatever state it is, and opens it anew. -/
def reconnect : Action Unit := do
  Session.disconnect
  Session.connect

/-- Closes the connection of a client. -/
def disconnect : Action Unit := Session.disconnect

/-- The note in front of a repetition, which is counted from one. -/
def retryNote (command : Command) (failure : Failure) (attempt limit : Int) : Bytes :=
  command.name ++ Bytes.ascii " failed (" ++ failure.message ++
    Bytes.ascii "), reconnecting, attempt " ++ Numeral.ofInt attempt ++ Bytes.ascii "/" ++
    Numeral.ofInt limit

/-- One attempt at a command. An idle connection is opened first, a broken one only when the
command is repeated. -/
def attempt (command : Command) (isRepeated : Bool) : Action Response := do
  let s ← get
  match s.connection.link with
  | .up _ _ => roundTrip command
  | .idle =>
    Session.connect
    roundTrip command
  | .down _ =>
    -- On a connection that stays broken the round trip fails by itself.
    if isRepeated then Session.connect
    roundTrip command

/-- Whether a failed attempt may be repeated: a refusal is final, and so is any failure that has
not broken the connection. -/
def isRepeatable (failure : Failure) (link : Link) : Bool :=
  match failure, link with
  | .refused _ _, _ => false
  | _, .down _ => true
  | _, _ => false

/-- Attempts at a command, of which so many may still follow the first. -/
def attempts (client : Client) (command : Command) (isRepeated : Bool) :
    Nat → Action Response
  | 0 => attempt command isRepeated
  | left + 1 => fun s =>
    match attempt command isRepeated s with
    | .ok response s => .ok response s
    | .error failure s =>
      if isRepeatable failure s.connection.link then
        -- The repetitions are counted from one.
        let number := client.reconnects - left
        let s := s.addNote .warn (retryNote command failure number client.reconnects)
        attempts client command true left s
      else .error failure s

/-- A command and the response to it. A command that cannot be sent fails at once. -/
def execute (client : Client) (command : Command) : Action Response :=
  match command.check with
  | .error fault => throw (.argument command.name fault)
  | .ok () => client.attempts command false client.reconnects.toNat

/-- The payload of the response to a command; any refusal is a failure. -/
def expectOk (client : Client) (command : Command) : Action Payload := do
  match ← client.execute command with
  | .ok payload => return payload
  | .refused refusal => throw (.refused command.name refusal)

/-- The payload of the response to a command, or none for a key that is not there. -/
def expectFound (client : Client) (command : Command) : Action (Option Payload) := do
  match ← client.execute command with
  | .ok payload => return some payload
  | .refused refusal =>
    if refusal.isCache .keyNotFound then return none
    else throw (.refused command.name refusal)

/-- A failure for a payload that its command does not call for. -/
def foreign {α : Type} (command : Command) : Action α := throw (.foreignPayload command.name)

/-- The value in the payload of a response; any other payload is foreign to the command. -/
def valueOf (command : Command) : Payload → Action Bytes
  | .value data => return data
  | _ => foreign command

/-- Asks whether the server is there, and returns what it says. -/
def ping (client : Client) : Action Bytes := do valueOf .ping (← client.expectOk .ping)

/-- The version of the server. -/
def version (client : Client) : Action Bytes := do valueOf .version (← client.expectOk .version)

/-- The value that a command asks for, if its key is there. -/
def lookUp (client : Client) (command : Command) : Action (Option Bytes) := do
  match ← client.expectFound command with
  | none => return none
  | some payload => return some (← valueOf command payload)

/-- The value of a key, if it is there. -/
def get (client : Client) (key : Bytes) : Action (Option Bytes) := client.lookUp (.get key)

/-- The value of a key, without counting as a use of it. -/
def peek (client : Client) (key : Bytes) : Action (Option Bytes) := client.lookUp (.peek key)

/-- Stores a value under a key, with a lifetime in seconds or for ever. -/
def set (client : Client) (key value : Bytes) (ttl : Option Int) : Action Unit := do
  let _ ← client.expectOk (.set key value ttl)

/-- Deletes a key, and tells whether it was there. -/
def del (client : Client) (key : Bytes) : Action Bool := do
  return (← client.expectFound (.del key)).isSome

/-- Whether a key is there. -/
def has (client : Client) (key : Bytes) : Action Bool := do
  match ← client.expectOk (.has key) with
  | .flag isSet => return isSet
  | _ => foreign (.has key)

/-- The seconds left to a key; none if it is not there or does not expire. -/
def ttl (client : Client) (key : Bytes) : Action (Option Int) := do
  match ← client.expectFound (.getTtl key) with
  | none => return none
  | some (.expiry seconds) => return if seconds = 0 then none else some seconds
  | some _ => foreign (.getTtl key)

/-- Gives a key a new lifetime. A key that is not there is a failure. -/
def setTtl (client : Client) (key : Bytes) (ttl : Option Int) : Action Unit := do
  let _ ← client.expectOk (.setTtl key ttl)

/-- The length of the value of a key, if it is there. -/
def valueSize (client : Client) (key : Bytes) : Action (Option UInt32) := do
  match ← client.expectFound (.valueSize key) with
  | none => return none
  | some (.size bytes) => return some bytes
  | some _ => foreign (.valueSize key)

/-- What the cache reports about itself. -/
def status (client : Client) : Action Status := do
  match ← client.expectOk .getStatus with
  | .status report => return report
  | _ => foreign .getStatus

/-- The part of the report that is about room. -/
def size (client : Client) : Action CacheSize := do
  let report ← client.status
  return ⟨report.maxSize, report.usedSize, report.numObjects⟩

/-- The part of the report that is about policies. -/
def policy (client : Client) : Action PolicyInfo := do
  let report ← client.status
  return ⟨report.policy, report.policies, report.isAutoPolicy⟩

/-- Chooses the policy of the cache. -/
def setPolicy (client : Client) (policy : Policy) : Action Unit := do
  let _ ← client.expectOk (.setPolicy policy)

/-- Changes the capacity of the cache, in bytes. -/
def resize (client : Client) (capacity : Int) : Action Unit := do
  let _ ← client.expectOk (.resize capacity)

/-- Deletes all keys. -/
def wipe (client : Client) : Action Unit := do
  let _ ← client.expectOk .wipe

end Client

end RemoteCache
