import RemoteCache.Policy

/-!
# Commands

## Main definitions

* `Command` — a request to the cache
* `Command.byte`, `Command.name`, `Command.shape` — its first byte on the wire, its name, and
  what a successful answer to it carries
* `Command.Fault` — why a command cannot be sent
* `Command.check` — the first fault of a command
-/

namespace RemoteCache

/-- What a successful answer carries. -/
inductive Shape
  | ack
  | value
  | flag
  | size
  | expiry
  | status
deriving DecidableEq, Inhabited

/-- The number by which messages name a shape. -/
def Shape.index : Shape → Nat
  | .ack => 0
  | .value => 1
  | .flag => 2
  | .size => 3
  | .expiry => 4
  | .status => 5

/-- A request to the cache. Lifetimes are in seconds, and none means for ever. -/
inductive Command
  | ping
  | version
  | get (key : Bytes)
  | set (key value : Bytes) (ttl : Option Int)
  | del (key : Bytes)
  | has (key : Bytes)
  | peek (key : Bytes)
  | setTtl (key : Bytes) (ttl : Option Int)
  /-- Asks for the lifetime that is left to a key. -/
  | getTtl (key : Bytes)
  | valueSize (key : Bytes)
  | wipe
  | resize (capacity : Int)
  | setPolicy (policy : Policy)
  | getStatus
deriving DecidableEq, Inhabited

namespace Command

/-- The byte that a frame begins with. The byte 2 belongs to no command. -/
def byte : Command → UInt8
  | .ping => 0
  | .version => 1
  | .get _ => 3
  | .set _ _ _ => 4
  | .del _ => 5
  | .has _ => 6
  | .peek _ => 7
  | .setTtl _ _ => 8
  | .valueSize _ => 9
  | .wipe => 10
  | .resize _ => 11
  | .setPolicy _ => 12
  | .getStatus => 13
  | .getTtl _ => 14

/-- The name of a command in messages. -/
def name : Command → Bytes
  | .ping => Bytes.ascii "PING"
  | .version => Bytes.ascii "VERSION"
  | .get _ => Bytes.ascii "GET"
  | .set _ _ _ => Bytes.ascii "SET"
  | .del _ => Bytes.ascii "DEL"
  | .has _ => Bytes.ascii "HAS"
  | .peek _ => Bytes.ascii "PEEK"
  | .setTtl _ _ => Bytes.ascii "TTL"
  | .getTtl _ => Bytes.ascii "EXPIRY"
  | .valueSize _ => Bytes.ascii "SIZE"
  | .wipe => Bytes.ascii "WIPE"
  | .resize _ => Bytes.ascii "RESIZE"
  | .setPolicy _ => Bytes.ascii "POLICY"
  | .getStatus => Bytes.ascii "STATUS"

/-- What a successful answer to a command carries. -/
def shape : Command → Shape
  | .ping | .version | .get _ | .peek _ => .value
  | .has _ => .flag
  | .valueSize _ => .size
  | .getTtl _ => .expiry
  | .getStatus => .status
  | .set _ _ _ | .del _ | .setTtl _ _ | .wipe | .resize _ | .setPolicy _ => .ack

/-- Why a command cannot be sent. -/
inductive Fault
  | emptyKey
  | longKey
  | longValue
  | negativeTtl
  | longTtl
  | negativeCapacity
  | unusableParameter
deriving DecidableEq

/-- The wording of a fault. -/
def Fault.text : Fault → Bytes
  | .emptyKey => Bytes.ascii "key must not be empty"
  | .longKey => Bytes.ascii "key too long"
  | .longValue => Bytes.ascii "value too large"
  | .negativeTtl => Bytes.ascii "ttl must not be negative"
  | .longTtl => Bytes.ascii "ttl too large"
  | .negativeCapacity => Bytes.ascii "capacity must not be negative"
  | .unusableParameter => Bytes.ascii "parameters must be finite and non-negative"

/-- The largest number that a 32-bit field holds. -/
def maxWord : Nat := 2 ^ 32 - 1

/-- A key has at least one byte, and its length fits a 32-bit field. -/
def checkKey (key : Bytes) : Except Fault Unit :=
  if key.isEmpty then .error .emptyKey
  else if maxWord < key.length then .error .longKey
  else .ok ()

/-- The length of a value fits a 32-bit field. -/
def checkValue (value : Bytes) : Except Fault Unit :=
  if maxWord < value.length then .error .longValue else .ok ()

/-- A lifetime is not negative and fits a 32-bit field. -/
def checkTtl : Option Int → Except Fault Unit
  | none => .ok ()
  | some ttl =>
    if ttl < 0 then .error .negativeTtl
    else if (maxWord : Int) < ttl then .error .longTtl
    else .ok ()

/-- A capacity is not negative. -/
def checkCapacity (capacity : Int) : Except Fault Unit :=
  if capacity < 0 then .error .negativeCapacity else .ok ()

/-- All parameters of a policy are finite and not below zero, also those its kind ignores. -/
def checkPolicy (policy : Policy) : Except Fault Unit :=
  if policy.parameters.all fun x => x.isFinite && !x.isBelowZero then .ok ()
  else .error .unusableParameter

/-- The first fault of a command. An empty value and a capacity of zero are left to the server
to refuse. -/
def check : Command → Except Fault Unit
  | .get key | .del key | .has key | .peek key | .getTtl key | .valueSize key => checkKey key
  | .set key value ttl => do
    checkKey key
    checkValue value
    checkTtl ttl
  | .setTtl key ttl => do
    checkKey key
    checkTtl ttl
  | .resize capacity => checkCapacity capacity
  | .setPolicy policy => checkPolicy policy
  | .ping | .version | .wipe | .getStatus => .ok ()

/-- A command without a fault, which can be sent. -/
def Valid (c : Command) : Prop := c.check = .ok ()

instance (c : Command) : Decidable c.Valid :=
  match h : c.check with
  | .ok () => .isTrue h
  | .error _ => .isFalse fun valid => by simp [Valid, h] at valid

end Command

end RemoteCache
