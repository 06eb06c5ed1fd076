import RemoteCache.Response
import RemoteCache.Server.Store

/-!
# The cache

What the in-memory server does with each command: a store with lifetimes, a capacity that bounds
single values, a policy out of those configured, and counters.

## Main definitions

* `Cache` — the state that commands act on
* `Cache.handle` — the state after a command, and the response to it
* `Cache.secondsLeft` — a remaining lifetime in whole seconds, rounded up
-/

namespace RemoteCache

/-- The state that commands act on. The counters are kept as they are; what is reported of them is
what 64 bits hold. -/
structure Cache where
  pid : UInt32 := 4242
  version : Bytes := Bytes.ascii "0.1.0-fake"
  policies : List Policy :=
    [{ kind := .lfu }, { kind := .lru },
     { kind := .twoQ, kIn := ⟨0x3FD0000000000000⟩, kOut := ⟨0x3FE0000000000000⟩ }]
  policy : Policy := {}
  /-- The longest value that is stored, in bytes. -/
  capacity : Nat := 1048576
  store : Store := []
  totalGets : Nat := 0
  totalSets : Nat := 0
  totalDels : Nat := 0
  misses : Nat := 0
  startedAt : Instant := 0
deriving DecidableEq, Inhabited

namespace Cache

/-- A cache with the given policies, which begins with the first of them. -/
def withPolicies (c : Cache) (policies : List Policy) : Cache :=
  { c with policies, policy := policies.headD {} }

/-- The instant at which a lifetime that begins now ends; a lifetime of none or zero does not. -/
def expiryAfter (now : Instant) : Option Int → Option Instant
  | none => none
  | some ttl => if 0 < ttl then some (wrapInstant (now + seconds ttl)) else none

/-- The whole seconds from now to a later instant, rounded up, and at least one. -/
def secondsLeft (now limit : Instant) : Int :=
  max (-((now - limit) / seconds 1)) 1

/-- The share of requests for a value that found none: the quotient of the two counters, each of
them as the integer that a floating-point number can be. -/
def missRatio (c : Cache) : Binary64 :=
  if c.totalGets = 0 then .zero
  else
    let misses := Binary64.integerNear c.misses
    let totalGets := Binary64.integerNear c.totalGets
    (Binary64.nearest? false misses totalGets).getD .zero

/-- What the cache reports about itself. Entries that have expired count until they are looked
for. -/
def status (c : Cache) (now : Instant) : Status where
  pid := c.pid
  maxSize := c.capacity.toUInt64
  usedSize := c.store.usedSize.toUInt64
  numObjects := c.store.length.toUInt64
  totalGets := c.totalGets.toUInt64
  totalSets := c.totalSets.toUInt64
  totalDels := c.totalDels.toUInt64
  missRatio := c.missRatio
  policies := c.policies
  policy := c.policy
  -- On a clock that was set back before the start, the count runs down from zero and wraps.
  uptime := UInt64.ofInt ((now - c.startedAt).tdiv (seconds 1))

/-- The refusal of a cache, as a response. -/
def refuse (code : CacheCode) : Response := .refused (.ofCache code)

/-- The cache once a key has been looked for. -/
def settle (c : Cache) (now : Instant) (key : Bytes) : Cache :=
  { c with store := c.store.settle now key }

/-- The entry of a key as a response, or the refusal of a key that is not there. -/
def found (entry : Option Entry) (answer : Entry → Response) : Response :=
  match entry with
  | none => refuse .keyNotFound
  | some e => answer e

/-- Stores a value that is neither empty nor longer than the capacity. -/
def set (c : Cache) (now : Instant) (key value : Bytes) (ttl : Option Int) : Cache × Response :=
  -- The attempt is counted, whether or not it succeeds.
  let c := { c with totalSets := c.totalSets + 1 }
  if value.isEmpty then (c, refuse .zeroValueSize)
  else if c.capacity < value.length then (c, refuse .exceedingValueSize)
  else
    ({ c with store := c.store.insert key ⟨value, expiryAfter now ttl⟩ }, .ok .ack)

/-- The state after a command, and the response to it. -/
def handle (c : Cache) (now : Instant) : Command → Cache × Response
  | .ping => (c, .ok (.value (Bytes.ascii "pong")))
  | .version => (c, .ok (.value c.version))
  | .get key =>
    let entry := c.store.live? now key
    let c := c.settle now key
    ({ c with totalGets := c.totalGets + 1,
              misses := if entry.isNone then c.misses + 1 else c.misses },
     found entry fun e => .ok (.value e.value))
  | .peek key => (c.settle now key, found (c.store.live? now key) fun e => .ok (.value e.value))
  | .set key value ttl => c.set now key value ttl
  | .del key =>
    let entry := c.store.live? now key
    ({ c with totalDels := c.totalDels + 1, store := (c.store.settle now key).erase key },
     found entry fun _ => .ok .ack)
  | .has key => (c.settle now key, .ok (.flag (c.store.live? now key).isSome))
  | .setTtl key ttl =>
    match c.store.live? now key with
    | none => (c.settle now key, refuse .keyNotFound)
    | some e =>
      ({ c with store := c.store.insert key { e with expiry := expiryAfter now ttl } }, .ok .ack)
  | .getTtl key =>
    (c.settle now key, found (c.store.live? now key) fun e =>
      .ok (.expiry (match e.expiry with
        | none => 0
        | some limit => secondsLeft now limit)))
  | .valueSize key =>
    (c.settle now key, found (c.store.live? now key) fun e =>
      .ok (.size e.value.length.toUInt32))
  | .wipe => ({ c with store := [] }, .ok .ack)
  | .resize capacity =>
    if capacity = 0 then (c, refuse .zeroCacheSize)
    -- A capacity is kept without a sign.
    else ({ c with capacity := (capacity % 2 ^ 64).toNat }, .ok .ack)
  | .setPolicy policy =>
    if c.policies.any fun known => known.agrees policy then ({ c with policy }, .ok .ack)
    else (c, refuse .unconfiguredPolicy)
  | .getStatus => (c, .ok (.status (c.status now)))

end Cache

end RemoteCache
