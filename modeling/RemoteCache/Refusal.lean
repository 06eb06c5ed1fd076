import RemoteCache.Bytes

/-!
# Refusals

A peer that does not carry a request out answers with a refusal: which side of it refused, a
code, and the text that the code stands for.

## Main definitions

* `Origin` — the side of the peer that refused
* `CacheCode`, `ServerCode` — the codes that have a meaning, for each side
* `Refusal` — an error reply
* `Refusal.describe` — the text of a code
-/

namespace RemoteCache

/-- The side of a peer that refuses a request. -/
inductive Origin
  | cache
  | server
deriving DecidableEq, Inhabited

/-- The reasons of a cache. -/
inductive CacheCode
  | internal
  | keyNotFound
  | zeroValueSize
  | exceedingValueSize
  | zeroCacheSize
  | unconfiguredPolicy
  | invalidPolicy
deriving DecidableEq

/-- The reasons of a server. -/
inductive ServerCode
  | internal
  | maxConnectionsExceeded
  | unauthorized
deriving DecidableEq

/-- The code of a cache's reason on the wire. -/
def CacheCode.byte : CacheCode → UInt8
  | .internal => 0
  | .keyNotFound => 1
  | .zeroValueSize => 2
  | .exceedingValueSize => 3
  | .zeroCacheSize => 4
  | .unconfiguredPolicy => 5
  | .invalidPolicy => 6

/-- The code of a server's reason on the wire. Zero is none, since it announces a cache. -/
def ServerCode.byte : ServerCode → UInt8
  | .internal => 1
  | .maxConnectionsExceeded => 2
  | .unauthorized => 3

/-- An error reply. -/
structure Refusal where
  origin : Origin
  /-- The reason, as it was sent. -/
  code : UInt8
  /-- The reason in words. -/
  message : Bytes
deriving DecidableEq, Inhabited

namespace Refusal

/-- The words for a cache's code. A code without a meaning counts as internal. -/
def describeCache (code : UInt8) : Bytes :=
  match code.toNat with
  | 1 => Bytes.ascii "the key was not found in the cache"
  | 2 => Bytes.ascii "the value size cannot be zero"
  | 3 => Bytes.ascii "the value size cannot exceed the cache size"
  | 4 => Bytes.ascii "the cache size cannot be zero"
  | 5 => Bytes.ascii "unconfigured policy"
  | 6 => Bytes.ascii "invalid policy"
  | _ => Bytes.ascii "an internal cache error occurred"

/-- The words for a server's code. A code without a meaning counts as internal. -/
def describeServer (code : UInt8) : Bytes :=
  match code.toNat with
  | 2 => Bytes.ascii "the maximum number of connections was exceeded"
  | 3 => Bytes.ascii "unauthorized"
  | _ => Bytes.ascii "an internal server error occurred"

/-- The words for a code. -/
def describe : Origin → UInt8 → Bytes
  | .cache => describeCache
  | .server => describeServer

/-- The refusal with a given code, in that code's words. A code without a meaning is kept. -/
def ofCode (origin : Origin) (code : UInt8) : Refusal := ⟨origin, code, describe origin code⟩

/-- The refusal of a cache for a reason. -/
def ofCache (code : CacheCode) : Refusal := ofCode .cache code.byte

/-- The refusal of a server for a reason. -/
def ofServer (code : ServerCode) : Refusal := ofCode .server code.byte

/-- Whether a refusal is a cache's for the given reason. -/
def isCache (r : Refusal) (code : CacheCode) : Bool := r.origin == .cache && r.code == code.byte

/-- Whether a refusal is a server's for the given reason. -/
def isServer (r : Refusal) (code : ServerCode) : Bool :=
  r.origin == .server && r.code == code.byte

end Refusal

end RemoteCache
