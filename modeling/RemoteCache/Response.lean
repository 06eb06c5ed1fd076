import RemoteCache.Command
import RemoteCache.Refusal

/-!
# Responses

## Main definitions

* `Status` — what a server reports about itself
* `Payload` — what a successful answer carries
* `Response` — a payload or a refusal
-/

namespace RemoteCache

/-- What a server reports about itself. -/
structure Status where
  pid : UInt32 := 0
  maxSize : UInt64 := 0
  usedSize : UInt64 := 0
  numObjects : UInt64 := 0
  /-- The resident memory. -/
  rss : UInt64 := 0
  /-- The highest resident memory so far. -/
  hwm : UInt64 := 0
  totalGets : UInt64 := 0
  totalSets : UInt64 := 0
  totalDels : UInt64 := 0
  /-- The share of requests for a value that found none. -/
  missRatio : Binary64 := .zero
  policies : List Policy := []
  policy : Policy := {}
  /-- Whether the server chooses the policy itself. -/
  isAutoPolicy : Bool := false
  /-- The seconds since the start. -/
  uptime : UInt64 := 0
deriving DecidableEq, Inhabited

/-- What a successful answer carries. -/
inductive Payload
  | ack
  | value (data : Bytes)
  | flag (isSet : Bool)
  | size (bytes : UInt32)
  /-- The seconds left to a key, zero for one that does not expire. -/
  | expiry (seconds : Int)
  | status (report : Status)
deriving DecidableEq, Inhabited

/-- The shape of the commands that a payload answers. -/
def Payload.shape : Payload → Shape
  | .ack => .ack
  | .value _ => .value
  | .flag _ => .flag
  | .size _ => .size
  | .expiry _ => .expiry
  | .status _ => .status

/-- An answer: a payload or a refusal. -/
inductive Response
  | ok (payload : Payload)
  | refused (refusal : Refusal)
deriving DecidableEq, Inhabited

end RemoteCache
