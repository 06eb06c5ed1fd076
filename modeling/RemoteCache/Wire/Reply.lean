import RemoteCache.Response
import RemoteCache.Wire.Request

/-!
# Reply frames

A reply is a flag and then, if it is set, the payload of the shape that the command calls for. A
refusal follows a cleared flag: a byte zero and a cache's code, or a server's code alone.

## Main definitions

* `Reply.encode` — the frame of a response of a given shape
* `Reply.read` — the response of a given shape at the front of some bytes
-/

namespace RemoteCache.Reply

open Wire

/-- The bytes of a refusal: a cache's code stands behind a zero, a server's by itself. -/
def encodeRefusal (r : Refusal) : Bytes :=
  match r.origin with
  | .cache => flag false ++ [0, r.code]
  | .server => flag false ++ [r.code]

/-- The fields of a report, in the order in which they travel. -/
def encodeStatus (s : Status) : Bytes :=
  word32 s.pid.toNat ++ word64 s.maxSize.toNat ++ word64 s.usedSize.toNat ++
    word64 s.numObjects.toNat ++ word64 s.rss.toNat ++ word64 s.hwm.toNat ++
    word64 s.totalGets.toNat ++ word64 s.totalSets.toNat ++ word64 s.totalDels.toNat ++
    binary64 s.missRatio ++ word32 s.policies.length ++ s.policies.flatMap policy ++
    policy s.policy ++ flag s.isAutoPolicy ++ word64 s.uptime.toNat

/-- The fields of a payload of the given shape. Where nothing is written, any payload will do. -/
def encodePayload : Shape → Payload → Except Fault Bytes
  | .ack, _ => .ok []
  | .value, .value data => .ok (text data)
  | .flag, .flag isSet => .ok (flag isSet)
  | .size, .size n => .ok (word32 n.toNat)
  | .expiry, .expiry seconds => .ok (word32 (Request.secondsWord seconds))
  | .status, .status report => .ok (encodeStatus report)
  | shape, _ => .error (.payloadMismatch shape.index)

/-- The bytes of a response to a command of the given shape. -/
def encode (shape : Shape) : Response → Except Fault Bytes
  | .refused r => .ok (encodeRefusal r)
  | .ok payload => do
    let fields ← encodePayload shape payload
    return flag true ++ fields

/-- The refusal behind a cleared flag. A first code of zero announces that of a cache. -/
def readRefusal : Reader Refusal := do
  let code ← Reader.byte
  if code = 0 then return .ofCode .cache (← Reader.byte) else return .ofCode .server code

/-- The report with the fields in their order. -/
def readStatus : Reader Status := do
  let pid ← Reader.word32
  let maxSize ← Reader.word64
  let usedSize ← Reader.word64
  let numObjects ← Reader.word64
  let rss ← Reader.word64
  let hwm ← Reader.word64
  let totalGets ← Reader.word64
  let totalSets ← Reader.word64
  let totalDels ← Reader.word64
  let missRatio ← Reader.binary64
  let count ← Reader.word32
  let policies ← Reader.times Reader.policy count
  let policy ← Reader.policy
  let isAutoPolicy ← Reader.flag
  let uptime ← Reader.word64
  return {
    pid := pid.toUInt32, maxSize := maxSize.toUInt64, usedSize := usedSize.toUInt64,
    numObjects := numObjects.toUInt64, rss := rss.toUInt64, hwm := hwm.toUInt64,
    totalGets := totalGets.toUInt64, totalSets := totalSets.toUInt64,
    totalDels := totalDels.toUInt64, missRatio, policies, policy, isAutoPolicy,
    uptime := uptime.toUInt64 }

/-- The payload of the given shape. -/
def readPayload : Shape → Reader Payload
  | .ack => return .ack
  | .value => do return .value (← Reader.text)
  | .flag => do return .flag (← Reader.flag)
  | .size => do return .size (← Reader.word32).toUInt32
  | .expiry => do return .expiry (← Reader.word32)
  | .status => do return .status (← readStatus)

/-- The response of the given shape at the front of some bytes. -/
def read (shape : Shape) : Reader Response := do
  let accepted ← Reader.flag
  if accepted then return .ok (← readPayload shape) else return .refused (← readRefusal)

end RemoteCache.Reply
