import RemoteCache.Numeral

/-!
# Endpoints

An address names the scheme, a host and a port. A host that holds a colon stands in brackets.

## Main definitions

* `Endpoint` — a host and a port
* `Endpoint.text` — its address
* `Endpoint.Fault` — why a text is no address
* `Endpoint.read` — the endpoint that a text gives the address of
-/

namespace RemoteCache

/-- A host and a port. -/
structure Endpoint where
  /-- A name or a numeric address. -/
  host : Bytes := []
  /-- The port, by default the one that caches listen on. -/
  port : UInt16 := 3145
deriving DecidableEq, Inhabited

namespace Endpoint

/-- What the address of a cache begins with. -/
def scheme : Bytes := Bytes.ascii "paper"

/-- What stands between the scheme and the host. -/
def separator : Bytes := Bytes.ascii "://"

/-- The colon, which stands in front of the port. -/
def colon : UInt8 := 58

/-- The bracket in front of a host that holds a colon. -/
def openBracket : UInt8 := 91

/-- The bracket behind a host that holds a colon. -/
def closeBracket : UInt8 := 93

/-- A host as it stands in an address: in brackets if it holds a colon. -/
def hostText (host : Bytes) : Bytes :=
  if host.contains colon then openBracket :: host ++ [closeBracket] else host

/-- The address of an endpoint. -/
def text (e : Endpoint) : Bytes :=
  scheme ++ separator ++ hostText e.host ++ colon :: Numeral.ofNat e.port.toNat

/-- Why a text is no address. -/
inductive Fault
  | missingScheme
  | foreignScheme
  | openBracketOnly
  | missingPort
  | bareColons
  | missingHost
  | portNotNumeric
  | portOutOfRange
deriving DecidableEq

/-- The wording of a fault. -/
def Fault.text : Fault → Bytes
  | .missingScheme => Bytes.ascii "missing scheme"
  | .foreignScheme => Bytes.ascii "scheme must be '" ++ scheme ++ Bytes.ascii "'"
  | .openBracketOnly => Bytes.ascii "unterminated '['"
  | .missingPort => Bytes.ascii "missing port"
  | .bareColons => Bytes.ascii "ipv6 hosts must be written in brackets"
  | .missingHost => Bytes.ascii "missing host"
  | .portNotNumeric => Bytes.ascii "port must be numeric"
  | .portOutOfRange => Bytes.ascii "port out of range"

/-- The host and the text of the port, when the host stands in brackets. The first closing
bracket ends it. -/
def splitBracketed (afterBracket : Bytes) : Except Fault (Bytes × Bytes) :=
  match Bytes.cutAt? closeBracket afterBracket with
  | none => .error .openBracketOnly
  | some (_, []) => .error .missingPort
  | some (host, b :: port) => if b = colon then .ok (host, port) else .error .missingPort

/-- The host and the text of the port, when the host stands free. -/
def splitFree (b : Bytes) : Except Fault (Bytes × Bytes) :=
  match Bytes.cutAt? colon b with
  | none => .error .missingPort
  | some (host, port) => if port.contains colon then .error .bareColons else .ok (host, port)

/-- The host and the text of the port, whether or not the host stands in brackets. -/
def split : Bytes → Except Fault (Bytes × Bytes)
  | [] => splitFree []
  | b :: rest => if b = openBracket then splitBracketed rest else splitFree (b :: rest)

/-- The port that a text of decimal digits gives. A text that is no number, or none of 64 bits,
is not numeric. -/
def readPort (b : Bytes) : Except Fault UInt16 :=
  match Numeral.readDigits? (2 ^ 64) b with
  | none => .error .portNotNumeric
  | some n => if n = 0 || 65535 < n then .error .portOutOfRange else .ok n.toUInt16

/-- The endpoint that a text gives the address of. -/
def read (b : Bytes) : Except Fault Endpoint := do
  match Bytes.cutAtText? separator b with
  | none => .error .missingScheme
  | some (start, rest) =>
    if start ≠ scheme then .error .foreignScheme
    let (host, port) ← split rest
    -- What is missing is reported before what is malformed.
    if host.isEmpty then .error .missingHost
    if port.isEmpty then .error .missingPort
    let port ← readPort port
    return { host, port }

/-- The wording of the refusal of an address. -/
def refusalText (given : Bytes) (fault : Fault) : Bytes :=
  Bytes.ascii "invalid address '" ++ given ++ Bytes.ascii "': " ++ fault.text

end Endpoint

end RemoteCache
