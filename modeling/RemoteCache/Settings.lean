import RemoteCache.Journal

/-!
# Settings

## Main definitions

* `Settings` — what a client is run with
* `Settings.Fault` — why a setting is refused
* `Settings.Key` — the settings that can be given by name
* `Settings.assign` — the settings after one of them is given a value
* `Settings.merge` — settings from the command line over those from a file
-/

namespace RemoteCache

/-- What a client is run with. -/
structure Settings where
  address : Bytes := Bytes.ascii "paper://127.0.0.1:3145"
  /-- The milliseconds a request may take; zero for any number. -/
  timeout : Int := 0
  /-- The milliseconds connecting may take; zero for any number. -/
  connectTimeout : Int := 0
  /-- How many times a call may connect again after a transport fault. -/
  reconnects : Int := 0
  level : Level := .warn
  path : Option Bytes := none
deriving DecidableEq, Inhabited

namespace Settings

/-- The settings that can be given by name. -/
inductive Key
  | address
  | timeout
  | connectTimeout
  | reconnects
  | level
deriving DecidableEq

namespace Key

/-- The name of a setting in a file and in messages. -/
def name : Key → Bytes
  | .address => Bytes.ascii "address"
  | .timeout => Bytes.ascii "timeout_ms"
  | .connectTimeout => Bytes.ascii "connect_timeout_ms"
  | .reconnects => Bytes.ascii "reconnect_attempts"
  | .level => Bytes.ascii "log_level"

/-- The setting with a name. -/
def read? (b : Bytes) : Option Key :=
  [Key.address, .timeout, .connectTimeout, .reconnects, .level].find? fun key => key.name == b

theorem read?_name (key : Key) : read? key.name = some key := by
  cases key <;> rfl

end Key

/-- Why a setting is refused. -/
inductive Fault
  | notInteger (key : Key) (value : Bytes)
  | notNatural (key : Key) (value : Bytes)
  | unknownLevel (key : Key) (value : Bytes)
  /-- A word of the command line that is no option, or an option that lacks its value. -/
  | strayOption (word : Bytes)
deriving DecidableEq

/-- The wording of a fault. -/
def Fault.text : Fault → Bytes
  | .notInteger key value =>
    key.name ++ Bytes.ascii ": expected an integer, got '" ++ value ++ Bytes.ascii "'"
  | .notNatural key value =>
    key.name ++ Bytes.ascii ": expected a non-negative integer, got '" ++ value ++ Bytes.ascii "'"
  | .unknownLevel key value =>
    key.name ++ Bytes.ascii ": unknown log level '" ++ value ++ Bytes.ascii "'"
  | .strayOption word => Bytes.ascii "unknown or incomplete option: " ++ word

/-- The message of a fault, which ends before the first zero byte. -/
def Fault.message (f : Fault) : Bytes := Bytes.beforeNul f.text

/-- The number that a value gives. A text that begins with no number of 64 bits is no integer;
one with a negative number, or with anything after it, is no natural number. -/
def readNumber (key : Key) (value : Bytes) : Except Fault Int :=
  match Numeral.readLeading? value with
  | none => .error (.notInteger key value)
  | some (n, rest) => if rest ≠ [] || n < 0 then .error (.notNatural key value) else .ok n

/-- The level that a value names. -/
def readLevel (key : Key) (value : Bytes) : Except Fault Level :=
  match Level.read? value with
  | none => .error (.unknownLevel key value)
  | some level => .ok level

/-- The settings after one of them is given a value. The number of reconnections keeps its low
32 bits, as a signed number. -/
def assign (s : Settings) (key : Key) (value : Bytes) : Except Fault Settings :=
  match key with
  | .address => .ok { s with address := value }
  | .timeout => do
    let timeout ← readNumber key value
    return { s with timeout }
  | .connectTimeout => do
    let connectTimeout ← readNumber key value
    return { s with connectTimeout }
  | .reconnects => do
    let n ← readNumber key value
    return { s with reconnects := n.bmod (2 ^ 32) }
  | .level => do
    let level ← readLevel key value
    return { s with level }

/-- The upper value, unless it is the default; then the lower one. -/
def override {α : Type} [DecidableEq α] (fallback lower upper : α) : α :=
  if upper ≠ fallback then upper else if lower ≠ fallback then lower else fallback

/-- Settings from the command line over those from a file, where a value that equals the default
counts as not given. The path is the command line's. -/
def merge (file commandLine defaults : Settings) : Settings where
  address := override defaults.address file.address commandLine.address
  timeout := override defaults.timeout file.timeout commandLine.timeout
  connectTimeout :=
    override defaults.connectTimeout file.connectTimeout commandLine.connectTimeout
  reconnects := override defaults.reconnects file.reconnects commandLine.reconnects
  level := override defaults.level file.level commandLine.level
  path := commandLine.path

end Settings

end RemoteCache
