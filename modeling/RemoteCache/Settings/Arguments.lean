import RemoteCache.Settings

/-!
# The command line

## Main definitions

* `Settings.Arguments.Switch` — the options that take a value
* `Settings.Arguments.Request` — what a command line asks for
* `Settings.Arguments.read` — reading a command line
* `Settings.Arguments.usage` — the help text
-/

namespace RemoteCache.Settings.Arguments

/-- The options that take a value. -/
inductive Switch
  | path
  | key (key : Key)
deriving DecidableEq

/-- The option that a word is, in its short or its long form. -/
def switch? (word : Bytes) : Option Switch :=
  if word = Bytes.ascii "-c" || word = Bytes.ascii "--config" then some .path
  else if word = Bytes.ascii "-a" || word = Bytes.ascii "--address" then some (.key .address)
  else if word = Bytes.ascii "-t" || word = Bytes.ascii "--timeout" then some (.key .timeout)
  else if word = Bytes.ascii "--connect-timeout" then some (.key .connectTimeout)
  else if word = Bytes.ascii "--reconnect" then some (.key .reconnects)
  else if word = Bytes.ascii "-l" || word = Bytes.ascii "--log-level" then some (.key .level)
  else none

/-- Whether a word asks for help, wherever an option may stand. -/
def asksHelp (word : Bytes) : Bool := word = Bytes.ascii "-h" || word = Bytes.ascii "--help"

/-- What a command line asks for. -/
inductive Request
  | help
  | run (settings : Settings)
deriving DecidableEq

/-- The settings after an option is given a value. -/
def apply (s : Settings) (switch : Switch) (value : Bytes) : Except Fault Settings :=
  match switch with
  | .path => .ok { s with path := some value }
  | .key key => s.assign key value

/-- Reads words from the left, an option and its value at a time, into given settings. -/
def readWords (s : Settings) : List Bytes → Except Fault Request
  | [] => .ok (.run s)
  | [word] => if asksHelp word then .ok .help else .error (.strayOption word)
  | word :: value :: more =>
    if asksHelp word then .ok .help
    else
      match switch? word with
      | none => .error (.strayOption word)
      | some switch => do
        let s ← apply s switch value
        readWords s more

/-- Reads a command line. A word ends before the first zero byte. -/
def read (words : List Bytes) : Except Fault Request :=
  readWords {} (words.map Bytes.beforeNul)

/-- The help text of a program. -/
def usage (program : Bytes) : Bytes :=
  Bytes.ascii "Usage: " ++ program ++ Bytes.ascii " [options]\n" ++ Bytes.ascii (
    "Options:\n" ++
    "  -c, --config FILE          Config file path\n" ++
    "  -a, --address ADDR         Server address (default: paper://127.0.0.1:3145)\n" ++
    "  -t, --timeout MS           Per-request timeout, 0 = none (default: 0)\n" ++
    "  --connect-timeout MS       Connect timeout, 0 = none (default: 0)\n" ++
    "  --reconnect N              Reconnect-and-retry attempts after a transport fault " ++
      "(default: 0)\n" ++
    "  -l, --log-level LEVEL      Log level: debug, info, warn, error, none\n" ++
    "  -h, --help                 Show this help\n")

end RemoteCache.Settings.Arguments
