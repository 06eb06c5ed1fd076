import RemoteCache.Console.Line
import RemoteCache.Settings.Arguments
import RemoteCache.Settings.File

/-!
# The console program

The program reads its command line and a settings file, connects, and then obeys the lines of its
standard input until one of them quits or there are no more.

## Main definitions

* `Console.start` — all that comes before the first line
* `Console.converse` — the lines
* `Console.run` — the whole program
-/

namespace RemoteCache.Console

open Session

/-- The name of the program in its help text. -/
def program : Bytes := Bytes.ascii "paper-cli"

/-- What stands in front of every line that is entered. -/
def prompt : Bytes := Bytes.ascii "> "

/-- A path in double quotes, with a backslash in front of every quote and backslash in it. -/
def quoted (path : Bytes) : Bytes :=
  34 :: path.flatMap (fun b => if b = 34 || b = 92 then [92, b] else [b]) ++ [34]

/-- A line on the error channel. -/
def complain (message : Bytes) : Utterance := ⟨.error, message ++ [10]⟩

/-- A message that ends the program. -/
def fatal (message : Bytes) : Utterance := complain (Bytes.ascii "Fatal: " ++ message)

/-- The settings out of a file, for a path that was asked for, and what is shown while reading
it. Without the file there are none, and that is said. -/
def readFile (readContents : Bytes → Option Bytes) :
    Option Bytes → List Utterance × Except Settings.Fault Settings
  | none => ([], .ok {})
  | some path =>
    match readContents path with
    | none =>
      ([complain (Bytes.ascii "Warning: Could not load config file: " ++ quoted path)], .ok {})
    | some contents =>
      let (notes, result) := Settings.File.read contents
      (Journal.writeAll {} notes, result)

/-- The program after all that comes before the first line. -/
inductive Opening
  /-- The program has ended. What was shown stands with the earliest first. -/
  | over (exit : Nat) (network : Network) (shown : List Utterance)
  /-- The program is connected and waits for lines. -/
  | connected (client : Client) (session : Session)

/-- Connects, and shows where to, and the first prompt. -/
def greet : Action Unit := do
  Client.connect
  sayLine (Bytes.ascii "Connected to " ++ (← get).connection.endpoint.text)
  say prompt

/-- Makes a client with the given settings and connects, after something was shown. -/
def openWith (settings : Settings) (network : Network) (shown : List Utterance) : Opening :=
  match Client.start settings.address settings.timeout settings.connectTimeout
      settings.reconnects network { level := settings.level } with
  | .error failure => .over 1 network (shown ++ [fatal failure.message])
  | .ok (client, session) =>
    match greet { session with shown := shown.reverse } with
    | .ok () session => .connected client session
    | .error failure session =>
      .over 1 session.network
        (session.shown.reverse ++ [complain (Bytes.ascii "Connection failed: " ++ failure.message)])

/-- All that comes before the first line: the command line, the settings file, connecting. -/
def start (words : List Bytes) (readContents : Bytes → Option Bytes) (network : Network) :
    Opening :=
  match Settings.Arguments.read words with
  | .error fault => .over 1 network [fatal fault.message]
  | .ok .help =>
    .over 0 network [⟨.output, Settings.Arguments.usage program⟩, ⟨.output, help⟩]
  | .ok (.run commandLine) =>
    let (shown, result) := readFile readContents commandLine.path
    match result with
    | .error fault => .over 1 network (shown ++ [fatal fault.message])
    | .ok file => openWith (Settings.merge file commandLine {}) network shown

/-- One line, and the prompt for the next. Whether the program goes on. -/
def exchange (client : Client) (line : Bytes) : Action Bool := do
  let goesOn ← enter client line
  if goesOn then say prompt
  return goesOn

/-- Lines in order, until one of them quits. -/
def converse (client : Client) : List Bytes → Action Unit
  | [] => return ()
  | line :: more => do
    if ← exchange client line then converse client more

/-- What a run of the program leaves behind. -/
structure Outcome where
  exit : Nat
  network : Network
  /-- What was shown, the earliest first. -/
  shown : List Utterance

/-- The whole program: its words, its files and its standard input, on a network. -/
def run (words : List Bytes) (readContents : Bytes → Option Bytes) (input : Bytes)
    (network : Network) : Outcome :=
  match start words readContents network with
  | .over exit network shown => { exit, network, shown }
  | .connected client session =>
    match converse client (Bytes.lines input) session with
    | .ok () session =>
      let session := session.hangUp
      { exit := 0, network := session.network, shown := session.shown.reverse }
    | .error failure session =>
      { exit := 1, network := session.network,
        shown := session.shown.reverse ++ [fatal failure.message] }

end RemoteCache.Console
