import RemoteCache.Console.Program

/-!
# The command line

The console on the terminal. The network that it finds holds one in-memory server, which takes
every connection.
-/

namespace RemoteCache

/-- Shows utterances, the earliest first. -/
def showAll (shown : List Utterance) : IO Unit := do
  for utterance in shown do
    let stream ←
      match utterance.channel with
      | .error => IO.getStderr
      | _ => IO.getStdout
    stream.write (ByteArray.mk utterance.text.toArray)
  (← IO.getStdout).flush

/-- Reads lines from the terminal and obeys them, until one quits or there are no more. -/
partial def converse (client : Client) (session : Session) : IO Unit := do
  let line ← (← IO.getStdin).getLine
  if line.isEmpty then showAll (session.hangUp.shownSince session)
  else
    let text := line.toUTF8.toList
    let text := if text.getLast? = some 10 then text.dropLast else text
    match Console.exchange client text session with
    | .ok goesOn next => do
      showAll (next.shownSince session)
      if goesOn then converse client next else showAll (next.hangUp.shownSince next)
    | .error _ next => showAll (next.shownSince session)

/-- What can be read from an open file. From a directory, that is nothing. -/
def readRest (file : IO.FS.Handle) : IO Bytes := do
  try
    return (← file.readBinToEnd).toList
  catch _ => return []

/-- The contents of the file that a command line names, if it names one that can be opened. -/
def contentsFor (words : List Bytes) : IO (Option Bytes) := do
  match Settings.Arguments.read words with
  | .ok (.run settings) =>
    match settings.path.bind fun path => String.fromUTF8? (ByteArray.mk path.toArray) with
    | none => return none
    | some path =>
      try
        return some (← readRest (← IO.FS.Handle.mk path .read))
      catch _ => return none
  | _ => return none

end RemoteCache

open RemoteCache in
/-- The console on the words of a command line. Once it is connected, it ends with the code zero. -/
def main (arguments : List String) : IO UInt32 := do
  let words := arguments.map fun argument => argument.toUTF8.toList
  let contents ← contentsFor words
  match Console.start words (fun _ => contents) { service := some {} } with
  | .over exit _ shown =>
    showAll shown
    return exit.toUInt32
  | .connected client session =>
    showAll session.shown.reverse
    converse client session
    return 0
