import RemoteCache.Deadline
import RemoteCache.Network.Errno

/-!
# Scripts

A script tells what the calls on a socket meet, in order: events, and in front of each event the
pauses that a wait for it lasts through.

## Main definitions

* `Pause` — what a wait lasts through
* `Script` — events with the pauses in front of them
* `Arrival`, `Departure` — what reading from a socket and writing to it meet
* `Transit` — how bytes travel between a server and its client
* `Script.ofItems` — a script from a list of pauses and events
* `Pause.pass`, `Pause.await` — a wait through some pauses, without and with a deadline
-/

namespace RemoteCache

/-- What a wait for an event lasts through. -/
inductive Pause
  /-- The event comes so much later. -/
  | delay (span : Span)
  /-- The event comes after any deadline. A wait that nothing limits may never end then: what is
  said of it is said of the case that the event comes after all. -/
  | stall
  /-- The wait itself fails. -/
  | failed (e : Errno)
deriving DecidableEq, Inhabited

/-- An event and the pauses in front of it. -/
structure Timed (α : Type) where
  pauses : List Pause := []
  event : α
deriving DecidableEq

/-- Events with the pauses in front of them. -/
abbrev Script (α : Type) := List (Timed α)

/-- What reading from a socket meets. After the last event of a script the stream is at its
end. -/
inductive Arrival
  | segment (b : Bytes)
  | failed (e : Errno)
  | close
deriving DecidableEq, Inhabited

/-- What writing to a socket meets. After the last event of a script everything is taken. -/
inductive Departure
  /-- At most so many bytes are taken, or all of them. -/
  | accept (limit : Option Nat)
  | failed (e : Errno)
deriving DecidableEq, Inhabited

/-- The most bytes that one reading takes. -/
def Arrival.chunkSize : Nat := 4096

/-- The events by which a segment is read. Reading nothing at all is the end of the stream. -/
def Arrival.ofBytes (b : Bytes) : List Arrival :=
  if b.isEmpty then [.close] else (Bytes.pieces chunkSize b).map .segment

/-- How bytes travel between a server and its client, when the server looks at what it was sent. -/
structure Transit where
  /-- The lengths of the first pieces in which the server reads. -/
  requests : List Nat := []
  /-- What the first readings of the client meet: a segment of at most so many bytes or, where
  there is no number, a signal. -/
  replies : List (Option Nat) := []
deriving DecidableEq, Inhabited

/-- The events by which bytes are read, of which the first are given, and what is left of those. -/
def Arrival.cut : List (Option Nat) → Bytes → List Arrival × List (Option Nat)
  | [], b => (ofBytes b, [])
  | none :: readings, b =>
    let later := cut readings b
    (.failed .interrupted :: later.1, later.2)
  | some limit :: readings, b =>
    let length := max 1 (min limit chunkSize)
    if b.length ≤ length then (ofBytes b, readings)
    else
      let later := cut readings (b.drop length)
      (.segment (b.take length) :: later.1, later.2)

namespace Script

variable {α : Type}

/-- A script from pauses and events in order, after some pauses that were met already. Pauses
behind the last event stand in front of the event `last`. -/
def gather (last : α) : List Pause → List (Pause ⊕ α) → Script α
  | [], [] => []
  | pause :: pauses, [] => [⟨pause :: pauses, last⟩]
  | pauses, .inl pause :: more => gather last (pauses ++ [pause]) more
  | pauses, .inr event :: more => ⟨pauses, event⟩ :: gather last [] more

/-- A script from pauses and events in order. -/
def ofItems (last : α) (items : List (Pause ⊕ α)) : Script α := gather last [] items

/-- Events, the first of them behind some pauses. -/
def behind (pauses : List Pause) : List α → Script α
  | [] => []
  | event :: more => ⟨pauses, event⟩ :: more.map fun event => ⟨[], event⟩

end Script

/-- How a wait ends. -/
inductive Readiness
  | ready
  | timedOut
  | failed (e : Errno)
deriving DecidableEq, Inhabited

namespace Pause

/-- A wait that nothing limits, if it ends: it lasts as long as the delays do, and takes no notice
of anything else. -/
def pass : List Pause → Instant → Instant
  | [], now => now
  | .delay span :: rest, now => pass rest (now + span.nanoseconds)
  | .stall :: rest, now => pass rest now
  | .failed _ :: rest, now => pass rest now

/-- A wait of at most `left` nanoseconds, repeated with what is left until the limit whenever a
signal comes in between. -/
def awaitUntil (limit : Instant) : List Pause → Nat → Instant → Readiness × Instant
  | [], _, now => (.ready, now)
  | .delay span :: rest, left, now =>
    if left < span.nanoseconds then (.timedOut, now + left)
    else awaitUntil limit rest (left - span.nanoseconds) (now + span.nanoseconds)
  | .stall :: _, left, now => (.timedOut, now + left)
  | .failed e :: rest, _, now =>
    if e = .interrupted then awaitUntil limit rest (Deadline.granted limit now).nanoseconds now
    else (.failed e, now)

/-- A wait through some pauses. One before a deadline is given what is left until then. -/
def await (deadline : Deadline) (pauses : List Pause) (now : Instant) : Readiness × Instant :=
  match deadline with
  | none => (.ready, pass pauses now)
  | some limit => awaitUntil limit pauses (Deadline.granted limit now).nanoseconds now

end Pause

end RemoteCache
