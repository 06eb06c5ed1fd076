import RemoteCache.Server.Basic

/-!
# The server and its callers

The server attends to connections one after the other, and only while a client waits for it. A new
connection stands in line until then, and so do the bytes that a client sends. A client that has
left is noticed when the next one connects: what it had sent is still read, and what it would have
been answered is lost.

A reply that is written one byte at a time keeps the server busy, for as long as somebody is
there to read it.

## Main definitions

* `Service.Caller` — the connection in front of the server
* `Service` — the server and the connection in front of it
* `Service.connect` — the next connection
* `Service.hear` — bytes arrive
* `Service.readyAt` — when the server can look at the connection in front of it
* `Service.answer` — the server looks at the connection in front of it

## Main results

* `Service.hear_append` — it makes no difference in how many parts bytes arrive
-/

namespace RemoteCache

/-- The connection in front of the server, which has not closed it. -/
structure Service.Caller where
  /-- What the server remembers of the connection, once it has accepted it. -/
  visit : Option Server.Visit := none
  /-- The bytes that have arrived and were not looked at. -/
  unread : Bytes := []
  /-- When the server will be done with a reply that it writes one byte at a time. -/
  busyUntil : Option Instant := none
deriving DecidableEq, Inhabited

/-- The server and the connection in front of it, if there is one. -/
structure Service where
  server : Server := {}
  caller : Option Service.Caller := none
deriving DecidableEq, Inhabited

namespace Service

/-- What the server does about a connection when it looks at it. The first pieces in which it
reads are no longer than the given lengths. -/
def Caller.turn (c : Caller) (server : Server) (now : Instant) (lengths : List Nat := []) :
    Server.Turn :=
  match c.visit with
  | none => server.accept now c.unread lengths
  | some visit => server.attend visit now c.unread lengths

/-- The next connection. The one before is looked at for the last time; its client has left, so
no reply keeps the server busy. -/
def connect (s : Service) (now : Instant) : Service where
  server :=
    match s.caller with
    | none => s.server
    | some caller => (caller.turn s.server now).server
  caller := some {}

/-- Bytes arrive. They are lost if the server has closed the connection. -/
def hear (s : Service) (b : Bytes) : Service :=
  { s with caller := s.caller.map fun caller => { caller with unread := caller.unread ++ b } }

/-- When the server can look at the connection in front of it. -/
def readyAt (s : Service) (now : Instant) : Instant :=
  match s.caller.bind Caller.busyUntil with
  | none => now
  | some time => max now time

/-- The service after a turn that began at an instant, and what the server wrote. -/
def ofTurn (start : Instant) (t : Server.Turn) : Service × List Server.Write :=
  let busyUntil := if start < t.time then some t.time else none
  ({ server := t.server, caller := t.visit.map fun visit => { visit, busyUntil } }, t.writes)

/-- The server looks at the connection in front of it, as soon as it is not busy. -/
def answer (s : Service) (now : Instant) (lengths : List Nat := []) :
    Service × List Server.Write :=
  match s.caller with
  | none => (s, [])
  | some caller => ofTurn (s.readyAt now) (caller.turn s.server (s.readyAt now) lengths)

/-- Whether the server has closed the connection. -/
def hasClosed (s : Service) : Bool := s.caller.isNone

/-- Whether the server keeps the connection open and will not answer on it again. -/
def isSilent (s : Service) : Bool :=
  (s.caller.bind Caller.visit).any fun visit => visit.isStalled

theorem hear_append (s : Service) (b c : Bytes) : s.hear (b ++ c) = (s.hear b).hear c := by
  cases h : s.caller <;> simp [hear, h]

end Service

end RemoteCache
