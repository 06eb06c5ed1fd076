import RemoteCache.Server.Basic

/-!
# Probes

A probe is a client that sends raw bytes to a server and takes in all that the server writes,
however long that takes. Nothing is left unread on either side between two of its steps.

## Main definitions

* `Probe` — the time, a server and what it remembers of the probe
* `Probe.connect`, `Probe.send`, `Probe.close`, `Probe.advance` — the steps
* `Probe.isClosed` — whether the connection is closed
-/

namespace RemoteCache

/-- A client that sends raw bytes and takes in all that is written, however long that takes. -/
structure Probe where
  clock : Instant := 0
  server : Server := {}
  /-- What the server remembers of the connection, if that is open. -/
  visit : Option Server.Visit := none
deriving DecidableEq, Inhabited

namespace Probe

/-- The client once everything is written, and what it took in. -/
def ofTurn (t : Server.Turn) : Probe × Bytes :=
  ({ clock := t.time, server := t.server, visit := t.visit },
   t.writes.flatMap Server.Write.bytes)

/-- The connection is closed, and the server forgets it. -/
def close (p : Probe) : Probe := { p with visit := none }

/-- Opens a connection, on which the server greets. -/
def connect (p : Probe) : Probe × Bytes := ofTurn (p.server.greet p.clock)

/-- Sends bytes, unless the connection is closed. -/
def send (p : Probe) (b : Bytes) : Probe × Bytes :=
  match p.visit with
  | none => (p, [])
  | some visit => ofTurn (p.server.attend visit p.clock b)

/-- Some milliseconds pass, or the clock is set back. -/
def advance (p : Probe) (ms : Int) : Probe := { p with clock := p.clock + milliseconds ms }

/-- Whether there is no connection, also because the server has closed it. -/
def isClosed (p : Probe) : Bool := p.visit.isNone

end Probe

end RemoteCache
