import Mathlib.Logic.Relation
import RemoteCache.Proofs.Network.Descriptors
import RemoteCache.Proofs.Session.Fields

/-!
# A connection and its socket

Whatever the network does, and wherever a call fails, a connection that is up has one open socket,
and any other has none: every failure closes the socket it leaves behind. The link and the record
of calls are kept in step by every part of every call, so they are in step after any run.

What is promised is said of the four fields that a connection is kept in, since they could be at
odds with each other. That they never are follows from what the calls on them do: each leaves the
fields of a link if it finds them.

## Main definitions

* `Session.Tidy` — the open descriptors are those of the link
* `Session.Fields.Step` — a call on the connection, or a change in the world around it
* `Session.Fields.Consistent` — all that is promised of the four fields between two calls

## Main results

* `Session.Tidy.connect`, `Session.Tidy.disconnect`, `Session.Tidy.roundTrip` — every call keeps a
  session tidy, whether it returns or fails
* `Session.Fields.Step.tidy` — every step leaves the fields of a tidy session if it finds them
* `Session.Fields.consistent_of_run` — the fields are consistent after any run
-/

namespace RemoteCache

/-- The descriptor of the socket of a link, if it is up. -/
def Link.descriptors (link : Link) : List Nat :=
  (link.socket?.map Socket.descriptor).toList

namespace Session

open Network

variable {s s' : Session} {deadline : Deadline}

/-- The network is orderly, and the open descriptors are those of the link. -/
def Tidy (s : Session) : Prop := s.network.Holds s.connection.link.descriptors

/-! ### Changes of the session -/

theorem Tidy.holds {link : Link} (h : s.Tidy) (hlink : s.connection.link = link) :
    s.network.Holds link.descriptors := hlink ▸ h

theorem Tidy.of_holds {held : List Nat} {network : Network}
    (hlink : s.connection.link.descriptors = held) (h : network.Holds held) :
    Tidy { s with network } := by
  change network.Holds s.connection.link.descriptors
  rwa [hlink]

theorem Tidy.addNote (h : s.Tidy) (level : Level) (message : Bytes) :
    (s.addNote level message).Tidy := by
  unfold Tidy
  rw [addNote_connection, addNote_network]
  exact h

/-- Once its socket is dropped, a link can become any other that has none. -/
theorem Tidy.dropSocket (h : s.Tidy) {link : Link} (hlink : link.descriptors = []) :
    (s.dropSocket.setLink link).Tidy := by
  have hclosed : s.dropSocket.network.Holds [] := by
    unfold Session.dropSocket
    cases hold : s.connection.link with
    | up socket pending => exact Holds.close (h.holds hold)
    | idle => exact h.holds hold
    | down reason => exact h.holds hold
  change s.dropSocket.network.Holds link.descriptors
  rw [hlink]
  exact hclosed

theorem Tidy.breakWith (h : s.Tidy) (reason : Breakdown) : (s.breakWith reason).Tidy :=
  (h.dropSocket rfl).addNote _ _

theorem Tidy.hangUp (h : s.Tidy) : s.hangUp.Tidy := by
  have hdropped : (s.dropSocket.setLink .idle).Tidy := h.dropSocket rfl
  unfold Session.hangUp
  dsimp only
  split
  · -- The note about the end changes neither the link nor the network.
    unfold Tidy
    change (s.dropSocket.addNote _ _).network.Holds _
    rw [addNote_network]
    exact hdropped
  · exact hdropped

/-! ### Parts of calls -/

theorem Tidy.openSocket (h : s.Tidy) (hlink : s.connection.link.descriptors = []) :
    Ends (openSocket deadline) s (fun _ => Tidy) (fun _ => Tidy) := by
  have hnone : s.network.Holds [] := hlink ▸ h
  rw [ends_openSocket]
  rcases hopening : s.network.openSocket deadline s.connection.endpoint with ⟨result, network⟩
  have hheld := hnone.openSocket hopening
  cases result with
  | ok socket => exact hheld
  | error reason => exact (Tidy.of_holds hlink hheld).breakWith reason

theorem Tidy.sendRequest (h : s.Tidy) (frame : Bytes) :
    Ends (sendRequest frame deadline) s (fun _ => Tidy) (fun _ => Tidy) := by
  cases hlink : s.connection.link with
  | up socket pending =>
    have hup : s.connection.link.descriptors = [socket.descriptor] := hlink ▸ rfl
    have hheld : (s.network.sendAll deadline socket socket.departures frame).2.Holds
      [socket.descriptor] := (h.holds hlink).sendAll List.mem_cons_self
    rw [ends_sendRequest hlink]
    rcases hsend : s.network.sendAll deadline socket socket.departures frame with
      ⟨result, network⟩
    rw [hsend] at hheld
    cases result with
    | ok departures => exact hheld
    | error reason => exact (Tidy.of_holds hup hheld).breakWith reason
  | _ =>
    -- Without a socket nothing is tried.
    unfold Session.sendRequest
    rw [ends_get, hlink]
    exact h

theorem Tidy.awaitResponse (h : s.Tidy) (shape : Shape) :
    Ends (awaitResponse shape deadline) s (fun _ => Tidy) (fun _ => Tidy) := by
  cases hlink : s.connection.link with
  | up socket pending =>
    have hup : s.connection.link.descriptors = [socket.descriptor] := hlink ▸ rfl
    rw [ends_awaitResponse hlink]
    rcases hsettle : s.network.settle deadline socket with ⟨settled, network⟩
    obtain ⟨hsettled, hsame⟩ := (h.holds hlink).settle hsettle
    have hheld : (network.receive deadline shape settled.descriptor settled.arrivals
        pending).2.Holds [socket.descriptor] := by
      apply hsettled.receive
      rw [hsame]
      exact List.mem_cons_self
    dsimp only
    rcases hreceive : network.receive deadline shape settled.descriptor settled.arrivals pending
      with ⟨result, network'⟩
    rw [hreceive] at hheld
    cases result with
    | ok received =>
      -- The link keeps the socket that the server looked at, which has the same descriptor.
      change network'.Holds [settled.descriptor]
      rw [hsame]
      exact hheld
    | error reason => exact (Tidy.of_holds hup hheld).breakWith reason
  | _ =>
    unfold Session.awaitResponse
    rw [ends_get, hlink]
    exact h

/-! ### Calls -/

theorem Tidy.connect (h : s.Tidy) : Ends connect s (fun _ => Tidy) (fun _ => Tidy) := by
  unfold Session.connect
  rw [ends_get]
  split
  · exact h
  · rename_i hlink
    have hnone : (s.addNote .debug (Bytes.ascii "connecting to " ++
        s.connection.endpoint.text)).connection.link.descriptors = [] := by
      rw [addNote_connection]
      unfold Link.descriptors
      cases hold : s.connection.link with
      | up socket pending => exact absurd hold (hlink socket pending)
      | _ => rfl
    dsimp only
    rw [ends_bind, ends_note]
    refine ((h.addNote _ _).openSocket hnone).bind fun _ opened hopened => ?_
    refine (hopened.awaitResponse .ack).bind fun response greeted hgreeted => ?_
    cases response with
    | ok payload => exact hgreeted.addNote _ _
    | refused refusal =>
      -- A refused greeting leaves an open socket, which is closed like that of any breakdown.
      exact ends_breakDown.2 (hgreeted.breakWith (.rejected refusal))

theorem Tidy.disconnect (h : s.Tidy) : Ends disconnect s (fun _ => Tidy) (fun _ => Tidy) :=
  h.hangUp

theorem Tidy.roundTrip (h : s.Tidy) (command : Command) :
    Ends (roundTrip command) s (fun _ => Tidy) (fun _ => Tidy) := by
  unfold Session.roundTrip
  rw [ends_get]
  split
  · exact h
  · exact h
  · -- A command that cannot be sent leaves everything as it was.
    split
    · exact h
    · split
      · exact ends_breakDown.2 (h.breakWith .unsolicited)
      · dsimp only
        rw [ends_bind, ends_note]
        exact ((h.addNote _ _).sendRequest _).bind fun _ sent hsent =>
          hsent.awaitResponse command.shape

/-- A session that begins: nothing was called, and the connection is idle. -/
structure Fresh (s : Session) : Prop where
  link_eq : s.connection.link = .idle
  calls_eq : s.network.calls = []

theorem Fresh.tidy (h : s.Fresh) : s.Tidy := by
  obtain ⟨hlink, hcalls⟩ := h
  unfold Tidy
  rw [hlink]
  exact ⟨hcalls ▸ trivial, hcalls ▸ rfl⟩

namespace Fields

variable {α : Type} {f f' : Fields}

/-! ### Runs on four fields -/

/-- The fields that an action leaves, whether it returns or throws. -/
def after (a : Action α) (f : Fields) : Fields :=
  match a f with
  | .ok _ f' | .error _ f' => f'

/-- The fields of a connection that begins: nothing was called, and none of them was set. -/
structure Fresh (f : Fields) : Prop where
  socket?_eq : f.socket? = none
  state_eq : f.state = .disconnected
  lastError_eq : f.lastError = []
  buffer_eq : f.buffer = []
  calls_eq : f.network.calls = []

/-- A call on the connection, whether it returns or throws, or a change in the world around it. -/
inductive Step : Fields → Fields → Prop
  | connect (f : Fields) : Step f (after connect f)
  | disconnect (f : Fields) : Step f (after disconnect f)
  | roundTrip (f : Fields) (command : Command) : Step f (after (roundTrip command) f)
  /-- Time passes, other attempts to connect lie ahead, the server becomes another, and the
  descriptors to come are any. -/
  | world (f : Fields) (network : Network) (hcalls : network.calls = f.network.calls) :
      Step f { f with network }
  /-- The open socket will meet other things. -/
  | traffic (f : Fields) (socket : Socket) (arrivals : Script Arrival)
      (departures : Script Departure) (hsocket : f.socket? = some socket) :
      Step f { f with socket? := some { socket with arrivals, departures } }

/-- All that is promised of the four fields between two calls. -/
structure Consistent (f : Fields) : Prop where
  /-- A connection that is up has an open socket and nothing to complain of. -/
  connected : f.state = .connected →
    (∃ socket, f.socket? = some socket ∧
      socket.descriptor ∈ Call.openDescriptors f.network.calls) ∧
    f.lastError = []
  /-- Any other has no socket and no bytes left over. -/
  unconnected : f.state ≠ .connected → f.socket? = none ∧ f.buffer = []
  /-- An idle connection has nothing to complain of. -/
  disconnected : f.state = .disconnected → f.lastError = []
  /-- A broken connection says why. -/
  faulted : f.state = .faulted → f.lastError ≠ []
  /-- The open descriptors are that of the socket. -/
  openDescriptors_eq :
    Call.openDescriptors f.network.calls = (f.socket?.map Socket.descriptor).toList
  /-- Every call on a descriptor came while it was open. -/
  orderly : Call.Orderly f.network.calls
  /-- A closed descriptor was used or closed again only once it had been handed out anew. -/
  reopened : ∀ later call between d earlier,
    f.network.calls = later ++ call :: (between ++ .close d :: earlier) →
    call.descriptor? = some d → .socket (some d) ∈ between

/-- The fields are those of a session that is tidy. -/
def Tidy (f : Fields) : Prop := ∃ s : Session, s.fields = f ∧ s.Tidy

theorem Fresh.tidy (h : f.Fresh) : f.Tidy := by
  obtain ⟨endpoint, timeout, connectTimeout, socket?, state, lastError, buffer, network, journal,
    shown⟩ := f
  obtain ⟨rfl, rfl, rfl, rfl, hcalls⟩ := h
  exact ⟨{ connection := { endpoint, timeout, connectTimeout }, network, journal, shown }, rfl,
    Session.Fresh.tidy ⟨rfl, hcalls⟩⟩

/-- What an action leaves is tidy if the same action on a session comes to the same. -/
theorem Tidy.after {a : Action α} {a' : Session.Action α} {s : Session}
    (hsame : a s.fields = inFields (a' s)) (htidy : (Session.after a' s).Tidy) :
    (after a s.fields).Tidy := by
  refine ⟨Session.after a' s, ?_, htidy⟩
  unfold Fields.after Session.after
  rw [hsame]
  cases a' s <;> rfl

theorem Step.tidy (h : Step f f') (hf : f.Tidy) : f'.Tidy := by
  obtain ⟨s, rfl, hs⟩ := hf
  cases h with
  | connect => exact .after (connect_fields s) hs.connect.after
  | disconnect => exact .after (disconnect_fields s) hs.disconnect.after
  | roundTrip command => exact .after (roundTrip_fields command s) (hs.roundTrip command).after
  | world network hcalls => exact ⟨{ s with network }, rfl, Holds.congr hs hcalls⟩
  | traffic socket arrivals departures hsocket =>
    cases hlink : s.connection.link with
    | up peer pending =>
      obtain rfl : peer = socket := by
        change s.connection.link.socket? = some socket at hsocket
        rw [hlink] at hsocket
        exact Option.some.inj hsocket
      -- The descriptor of the socket stays the same.
      have hheld := hs.holds hlink
      obtain ⟨⟨endpoint, timeout, connectTimeout, link⟩, network, journal, shown⟩ := s
      obtain rfl : link = .up peer pending := hlink
      exact ⟨{ connection := ⟨endpoint, timeout, connectTimeout,
        .up { peer with arrivals, departures } pending⟩, network, journal, shown }, rfl, hheld⟩
    | idle | down =>
      change s.connection.link.socket? = some socket at hsocket
      rw [hlink] at hsocket
      cases hsocket

/-- What the invariant of runs says of the fields between two calls. -/
theorem consistent_fields {s : Session} (h : s.Tidy) : s.fields.Consistent where
  connected hstate := by
    obtain ⟨socket, pending, hlink⟩ := Link.exists_up_of_connected hstate
    have hopen := h.openDescriptors_eq
    rw [hlink] at hopen
    refine ⟨⟨socket, congrArg Link.socket? hlink, ?_⟩, congrArg Link.lastError hlink⟩
    rw [show Call.openDescriptors s.fields.network.calls = [socket.descriptor] from hopen]
    exact List.mem_cons_self
  unconnected hstate := ⟨Link.socket?_eq_none hstate, Link.pending_eq_nil hstate⟩
  disconnected hstate := by
    apply Link.lastError_eq_nil_iff.2
    rw [show s.connection.link.state = .disconnected from hstate]
    nofun
  faulted hstate hnil := Link.lastError_eq_nil_iff.1 hnil hstate
  openDescriptors_eq := h.openDescriptors_eq
  orderly := h.orderly
  reopened later call between d earlier hcalls hcall := by
    have horderly := h.orderly
    rw [show s.network.calls = _ from hcalls] at horderly
    exact horderly.socket_mem_of_close hcall

/-- The four fields of a connection are consistent after any run of calls, whatever happens around
it. -/
theorem consistent_of_run (hstart : f.Fresh) (hrun : Relation.ReflTransGen Step f f') :
    f'.Consistent := by
  have htidy : f'.Tidy := by
    induction hrun with
    | refl => exact hstart.tidy
    | tail _ hstep ih => exact hstep.tidy ih
  obtain ⟨s, rfl, hs⟩ := htidy
  exact consistent_fields hs

/-- A run in which one address cannot be used, the next one greets, a command is answered and the
peer goes away. -/
theorem consistent_of_run_two_commands :
    ∃ f : Fields, f.Fresh ∧ (after connect f).state = .connected ∧
      (after (roundTrip .ping) (after (roundTrip .ping) (after connect f))).state = .faulted ∧
      (after (roundTrip .ping) (after (roundTrip .ping) (after connect f))).Consistent := by
  let attempt : Attempt :=
    { resolution := .ok [.failing .noDelay .noMemory, .reachable],
      arrivals := some [⟨[], .segment [Wire.flagSet]⟩, ⟨[], .segment [Wire.flagSet]⟩] }
  refine ⟨{ endpoint := {}, timeout := 5, network := { attempts := [attempt] } },
    ⟨rfl, rfl, rfl, rfl, rfl⟩, by decide +kernel, by decide +kernel, ?_⟩
  refine consistent_of_run ?_ (.tail (.tail (.single (.connect _)) (.roundTrip _ _))
    (.roundTrip _ _))
  exact ⟨rfl, rfl, rfl, rfl, rfl⟩

end Fields

end Session

end RemoteCache
