import RemoteCache.Proofs.Network.Dialogues
import RemoteCache.Proofs.Session.Ends

/-!
# What calls on a connection leave behind

A call on a connection that is up either ends with a response and leaves the connection up, or
fails and leaves it down, for the very reason that it fails with, and its socket closed. A response
is read from bytes that came over the same socket, in the same call, as the request was written to.

## Main definitions

* `Session.Makes` — the calls between two sessions, by their sort
* `Session.Broke` — a failure for the reason that the connection is down for
* `Session.Answers` — a response that was read over the socket that its request was written to

## Main results

* `Session.ends_connect_opens` — opening a connection leaves it up, or breaks it
* `Session.ends_roundTrip_idle`, `Session.ends_roundTrip_down`, `Session.ends_roundTrip_of_check`,
  `Session.ends_roundTrip_pending`, `Session.ends_roundTrip_up` — what becomes of a command, by the
  state of the link and the command
* `Session.ends_roundTrip_completes` — a command that can be sent is answered, or it is given up
  and breaks the connection
-/

namespace RemoteCache

namespace Session

open Call Network Wire

variable {α : Type} {s s' s'' : Session} {deadline : Deadline} {socket : Socket} {pending : Bytes}
  {command : Command} {done : Response → Session → Prop} {failed : Failure → Session → Prop}
  {P Q : List Call → Prop}

/-- A failure for the very reason that the connection is down for. -/
def Broke (failure : Failure) (s : Session) : Prop :=
  ∃ reason, s.connection.link = .down reason ∧ failure = reason.failure

theorem breakWith_link (s : Session) (reason : Breakdown) :
    (s.breakWith reason).connection.link = .down reason := by
  rw [breakWith, addNote_connection]
  rfl

theorem broke_breakWith (s : Session) (reason : Breakdown) :
    Broke reason.failure (s.breakWith reason) :=
  ⟨reason, breakWith_link s reason, rfl⟩

/-! ### Calls between two sessions -/

/-- The calls from one session to another are of some sort. -/
def Makes (P : List Call → Prop) (s s' : Session) : Prop :=
  ∃ calls, s'.network.calls = calls ++ s.network.calls ∧ P calls

theorem Makes.mono (h : Makes P s s') (hPQ : ∀ calls, P calls → Q calls) : Makes Q s s' := by
  obtain ⟨calls, hcalls, hP⟩ := h
  exact ⟨calls, hcalls, hPQ calls hP⟩

theorem Makes.trans {R : List Call → Prop} (h : Makes P s s') (h' : Makes Q s' s'')
    (hR : ∀ earlier later, P earlier → Q later → R (later ++ earlier)) : Makes R s s'' := by
  obtain ⟨earlier, hearlier, hP⟩ := h
  obtain ⟨later, hlater, hQ⟩ := h'
  refine ⟨later ++ earlier, ?_, hR earlier later hP hQ⟩
  rw [hlater, hearlier, List.append_assoc]

theorem makes_of_conveys {d : Nat} {written read : Bytes}
    (h : Conveys d written read s.network s'.network) : Makes (Carries d written read) s s' :=
  conveys_iff.1 h

/-- A connection that is up breaks: its socket is closed. -/
theorem breakWith_calls (reason : Breakdown) (hlink : s.connection.link = .up socket pending) :
    (s.breakWith reason).network.calls = .close socket.descriptor :: s.network.calls := by
  rw [breakWith, addNote_network]
  unfold dropSocket
  rw [hlink]
  rfl

/-- Where there is no socket, none is closed. -/
theorem breakWith_calls_of_none (reason : Breakdown) (hlink : s.connection.link.socket? = none) :
    (s.breakWith reason).network.calls = s.network.calls := by
  rw [breakWith, addNote_network]
  unfold dropSocket
  rw [hlink]
  rfl

/-- A connection that is up is closed. -/
theorem hangUp_calls (hlink : s.connection.link = .up socket pending) :
    s.hangUp.network.calls = .close socket.descriptor :: s.network.calls := by
  unfold hangUp dropSocket
  rw [hlink]
  dsimp only [Link.socket?]
  change (addNote _ _ _).network.calls = _
  rw [addNote_network]
  rfl

theorem hangUp_calls_of_none (hlink : s.connection.link.socket? = none) :
    s.hangUp.network.calls = s.network.calls := by
  unfold hangUp dropSocket
  rw [hlink]
  cases hup : s.connection.link with
  | up socket pending =>
    rw [hup] at hlink
    cases hlink
  | _ => rfl

theorem makes_breakWith {d : Nat} {network : Network} (reason : Breakdown)
    (hlink : s.connection.link = .up socket pending) (hd : socket.descriptor = d)
    (h : Makes P s { s with network }) :
    Makes (Closes d P) s ({ s with network }.breakWith reason) := by
  obtain ⟨calls, hcalls, hP⟩ := h
  refine ⟨.close d :: calls, ?_, calls, rfl, hP⟩
  rw [breakWith_calls (s := { s with network }) reason hlink, hcalls, hd, List.cons_append]

/-! ### The parts of calls -/

/-- A socket is opened and nothing was read from it yet, or all sockets were tried in vain. -/
theorem ends_openSocket_up (hlink : s.connection.link.socket? = none) :
    Ends (openSocket deadline) s
      (fun _ s' => ∃ socket, s'.connection.link = .up socket [] ∧
        Makes (Reaches socket.descriptor []) s s')
      fun failure s' => Broke failure s' ∧ Makes Searched s s' := by
  rw [ends_openSocket]
  rcases hopen : s.network.openSocket deadline s.connection.endpoint with ⟨result, network⟩
  have hcalls := calls_openSocket hopen
  cases result with
  | ok socket =>
    obtain ⟨uses, searched, hcalls, huses, hsearched⟩ := hcalls
    refine ⟨socket, rfl, uses ++ .socket (some socket.descriptor) :: searched, ?_,
      uses, searched, rfl, huses, hsearched⟩
    rw [List.append_assoc, List.cons_append]
    exact hcalls
  | error reason =>
    obtain ⟨searched, hcalls, hsearched⟩ := hcalls
    refine ⟨broke_breakWith _ reason, searched, ?_, hsearched⟩
    rw [breakWith_calls_of_none (s := { s with network }) reason hlink]
    exact hcalls

/-- A request is written whole to the socket of the link, or the connection breaks over a part of
it. -/
theorem ends_sendRequest_wrote {frame : Bytes} (hlink : s.connection.link = .up socket pending) :
    Ends (sendRequest frame deadline) s
      (fun _ s' => ∃ departures, s'.connection.link = .up { socket with departures } pending ∧
        Makes (Carries socket.descriptor frame []) s s')
      fun failure s' => Broke failure s' ∧ Makes (Closes socket.descriptor fun calls =>
        ∃ w, w <+: frame ∧ Carries socket.descriptor w [] calls) s s' := by
  rw [ends_sendRequest hlink]
  obtain ⟨written, hconveys, hprefix, hall⟩ :=
    conveys_sendAll deadline socket socket.departures frame s.network
  rcases hsend : s.network.sendAll deadline socket socket.departures frame with ⟨result, network⟩
  rw [hsend] at hconveys hall
  cases result with
  | ok departures =>
    obtain rfl := hall departures rfl
    exact ⟨departures, rfl, makes_of_conveys hconveys⟩
  | error reason =>
    refine ⟨broke_breakWith _ reason, makes_breakWith reason hlink rfl ?_⟩
    exact (makes_of_conveys hconveys).mono fun calls hcalls => ⟨written, hprefix, hcalls⟩

/-- A response is read over the socket of the link, from the bytes that were left over and those
that are read now, or the connection breaks and there is no response in them. -/
theorem ends_awaitResponse_heard {shape : Shape}
    (hlink : s.connection.link = .up socket pending) :
    Ends (awaitResponse shape deadline) s
      (fun r s' => ∃ socket' rest b offset, s'.connection.link = .up socket' rest ∧
        socket'.descriptor = socket.descriptor ∧
        Makes (Carries socket.descriptor [] b) s s' ∧
        Reply.read shape (.start (pending ++ b)) = .done r ⟨offset, rest⟩)
      fun failure s' => Broke failure s' ∧ Makes (Closes socket.descriptor fun calls =>
        ∃ b, Carries socket.descriptor [] b calls ∧
          ∀ r c, Reply.read shape (.start (pending ++ b)) ≠ .done r c) s s' := by
  rw [ends_awaitResponse hlink]
  rcases hsettle : s.network.settle deadline socket with ⟨settled, network⟩
  obtain ⟨hsettled, hsame⟩ := conveys_settle (d := socket.descriptor) hsettle
  obtain ⟨b, hreceived, hresponse, hnone⟩ :=
    conveys_receive deadline shape settled.descriptor settled.arrivals pending network
  dsimp only
  rcases hreceive : network.receive deadline shape settled.descriptor settled.arrivals pending
    with ⟨result, network'⟩
  rw [hreceive] at hreceived hresponse hnone
  rw [hsame] at hreceived
  have hconveys := hsettled.trans hreceived
  cases result with
  | ok received =>
    obtain ⟨offset, hread⟩ := hresponse received rfl
    exact ⟨_, received.pending, b, offset, rfl, hsame, makes_of_conveys hconveys, hread⟩
  | error reason =>
    refine ⟨broke_breakWith _ reason, makes_breakWith reason hlink rfl ?_⟩
    exact (makes_of_conveys hconveys).mono fun calls hcalls => ⟨b, hcalls, hnone reason rfl⟩

/-! ### Opening a connection -/

/-- Opening a connection that is not up leaves it up with a greeting, or breaks it. -/
theorem ends_connect_opens (hlink : s.connection.link.socket? = none) :
    Ends connect s
      (fun _ s' => ∃ socket pending, s'.connection.link = .up socket pending ∧
        Makes (Opens socket.descriptor pending) s s')
      fun failure s' => Broke failure s' ∧ Makes FailsToOpen s s' := by
  unfold connect
  rw [ends_get]
  split
  · rename_i socket pending hup
    rw [hup] at hlink
    cases hlink
  · dsimp only
    rw [ends_bind, ends_note]
    have hnoted : (s.addNote .debug (Bytes.ascii "connecting to " ++
        s.connection.endpoint.text)).connection.link.socket? = none := by
      rwa [addNote_connection]
    refine ((ends_openSocket_up hnoted).mono (fun _ _ h => h) ?_).bind ?_
    · rintro failure s' ⟨hbroke, hmakes⟩
      rw [Makes, addNote_network] at hmakes
      exact ⟨hbroke, Makes.mono hmakes fun _ => .unreached⟩
    rintro _ opened ⟨socket, hopened, hreached⟩
    rw [Makes, addNote_network] at hreached
    refine ((ends_awaitResponse_heard hopened).mono (fun _ _ h => h) ?_).bind ?_
    · rintro failure s' ⟨hbroke, hmakes⟩
      refine ⟨hbroke, Makes.trans hreached hmakes ?_⟩
      rintro earlier _ hearlier ⟨on, rfl, b, hon, -⟩
      exact .ungreeted (hearlier.append hon)
    · rintro response greeted ⟨socket', rest, b, offset, hup, hsame, hmakes, hread⟩
      have hheard : Makes (Reaches socket.descriptor b) s greeted :=
        Makes.trans hreached hmakes fun _ _ h hon => h.append hon
      cases response with
      | refused refusal =>
        -- The socket over which the refusal came is closed.
        obtain ⟨calls, hcalls, hreaches⟩ := hheard
        refine ends_breakDown.2 ⟨broke_breakWith _ _, _, ?_, .ungreeted hreaches⟩
        rw [breakWith_calls _ hup, hsame, hcalls, List.cons_append]
      | ok payload =>
        refine ends_note.2 ⟨socket', rest, ?_, ?_⟩
        · rw [addNote_connection, hup]
        · rw [Makes, addNote_network, hsame]
          exact hheard.mono fun _ hreaches => ⟨b, payload, offset, hreaches, hread⟩

/-- Opening a connection leaves it up, or breaks it. -/
theorem ends_connect :
    Ends connect s (fun _ s' => s'.connection.link.state = .connected) Broke := by
  cases hsocket : s.connection.link.socket? with
  | none =>
    refine (ends_connect_opens hsocket).mono ?_ fun _ _ h => h.1
    rintro _ s' ⟨socket, pending, hup, -⟩
    rw [hup]
    rfl
  | some socket =>
    cases hlink : s.connection.link with
    | up socket pending =>
      unfold connect
      rw [ends_get, hlink]
      change s.connection.link.state = .connected
      rw [hlink]
      rfl
    | _ =>
      rw [hlink] at hsocket
      cases hsocket

/-! ### The ways of a request -/

/-- The session once it is noted that a request is about to be sent. -/
def noteRequest (command : Command) (s : Session) : Session :=
  s.addNote .debug (command.name ++ Bytes.ascii " -> " ++ s.connection.endpoint.text ++
    Bytes.ascii " (" ++ Numeral.ofNat (Request.encode command).length ++ Bytes.ascii " bytes)")

@[simp] theorem noteRequest_connection (command : Command) (s : Session) :
    (noteRequest command s).connection = s.connection := addNote_connection _ _ _

@[simp] theorem noteRequest_network (command : Command) (s : Session) :
    (noteRequest command s).network = s.network := addNote_network _ _ _

/-- A connection that is idle stays so, and nothing is tried. -/
theorem ends_roundTrip_idle (hlink : s.connection.link = .idle) :
    Ends (roundTrip command) s done failed ↔ failed (.notConnected s.connection.endpoint) s := by
  unfold roundTrip
  rw [ends_get, hlink]
  rfl

/-- A connection that is down stays so, and nothing is tried. -/
theorem ends_roundTrip_down {reason : Breakdown} (hlink : s.connection.link = .down reason) :
    Ends (roundTrip command) s done failed ↔
      failed (.broken s.connection.endpoint reason) s := by
  unfold roundTrip
  rw [ends_get, hlink]
  rfl

/-- A command that cannot be sent leaves the connection as it was. -/
theorem ends_roundTrip_of_check {fault : Command.Fault}
    (hlink : s.connection.link = .up socket pending) (hcheck : command.check = .error fault) :
    Ends (roundTrip command) s done failed ↔ failed (.argument command.name fault) s := by
  unfold roundTrip Request.frame
  rw [ends_get, hlink, hcheck]
  rfl

/-- With nothing left over, the request is sent and its response is read before one deadline. -/
theorem ends_roundTrip_up (hvalid : command.Valid) (hlink : s.connection.link = .up socket []) :
    Ends (roundTrip command) s done failed ↔
      Ends (sendRequest (Request.encode command)
          (Deadline.after s.network.clock s.connection.timeout) >>= fun _ =>
            awaitResponse command.shape (Deadline.after s.network.clock s.connection.timeout))
        (noteRequest command s) done failed := by
  unfold roundTrip
  rw [ends_get, hlink]
  dsimp only
  rw [Request.frame_eq_ok hvalid]
  dsimp only
  rw [if_neg (fun hne => hne rfl), ends_bind, ends_note]
  rfl

/-- With bytes left over, the connection breaks and nothing is sent. -/
theorem ends_roundTrip_pending (hvalid : command.Valid)
    (hlink : s.connection.link = .up socket pending) (hpending : pending ≠ []) :
    Ends (roundTrip command) s done failed ↔
      failed (.lost .unsolicited) (s.breakWith .unsolicited) := by
  unfold roundTrip
  rw [ends_get, hlink]
  dsimp only
  rw [Request.frame_eq_ok hvalid]
  dsimp only
  rw [if_pos hpending, ends_breakDown]
  rfl

/-! ### Answers -/

/-- A response was read over the socket that its request was written to, in one call: no byte was
left over when the request was written, and the bytes read then begin with the response. -/
def Answers (command : Command) (s : Session) (r : Response) (s' : Session) : Prop :=
  ∃ socket socket' rest b offset, s.connection.link = .up socket [] ∧
    s'.connection.link = .up socket' rest ∧ socket'.descriptor = socket.descriptor ∧
    Conveys socket.descriptor (Request.encode command) b s.network s'.network ∧
    Reply.read command.shape (.start b) = .done r ⟨offset, rest⟩

/-- A command that can be sent is answered with nothing left over before, or it is given up and the
connection breaks. -/
theorem ends_roundTrip_completes (hvalid : command.Valid)
    (hlink : s.connection.link = .up socket pending) :
    Ends (roundTrip command) s
      (fun r s' => pending = [] ∧ ∃ socket' rest, s'.connection.link = .up socket' rest ∧
        socket'.descriptor = socket.descriptor ∧
        Makes (Completes socket.descriptor command r rest) s s')
      fun failure s' => Broke failure s' ∧ Makes (Closes socket.descriptor fun calls =>
        Abandons socket.descriptor command calls ∧ (pending ≠ [] → calls = [])) s s' := by
  by_cases hpending : pending = []
  · subst hpending
    have hnoted : (noteRequest command s).connection.link = .up socket [] := by
      rw [noteRequest_connection, hlink]
    refine (ends_roundTrip_up hvalid hlink).2
      (((ends_sendRequest_wrote hnoted).mono (fun _ _ h => h) ?_).bind ?_)
    · -- A beginning of the request was written, and nothing was read.
      rintro failure s' ⟨hbroke, hmakes⟩
      rw [Makes, noteRequest_network] at hmakes
      refine ⟨hbroke, Makes.mono hmakes ?_⟩
      rintro _ ⟨written, rfl, w, hw, hwritten⟩
      exact ⟨written, rfl, ⟨written, [], w, [], rfl, hwritten, .nil _, hw, .inr rfl, nofun⟩, nofun⟩
    rintro _ sent ⟨departures, hsent, hwritten⟩
    rw [Makes, noteRequest_network] at hwritten
    refine (ends_awaitResponse_heard hsent).mono ?_ ?_
    · rintro r s' ⟨socket', rest, b, offset, hlink', hsame, hread, hresponse⟩
      refine ⟨rfl, socket', rest, hlink', hsame, Makes.trans hwritten hread ?_⟩
      intro written read hwritten hread
      exact ⟨written, read, b, offset, rfl, hwritten, hread, hresponse⟩
    · -- The request was written whole, and no response came.
      rintro failure s' ⟨hbroke, hmakes⟩
      refine ⟨hbroke, Makes.trans hwritten hmakes ?_⟩
      rintro written _ hwritten ⟨read, rfl, b, hread, hnone⟩
      exact ⟨read ++ written, rfl, ⟨written, read, _, b, rfl, hwritten, hread, List.prefix_rfl,
        .inl rfl, hnone⟩, nofun⟩
  · refine (ends_roundTrip_pending hvalid hlink hpending).2 ⟨broke_breakWith s _, ?_⟩
    exact ⟨[.close socket.descriptor], breakWith_calls _ hlink, [], rfl, abandons_nil _ _,
      fun _ => rfl⟩

/-- A command that can be sent is answered, or breaks the connection. -/
theorem ends_roundTrip (hvalid : command.Valid) (hup : s.connection.link.state = .connected) :
    Ends (roundTrip command) s (Answers command s) Broke := by
  obtain ⟨socket, pending, hlink⟩ := Link.exists_up_of_connected hup
  refine (ends_roundTrip_completes hvalid hlink).mono ?_ fun _ _ h => h.1
  rintro r s' ⟨rfl, socket', rest, hlink', hsame, calls, hcalls, hcompletes⟩
  obtain ⟨written, read, b, offset, rfl, hwritten, hread, hresponse⟩ := hcompletes
  refine ⟨socket, socket', rest, b, offset, hlink, hlink', hsame, ?_, hresponse⟩
  have hboth := hwritten.append hread
  rw [List.append_nil] at hboth
  exact conveys_iff.2 ⟨_, hcalls, hboth⟩

theorem Answers.connected {r : Response} (h : Answers command s r s') :
    s'.connection.link.state = .connected := by
  obtain ⟨socket, socket', rest, b, offset, -, hlink, -⟩ := h
  rw [hlink]
  rfl

theorem Answers.hasShape {r : Response} (h : Answers command s r s') :
    r.HasShape command.shape := by
  obtain ⟨socket, socket', rest, b, offset, -, -, -, -, hread⟩ := h
  exact (Reply.yields_read _ _ _ _ hread).1

end Session

end RemoteCache
