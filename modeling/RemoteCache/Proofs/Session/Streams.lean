import RemoteCache.Client
import RemoteCache.Proofs.Network.Segments
import RemoteCache.Proofs.Session.Hosted

/-!
# The stream decides what becomes of a call

The transport cuts what a peer sends into segments as it likes, and nobody can choose the cut. A
response is looked for again after every segment; still the cut never shows. What a caller is told,
and what the connection looks like afterwards, follows from the bytes that were sent.

## Main definitions

* `Session.outcome` — what a caller gets to see of a call
* `Session.reported` — the outcome of a call that breaks the connection if it fails
* `Session.ListensTo`, `Session.MayListenTo` — a connection over which a peer sends a stream, and
  one to be opened to such a peer
* `Session.AttendedBy` — a session that is connected to a server which will look at its request

## Main results

* `Session.outcome_roundTrip`, `Session.outcome_connect` — the outcome as a function of the stream
* `Session.outcome_attended` — the outcome as a function of what a server writes
* `Session.outcomes_alike` — the outcome is the same however the stream is cut
-/

namespace RemoteCache

open Wire

/-- What a stream says of the greeting at its front: nothing, or why there is no connection. -/
def Reply.greeting (stream : Bytes) : Except Breakdown Unit := do
  match ← verdict .ack stream with
  | .ok _ => return ()
  | .refused refusal => throw (.rejected refusal)

namespace Session

open Network

variable {α β : Type} {s : Session} {command : Command} {attempt : Attempt} {stream : Bytes}
  {departures : Script Departure} {endpoint : Endpoint}

/-! ### Outcomes -/

/-- What a caller gets to see of a call: what it ends with, and what the connection looks like
then. -/
def outcome (a : Action α) (s : Session) : Except Failure α × Client.Appearance :=
  match a s with
  | .ok x s' => (.ok x, Client.appearance s')
  | .error failure s' => (.error failure, Client.appearance s')

/-- The outcome of a call that leaves the connection up, or breaks it if it fails. -/
def reported (endpoint : Endpoint) : Except Breakdown α → Except Failure α × Client.Appearance
  | .ok x => (.ok x, { endpoint, state := .connected })
  | .error reason =>
    (.error reason.failure, { endpoint, state := .faulted, lastError := reason.text })

/-- A call that returns what is expected, on a connection that is up. -/
def ReturnsAs (endpoint : Endpoint) (expected : Except Breakdown α) (x : α) (s : Session) : Prop :=
  expected = .ok x ∧ s.connection.endpoint = endpoint ∧ s.connection.link.state = .connected

/-- A call that fails as expected, for the reason that the connection is down for. -/
def FailsAs (endpoint : Endpoint) (expected : Except Breakdown α) (failure : Failure)
    (s : Session) : Prop :=
  ∃ reason, expected = .error reason ∧ failure = reason.failure ∧
    s.connection.endpoint = endpoint ∧ s.connection.link = .down reason

/-- A call that ends as expected. -/
def EndsAs (endpoint : Endpoint) (expected : Except Breakdown α) (a : Action α) (s : Session) :
    Prop :=
  Ends a s (ReturnsAs endpoint expected) (FailsAs endpoint expected)

theorem appearance_of_connected (h : s.connection.link.state = .connected) :
    Client.appearance s = { endpoint := s.connection.endpoint, state := .connected } := by
  obtain ⟨socket, pending, hlink⟩ := Link.exists_up_of_connected h
  unfold Client.appearance
  rw [hlink]
  rfl

theorem appearance_of_down {reason : Breakdown} (h : s.connection.link = .down reason) :
    Client.appearance s =
      { endpoint := s.connection.endpoint, state := .faulted, lastError := reason.text } := by
  unfold Client.appearance
  rw [h]
  rfl

theorem EndsAs.outcome_eq {expected : Except Breakdown α} {a : Action α}
    (h : EndsAs endpoint expected a s) : outcome a s = reported endpoint expected := by
  unfold EndsAs Ends ReturnsAs FailsAs at h
  unfold outcome
  cases hend : a s with
  | ok x s' =>
    rw [hend] at h
    obtain ⟨rfl, rfl, hstate⟩ := h
    exact congrArg (Prod.mk _) (appearance_of_connected hstate)
  | error failure s' =>
    rw [hend] at h
    obtain ⟨reason, rfl, rfl, rfl, hdown⟩ := h
    exact congrArg (Prod.mk _) (appearance_of_down hdown)

theorem breakWith_endpoint (s : Session) (reason : Breakdown) :
    (s.breakWith reason).connection.endpoint = s.connection.endpoint := by
  rw [breakWith, addNote_connection]
  unfold dropSocket
  split <;> rfl

theorem failsAs_breakWith (s : Session) (reason : Breakdown) :
    FailsAs s.connection.endpoint (.error reason : Except Breakdown α) reason.failure
      (s.breakWith reason) :=
  ⟨reason, rfl, rfl, breakWith_endpoint s reason, breakWith_link s reason⟩

/-- Where the first part fails, so does the whole. -/
theorem FailsAs.bind {expected : Except Breakdown α} {failure : Failure}
    (h : FailsAs endpoint expected failure s) (next : α → Except Breakdown β) :
    FailsAs endpoint (expected >>= next) failure s := by
  obtain ⟨reason, rfl, h⟩ := h
  exact ⟨reason, rfl, h⟩

/-! ### Parts of calls -/

/-- The script decides how the request is written. -/
theorem ends_sendRequest_freely {socket : Socket} {pending frame : Bytes}
    (hlink : s.connection.link = .up socket pending) (hpeer : socket.isHosted = false) :
    Ends (sendRequest frame none) s
      (fun _ s' => socket.departures.writing frame = .ok () ∧
        ∃ rest, s'.connection =
          { s.connection with link := .up { socket with departures := rest } pending })
      (FailsAs s.connection.endpoint (socket.departures.writing frame)) := by
  rw [ends_sendRequest hlink, ← sendAll_freely hpeer socket.departures frame s.network]
  rcases s.network.sendAll none socket socket.departures frame with ⟨result, network⟩
  cases result with
  | ok rest => exact ⟨rfl, rest, rfl⟩
  | error reason => exact failsAs_breakWith _ reason

/-- The attempt decides how a socket is opened. -/
theorem ends_openSocket_freely {arrivals : Script Arrival}
    (hnext : s.network.nextAttempt.1 = { attempt with arrivals := some arrivals }) :
    Ends (openSocket none) s
      (fun _ s' => attempt.opening s.connection.endpoint = .ok () ∧ ∃ d, s'.connection =
        { s.connection with link := .up ⟨d, arrivals, attempt.departures, false⟩ [] })
      (FailsAs s.connection.endpoint (attempt.opening s.connection.endpoint)) := by
  rw [ends_openSocket]
  rcases openSocket_freely hnext rfl s.connection.endpoint with
    ⟨hopening, d, network, hopen⟩ | ⟨reason, network, hopening, hopen⟩
  · rw [hopen]
    exact ⟨hopening, d, rfl⟩
  · rw [hopen, show attempt.opening s.connection.endpoint = .error reason from hopening]
    exact failsAs_breakWith _ reason

/-- Once it is settled what there is to read, the stream decides what is received. -/
theorem ends_awaitResponse_cuts {deadline : Deadline} {peer : Socket} {script : Script Arrival}
    {n : Network} (shape : Shape) (hlink : s.connection.link = .up peer [])
    (hsettle : s.network.settle deadline peer = ({ peer with arrivals := script }, n))
    (hcuts : Script.Cuts stream script)
    (htime : n.InTime deadline (script.flatMap Timed.pauses)) :
    EndsAs s.connection.endpoint (Reply.verdict shape stream) (awaitResponse shape deadline) s := by
  have hverdict : (n.receive deadline shape peer.descriptor script []).1.map
      Received.response = Reply.verdict shape stream :=
    receive_of_cuts hcuts htime peer.descriptor
  unfold EndsAs
  rw [ends_awaitResponse hlink, hsettle, ← hverdict]
  dsimp only
  rcases n.receive deadline shape peer.descriptor script [] with ⟨result, network⟩
  cases result with
  | ok received => exact ⟨rfl, rfl, rfl⟩
  | error reason => exact failsAs_breakWith _ reason

/-- A peer in its own right has settled it before. -/
theorem ends_awaitResponse_freely {socket : Socket} (shape : Shape)
    (hlink : s.connection.link = .up socket []) (hpeer : socket.isHosted = false)
    (hcuts : Script.Cuts stream socket.arrivals) :
    EndsAs s.connection.endpoint (Reply.verdict shape stream) (awaitResponse shape none) s :=
  ends_awaitResponse_cuts shape hlink (settle_of_not_hosted hpeer) hcuts nofun

/-! ### Requests -/

/-- A connection without a timeout, over which a peer in its own right sends a stream and no more.
Nothing of it was read yet. -/
structure ListensTo (departures : Script Departure) (stream : Bytes) (s : Session) : Prop where
  timeout_le : s.connection.timeout ≤ 0
  exists_socket : ∃ d arrivals, s.connection.link = .up ⟨d, arrivals, departures, false⟩ [] ∧
    Script.Cuts stream arrivals

/-- The outcome of a command follows from the calls by which it is written and from the stream that
is sent in return. -/
theorem outcome_roundTrip (hvalid : command.Valid) (h : s.ListensTo departures stream) :
    outcome (roundTrip command) s = reported s.connection.endpoint (do
      departures.writing (Request.encode command)
      Reply.verdict command.shape stream) := by
  obtain ⟨htimeout, d, arrivals, hlink, hcuts⟩ := h
  have hnone : Deadline.after s.network.clock s.connection.timeout = none := if_pos htimeout
  have hnoted := hlink
  rw [← noteRequest_connection command s] at hnoted
  apply EndsAs.outcome_eq
  unfold EndsAs
  rw [ends_roundTrip_up hvalid hlink, hnone]
  refine ((ends_sendRequest_freely hnoted rfl).mono (fun _ _ h => h) ?_).bind ?_
  · intro failure s' hfails
    rw [noteRequest_connection] at hfails
    exact hfails.bind _
  · rintro _ sent ⟨hwriting, rest, hsent⟩
    rw [noteRequest_connection] at hsent
    have hup : sent.connection.link = .up ⟨d, arrivals, rest, false⟩ [] := by rw [hsent]
    have hendpoint : sent.connection.endpoint = s.connection.endpoint := by rw [hsent]
    have hread := ends_awaitResponse_freely command.shape hup rfl hcuts
    rw [hwriting, ← hendpoint]
    exact hread

/-! ### Requests to a server -/

/-- A session that is connected to a server, with nothing left over and nothing unread. The server
looks at the next request at an instant for which a command waits: it may be busy until then. -/
structure AttendedBy (server : Server) (start : Instant) (s : Session) : Prop where
  exists_peer : ∃ peer, s.connection.link = .up peer [] ∧ Leads peer
  exists_service : ∃ service, s.network.service = some service ∧ service.server = server ∧
    (∃ busyUntil, service.caller = some { visit := some {}, busyUntil }) ∧
    service.readyAt s.network.clock = start ∧
    outlasts (Deadline.after s.network.clock s.connection.timeout) s.network.clock service = false

/-- Over a connection to a server, the outcome of a command follows from what the server writes,
in whatever pieces the request and the reply travel. -/
theorem outcome_attended {server : Server} {start : Instant} {b : Bytes} (hvalid : command.Valid)
    (h : s.AttendedBy server start)
    (hwrites : ∀ lengths,
      (server.attend {} start (Request.encode command) lengths).Writes start b) :
    outcome (roundTrip command) s =
      reported s.connection.endpoint (Reply.verdict command.shape b) := by
  obtain ⟨⟨peer, hlink, hleads⟩, service, hservice, rfl, ⟨busyUntil, hcaller⟩, hstart, hpatient⟩ :=
    h
  obtain ⟨server, caller⟩ := service
  obtain rfl : caller = some { visit := some {}, busyUntil } := hcaller
  apply EndsAs.outcome_eq
  unfold EndsAs
  rw [ends_roundTrip_up hvalid hlink]
  refine ((ends_sendRequest_hosted (s := noteRequest command s) (by rwa [noteRequest_connection])
    hleads (by rwa [noteRequest_network]) rfl).mono (fun _ _ h => h) fun _ _ h => h.elim).bind ?_
  rintro _ sent ⟨peer', hleads', hsent, hscene⟩
  rw [noteRequest_connection] at hsent
  rw [noteRequest_network] at hscene
  have hlink' : sent.connection.link = .up peer' [] := by rw [hsent]
  have hendpoint : sent.connection.endpoint = s.connection.endpoint := by rw [hsent]
  -- Writing takes no time here, so the server will still be done before the deadline.
  have hclock : sent.network.clock = s.network.clock := (clock_of_scene hscene :)
  rw [← hclock] at hpatient hstart ⊢
  obtain ⟨script, network, hsettle, hcuts, htime⟩ := settle_busy hleads'.isHosted_eq
    hleads'.arrivals_eq (service_of_scene hscene) rfl hpatient hstart rfl (hwrites _)
  rw [← hendpoint]
  exact ends_awaitResponse_cuts command.shape hlink' hsettle hcuts htime

/-! ### Greetings -/

/-- A connection without a timeout that is not up, and whose next attempt leads to a peer in its own
right that sends a stream and no more. -/
structure MayListenTo (attempt : Attempt) (stream : Bytes) (s : Session) : Prop where
  timeout_le : s.connection.connectTimeout ≤ 0
  socket?_eq : s.connection.link.socket? = none
  exists_arrivals : ∃ arrivals,
    s.network.nextAttempt.1 = { attempt with arrivals := some arrivals } ∧
      Script.Cuts stream arrivals

/-- The outcome of connecting follows from the attempt and from the stream that the peer sends. -/
theorem outcome_connect (h : s.MayListenTo attempt stream) :
    outcome connect s = reported s.connection.endpoint (do
      attempt.opening s.connection.endpoint
      Reply.greeting stream) := by
  obtain ⟨htimeout, hlink, arrivals, hnext, hcuts⟩ := h
  have hnone : Deadline.after s.network.clock s.connection.connectTimeout = none := if_pos htimeout
  apply EndsAs.outcome_eq
  unfold EndsAs
  rw [ends_connect_greeting hlink, hnone]
  have hnoted : (s.addNote .debug (Bytes.ascii "connecting to " ++
      s.connection.endpoint.text)).connection = s.connection := addNote_connection _ _ _
  rw [← addNote_network s .debug (Bytes.ascii "connecting to " ++ s.connection.endpoint.text)]
    at hnext
  refine ((ends_openSocket_freely hnext).mono (fun _ _ h => h) ?_).bind ?_
  · intro failure s' hfails
    rw [hnoted] at hfails
    exact hfails.bind _
  · rintro _ opened ⟨hopening, d, hopened⟩
    rw [hnoted] at hopening hopened
    have hup : opened.connection.link = .up ⟨d, arrivals, attempt.departures, false⟩ [] := by
      rw [hopened]
    have hendpoint : opened.connection.endpoint = s.connection.endpoint := by rw [hopened]
    rw [hopening, ← hendpoint]
    refine (ends_awaitResponse_freely .ack hup rfl hcuts).mono ?_ fun _ _ hfails => hfails.bind _
    rintro r greeted ⟨hverdict, hgreeted, hstate⟩
    unfold Reply.greeting
    rw [hverdict, ← hgreeted]
    cases r with
    | refused refusal => exact failsAs_breakWith greeted _
    | ok payload =>
      refine ends_note.2 ⟨rfl, ?_, ?_⟩ <;> rw [addNote_connection]
      exact hstate

/-! ### Any two cuts -/

/-- However a stream is cut, and whenever signals come in between, a command has the same outcome
over it, and so has connecting: the same response or failure, with the same state of the connection
and the same last error. When the stream ends before the response is whole, the connection is
closed, or closed in the middle of the response if there was any of it. -/
theorem outcomes_alike {s t : Session} (hendpoint : s.connection.endpoint = t.connection.endpoint)
    (stream : Bytes) :
    (∀ {command : Command} {departures : Script Departure}, command.Valid →
      s.ListensTo departures stream → t.ListensTo departures stream →
      outcome (roundTrip command) s = outcome (roundTrip command) t ∧
      ∀ {missing c}, departures.writing (Request.encode command) = .ok () →
        Reply.read command.shape (.start stream) = .short missing c →
        outcome (roundTrip command) s =
          reported s.connection.endpoint (.error (endOfStream stream))) ∧
    (∀ {attempt : Attempt}, s.MayListenTo attempt stream → t.MayListenTo attempt stream →
      outcome connect s = outcome connect t ∧
      ∀ {missing c}, attempt.opening s.connection.endpoint = .ok () →
        Reply.read .ack (.start stream) = .short missing c →
        outcome connect s = reported s.connection.endpoint (.error (endOfStream stream))) ∧
    (endOfStream stream).failure.kind = .connection ∧
    (endOfStream stream).failure.text = (endOfStream stream).text ∧
    (endOfStream stream).text = if stream = [] then Bytes.ascii "connection closed by server"
      else Bytes.ascii "connection closed by server mid-response" := by
  refine ⟨?_, ?_, ?_⟩
  · intro command departures hvalid hs ht
    rw [outcome_roundTrip hvalid hs, outcome_roundTrip hvalid ht, hendpoint]
    refine ⟨rfl, fun hwriting hshort => ?_⟩
    rw [hwriting, Reply.verdict_of_short hshort]
    rfl
  · intro attempt hs ht
    rw [outcome_connect hs, outcome_connect ht, hendpoint]
    refine ⟨rfl, fun hopening hshort => ?_⟩
    rw [hopening, Reply.greeting, Reply.verdict_of_short hshort]
    rfl
  · rw [endOfStream_eq]
    split <;> exact ⟨rfl, rfl, rfl⟩

/-- A value with a byte too many behind it, in three parts with signals and as a whole; and a
greeting that ends after its first byte, with a signal and without one. -/
theorem outcomes_alike_pong :
    ∃ s t s' t' : Session,
      s.ListensTo [] [0x21, 4, 0, 0, 0, 112, 111, 110, 103, 0x3F] ∧
      t.ListensTo [] [0x21, 4, 0, 0, 0, 112, 111, 110, 103, 0x3F] ∧
      outcome (roundTrip .ping) s = outcome (roundTrip .ping) t ∧
      s'.MayListenTo {} [0x3F] ∧ t'.MayListenTo {} [0x3F] ∧
      outcome connect s' = outcome connect t' ∧
      outcome connect s' = reported {} (.error .closedMidResponse) := by
  let stream : Bytes := [0x21, 4, 0, 0, 0, 112, 111, 110, 103, 0x3F]
  let parts : Script Arrival := [⟨[], .failed .interrupted⟩, ⟨[.delay 5], .segment [0x21, 4]⟩,
    ⟨[.delay ⟨2500000⟩], .segment [0, 0, 0, 112]⟩, ⟨[], .failed .interrupted⟩,
    ⟨[], .segment [111, 110, 103, 0x3F]⟩]
  let talking (arrivals : Script Arrival) : Session :=
    { connection := { endpoint := {}, link := .up ⟨3, arrivals, [], false⟩ [] } }
  let calling (arrivals : Script Arrival) : Session :=
    { connection := { endpoint := {} }, network := { attempts := [{ arrivals := some arrivals }] } }
  have hparts : Script.Cuts stream parts :=
    .signal _ (.segment _ (b := [0x21, 4]) (by decide) (.segment _ (b := [0, 0, 0, 112]) (by decide)
      (.signal _ (.segment _ (b := [111, 110, 103, 0x3F]) (by decide) .nil))))
  have hwhole : Script.Cuts stream (Script.behind [] (Arrival.ofBytes stream) ++ []) :=
    Script.cuts_ofBytes (b := stream) (by decide) [] .nil
  have hgreeting : Script.Cuts [0x3F] [⟨[], .segment [0x3F]⟩, ⟨[], .close⟩] :=
    .segment _ (b := [0x3F]) (by decide) (.close _ _)
  have hs : (talking parts).ListensTo [] stream := ⟨le_rfl, 3, _, rfl, hparts⟩
  have ht : (talking _).ListensTo [] stream := ⟨le_rfl, 3, _, rfl, hwhole⟩
  have hs' : (calling _).MayListenTo {} [0x3F] := ⟨le_rfl, rfl, _, rfl, hgreeting⟩
  have ht' : (calling _).MayListenTo {} [0x3F] := ⟨le_rfl, rfl, _, rfl, .signal [] hgreeting⟩
  have htalking {a b : Script Arrival} :
      (talking a).connection.endpoint = (talking b).connection.endpoint := rfl
  have hcalling {a b : Script Arrival} :
      (calling a).connection.endpoint = (calling b).connection.endpoint := rfl
  have hping : Command.ping.Valid := rfl
  obtain ⟨hresponse, -⟩ := (outcomes_alike htalking stream).1 hping hs ht
  obtain ⟨hsame, hend⟩ := (outcomes_alike hcalling [0x3F]).2.1 hs' ht'
  have hshort : Reply.read .ack (.start [0x3F]) = .short 1 ⟨1, []⟩ := by decide
  exact ⟨_, _, _, _, hs, ht, hresponse, hs', ht', hsame, hend rfl hshort⟩

end Session

end RemoteCache
