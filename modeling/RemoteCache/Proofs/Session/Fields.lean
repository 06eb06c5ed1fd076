import RemoteCache.Connection.Fields
import RemoteCache.Proofs.Session.Ends

/-!
# Four fields and a link

A connection that is kept in four fields does what a connection with a link does, as long as the
fields are those of some link. Every call leaves them as those of the link that the same call leaves
there, whether it returns or throws, and it returns or throws the same. So the steps of every call
keep the fields together, on each of the ways on which it can fail.

## Main definitions

* `Link.pending` — the bytes that were read and belong to no response yet
* `Session.fields` — a session with its link in four fields
* `Session.inFields` — how a call ends, with the session that it leaves in fields

## Main results

* `Session.Fields.fault_fields` — a connection breaks alike in both descriptions
* `Session.Fields.sendAll_fields`, `Session.Fields.readResponse_fields` — writing and reading
* `Session.Fields.connect_fields`, `Session.Fields.disconnect_fields`,
  `Session.Fields.roundTrip_fields` — the calls come to the same in both
-/

namespace RemoteCache

/-- The bytes that were read and belong to no response yet. -/
def Link.pending : Link → Bytes
  | .up _ pending => pending
  | _ => []

theorem Link.pending_eq_nil {link : Link} (h : link.state ≠ .connected) : link.pending = [] := by
  cases link with
  | up => exact absurd rfl h
  | idle | down => rfl

namespace Session

variable {α β : Type}

/-- A session with its link in four fields. -/
def fields (s : Session) : Fields where
  endpoint := s.connection.endpoint
  timeout := s.connection.timeout
  connectTimeout := s.connection.connectTimeout
  socket? := s.connection.link.socket?
  state := s.connection.link.state
  lastError := s.connection.link.lastError
  buffer := s.connection.link.pending
  network := s.network
  journal := s.journal
  shown := s.shown

@[simp] theorem fields_endpoint (s : Session) : s.fields.endpoint = s.connection.endpoint := rfl

@[simp] theorem fields_socket? (s : Session) : s.fields.socket? = s.connection.link.socket? := rfl

@[simp] theorem fields_state (s : Session) : s.fields.state = s.connection.link.state := rfl

@[simp] theorem fields_lastError (s : Session) :
    s.fields.lastError = s.connection.link.lastError := rfl

@[simp] theorem fields_network (s : Session) : s.fields.network = s.network := rfl

@[simp] theorem fields_journal (s : Session) : s.fields.journal = s.journal := rfl

/-- How a call ends, with the session that it leaves in fields. -/
def inFields : EStateM.Result Failure Session α → EStateM.Result Thrown Fields α
  | .ok x s => .ok x s.fields
  | .error failure s => .error failure.thrown s.fields

namespace Fields

variable {s t : Session} {f f' : Fields} {n n' : Network} {deadline : Deadline} {socket : Socket}
  {pending : Bytes}

/-! ### One action after another -/

theorem bind_of_ok {a : Action α} {x : α} (h : a f = .ok x f') (next : α → Action β) :
    (a >>= next) f = next x f' := by
  change EStateM.bind a next f = _
  rw [EStateM.bind, h]

theorem bind_of_error {a : Action α} {thrown : Thrown} (h : a f = .error thrown f')
    (next : α → Action β) : (a >>= next) f = .error thrown f' := by
  change EStateM.bind a next f = _
  rw [EStateM.bind, h]

theorem get_bind (next : Fields → Action α) (f : Fields) : (get >>= next) f = next f f := rfl

theorem setNetwork_bind (n : Network) (next : Unit → Action α) (f : Fields) :
    (setNetwork n >>= next) f = next () { f with network := n } := rfl

/-- What comes to the same in both descriptions does so one after another. -/
theorem bind_inFields {a : Action α} {a' : Session.Action α} {next : α → Action β}
    {next' : α → Session.Action β} (h : a f = inFields (a' s))
    (hnext : ∀ x s', a' s = .ok x s' → next x s'.fields = inFields (next' x s')) :
    (a >>= next) f = inFields ((a' >>= next') s) := by
  change _ = inFields (EStateM.bind a' next' s)
  unfold EStateM.bind
  cases hend : a' s with
  | ok x s' =>
    rw [hend] at h
    rw [bind_of_ok h]
    exact hnext x s' hend
  | error failure s' =>
    rw [hend] at h
    exact bind_of_error h next

theorem modify_eq (change : Fields → Fields) (f : Fields) :
    (modify change : Action Unit) f = .ok () (change f) := rfl

theorem note_fields (level : Level) (message : Bytes) (s : Session) :
    note level message s.fields = .ok () (s.addNote level message).fields := by
  unfold addNote
  rw [note, modify_eq, fields_journal]
  cases s.journal.write ⟨level, message⟩ <;> rfl

/-! ### Failing -/

/-- The socket is closed, and that it is shows in the network and in one field. -/
theorem closeSocket_fields (s : Session) :
    closeSocket s.fields = .ok () { s.dropSocket.fields with socket? := none } := by
  obtain ⟨⟨endpoint, timeout, connectTimeout, link⟩, network, journal, shown⟩ := s
  cases link <;> rfl

/-- A connection breaks alike in both descriptions. -/
theorem fault_fields (reason : Breakdown) (s : Session) :
    fault reason.text s.fields = .ok () (s.breakWith reason).fields := by
  unfold fault
  rw [bind_of_ok (closeSocket_fields s)]
  have hendpoint : s.dropSocket.connection.endpoint = s.connection.endpoint := by
    unfold dropSocket
    split <;> rfl
  rw [breakWith, ← hendpoint]
  -- The other three fields are set to those of the link that is down.
  exact note_fields .warn _ (s.dropSocket.setLink (.down reason))

/-- What is thrown is the last error, as long as it says all about the failure. -/
theorem giveUp_fields {kind : Failure.Kind} {text : Bytes} {reason : Breakdown}
    (hf : f = s.fields) (htext : text = reason.text)
    (hthrown : reason.failure.thrown = { kind, text }) :
    (giveUp kind text : Action α) f = inFields (breakDown reason s) := by
  subst hf htext
  unfold giveUp
  rw [bind_of_ok (fault_fields reason s)]
  have hlast : (s.breakWith reason).fields.lastError = reason.text := by
    unfold breakWith addNote
    split <;> rfl
  change EStateM.Result.error (⟨kind, (s.breakWith reason).fields.lastError, none⟩ : Thrown) _ = _
  rw [hlast, ← hthrown]
  rfl

/-! ### Opening a socket -/

theorem openFirst_fields (attempt : Attempt) (addresses : List Address) (s : Session) :
    openFirst deadline attempt addresses s.fields =
      match s.network.tryAddresses deadline attempt .noAddress addresses with
      | (.opened socket, network) => .ok socket { s with network }.fields
      | (.failed obstacle, network) =>
        inFields (breakDown (.unreachable s.connection.endpoint obstacle) { s with network })
      | (.timedOut, network) =>
        inFields (breakDown (.connectTimedOut s.connection.endpoint) { s with network }) := by
  unfold openFirst
  rw [get_bind, fields_network]
  rcases s.network.tryAddresses deadline attempt .noAddress addresses with ⟨opening, network⟩
  dsimp only
  rw [setNetwork_bind]
  cases opening with
  | opened socket => rfl
  | timedOut => exact giveUp_fields rfl rfl rfl
  | failed obstacle => exact giveUp_fields rfl rfl rfl

theorem openSocket_fields (deadline : Deadline) (s : Session) :
    openSocket deadline s.fields =
      match s.network.openSocket deadline s.connection.endpoint with
      | (.ok socket, network) => .ok socket { s with network }.fields
      | (.error reason, network) => inFields (breakDown reason { s with network }) := by
  unfold openSocket Network.openSocket
  rw [get_bind, fields_network, fields_endpoint]
  rcases s.network.nextAttempt with ⟨attempt, network⟩
  dsimp only
  generalize (network.record _).pass attempt.delay = resolved
  rw [setNetwork_bind]
  cases attempt.resolution with
  | error e => exact giveUp_fields rfl rfl rfl
  | ok addresses =>
    cases addresses with
    | nil => exact giveUp_fields rfl rfl rfl
    | cons address more =>
      refine (openFirst_fields attempt (address :: more) { s with network := resolved }).trans ?_
      dsimp only
      rcases resolved.tryAddresses deadline attempt .noAddress (address :: more) with
        ⟨opening, opened⟩
      cases opening <;> rfl

/-! ### Waiting -/

section Waiting

variable {pauses : List Pause} {what : Bytes}

theorem waitFor_of_ready (hwait : n.wait deadline socket.descriptor pauses = (.ready, n')) :
    waitFor deadline socket pauses what { s with network := n }.fields =
      .ok () { s with network := n' }.fields := by
  unfold waitFor
  rw [get_bind, fields_network, hwait]
  rfl

theorem waitFor_of_timedOut (reason : Breakdown)
    (htext : Bytes.ascii "timed out waiting for " ++ what = reason.text)
    (hthrown : reason.failure.thrown = { kind := .timeout, text := reason.text })
    (hwait : n.wait deadline socket.descriptor pauses = (.timedOut, n')) :
    waitFor deadline socket pauses what { s with network := n }.fields =
      inFields (breakDown reason { s with network := n' }) := by
  unfold waitFor
  rw [get_bind, fields_network, hwait]
  exact giveUp_fields rfl htext (htext ▸ hthrown)

theorem waitFor_of_failed {e : Errno}
    (hwait : n.wait deadline socket.descriptor pauses = (.failed e, n')) :
    waitFor deadline socket pauses what { s with network := n }.fields =
      inFields (breakDown (.pollFailed e) { s with network := n' }) := by
  unfold waitFor
  rw [get_bind, fields_network, hwait]
  exact giveUp_fields rfl rfl rfl

/-- A wait for what is already there ends at once. -/
theorem eq_ready_of_wait_nil {d : Nat} {readiness : Readiness}
    (hwait : n.wait deadline d [] = (readiness, n')) : readiness = .ready := by
  cases deadline <;> exact (Prod.ext_iff.1 hwait).1.symm

end Waiting

/-! ### Writing -/

section Writing

variable {b : Bytes}

theorem send_of_ok (hdeliver : n.deliver socket b = (.ok (), n')) :
    send socket b { s with network := n }.fields = .ok () { s with network := n' }.fields := by
  unfold send
  rw [get_bind, fields_network, hdeliver]
  rfl

theorem send_of_error {reason : Breakdown} (hdeliver : n.deliver socket b = (.error reason, n')) :
    send socket b { s with network := n }.fields =
      inFields (breakDown reason { s with network := n' }) := by
  -- Only a broken pipe keeps bytes from being taken.
  obtain rfl : reason = .sendFailed .brokenPipe := by
    unfold Network.deliver at hdeliver
    dsimp only at hdeliver
    split at hdeliver
    · cases hdeliver
      rfl
    · split at hdeliver <;> cases hdeliver
  unfold send
  rw [get_bind, fields_network, hdeliver]
  exact giveUp_fields rfl rfl rfl

theorem setSocket_fields {socket' : Socket} (hlink : s.connection.link = .up socket pending) :
    setSocket (some socket') s.fields = .ok () (s.setLink (.up socket' pending)).fields := by
  obtain ⟨⟨endpoint, timeout, connectTimeout, link⟩, network, journal, shown⟩ := s
  obtain rfl : link = .up socket pending := hlink
  rfl

/-- The last call that writes: all that is left is taken, or the pipe is broken. -/
theorem send_bind_fields {script : Script Departure} {result : Except Breakdown Unit}
    (hlink : s.connection.link = .up socket pending)
    (hdeliver : n.deliver socket b = (result, n')) :
    (send socket b >>= fun _ => setSocket (some { socket with departures := script }))
        { s with network := n }.fields =
      inFields (match (result.map fun _ => script, n') with
      | (.ok departures, network) =>
        .ok () ({ s with network }.setLink (.up { socket with departures } pending))
      | (.error reason, network) => breakDown reason { s with network }) := by
  cases result with
  | ok u =>
    rw [bind_of_ok (send_of_ok hdeliver)]
    exact setSocket_fields (s := { s with network := n' }) hlink
  | error reason => exact bind_of_error (send_of_error hdeliver) _

/-- Writing comes to the same in both descriptions. -/
theorem sendAll_fields {script : Script Departure}
    (hlink : s.connection.link = .up socket pending) :
    sendAll deadline socket script b { s with network := n }.fields =
      inFields (match n.sendAll deadline socket script b with
      | (.ok departures, network) =>
        .ok () ({ s with network }.setLink (.up { socket with departures } pending))
      | (.error reason, network) => breakDown reason { s with network }) := by
  -- By induction on the calls that write.
  fun_induction Network.sendAll deadline socket script b n with
  | case1 script n =>
    rw [sendAll]
    exact setSocket_fields (s := { s with network := n }) hlink
  | case2 b rest n readiness n' hwait result n'' hdeliver =>
    obtain rfl := eq_ready_of_wait_nil hwait
    rw [sendAll, bind_of_ok (waitFor_of_ready hwait)]
    exact send_bind_fields hlink hdeliver
  | case3 event script b rest n n' hwait =>
    rw [sendAll]
    exact bind_of_error (waitFor_of_timedOut .sendTimedOut rfl rfl hwait) _
  | case4 event script b rest n e n' hwait =>
    rw [sendAll]
    exact bind_of_error (waitFor_of_failed hwait) _
  | case5 event script b rest n n' hwait hevent result n'' hdeliver =>
    rw [sendAll, bind_of_ok (waitFor_of_ready hwait), hevent]
    exact send_bind_fields hlink hdeliver
  | case6 event script b rest n n' hwait limit hevent reason n'' hdeliver =>
    rw [sendAll, bind_of_ok (waitFor_of_ready hwait), hevent]
    exact bind_of_error (send_of_error hdeliver) _
  | case7 event script b rest n n' hwait n'' hevent hdeliver =>
    rw [sendAll, bind_of_ok (waitFor_of_ready hwait), hevent]
    dsimp only
    rw [bind_of_ok (send_of_ok hdeliver)]
    exact giveUp_fields rfl rfl rfl
  | case8 event script b rest n n' hwait limit hevent n'' hdeliver hlimit ih =>
    rw [sendAll, bind_of_ok (waitFor_of_ready hwait), hevent]
    dsimp only
    rw [bind_of_ok (send_of_ok hdeliver), if_neg hlimit]
    exact ih
  | case9 event script b rest n n' hwait hevent ih =>
    rw [sendAll, bind_of_ok (waitFor_of_ready hwait), hevent]
    exact ih
  | case10 event script b rest n n' hwait e hevent he =>
    rw [sendAll, bind_of_ok (waitFor_of_ready hwait), hevent]
    dsimp only
    rw [if_neg he]
    exact giveUp_fields rfl rfl rfl

end Writing

/-! ### Reading -/

section Reading

variable {shape : Shape}

theorem buffer_fields (hlink : s.connection.link = .up socket pending) :
    s.fields.buffer = pending :=
  congrArg Link.pending hlink

theorem setBuffer_fields (hlink : s.connection.link = .up socket pending) (b : Bytes) :
    setBuffer b s.fields = .ok () (s.setLink (.up socket b)).fields := by
  obtain ⟨⟨endpoint, timeout, connectTimeout, link⟩, network, journal, shown⟩ := s
  obtain rfl : link = .up socket pending := hlink
  rfl

theorem takeResponse_of_done {response : Response} {cursor : Wire.Cursor}
    (hlink : s.connection.link = .up socket pending)
    (hread : Reply.read shape (.start pending) = .done response cursor) :
    takeResponse shape s.fields =
      .ok (some response) (s.setLink (.up socket cursor.rest)).fields := by
  unfold takeResponse
  rw [get_bind, buffer_fields hlink, hread]
  exact bind_of_ok (setBuffer_fields hlink cursor.rest) _

theorem takeResponse_of_short {missing : Nat} {cursor : Wire.Cursor}
    (hlink : s.connection.link = .up socket pending)
    (hread : Reply.read shape (.start pending) = .short missing cursor) :
    takeResponse shape s.fields = .ok none s.fields := by
  unfold takeResponse
  rw [get_bind, buffer_fields hlink, hread]
  rfl

theorem takeResponse_of_malformed {reason : Wire.Fault}
    (hlink : s.connection.link = .up socket pending)
    (hread : Reply.read shape (.start pending) = .malformed reason) :
    takeResponse shape s.fields = inFields (breakDown (.invalidResponse reason) s) := by
  unfold takeResponse
  rw [get_bind, buffer_fields hlink, hread]
  exact bind_of_ok (fault_fields (.invalidResponse reason) s) _

theorem endOfStream_fields (hlink : s.connection.link = .up socket pending) :
    (endOfStream : Action α) s.fields = inFields (breakDown (Network.endOfStream pending) s) := by
  unfold endOfStream Network.endOfStream
  rw [get_bind, buffer_fields hlink]
  split <;> exact giveUp_fields rfl rfl rfl

/-- When a connection breaks, the bytes that were read are lost. -/
theorem breakDown_setLink (hlink : s.connection.link = .up socket pending) (more : Bytes)
    (reason : Breakdown) :
    (breakDown reason : Session.Action α) (s.setLink (.up socket more)) = breakDown reason s := by
  obtain ⟨⟨endpoint, timeout, connectTimeout, link⟩, network, journal, shown⟩ := s
  obtain rfl : link = .up socket pending := hlink
  rfl

theorem readResponse_of_taken {script : Script Arrival} {response : Response}
    (htake : takeResponse shape f = .ok (some response) f') :
    readResponse deadline shape socket script f =
      (do setSocket (some { socket with arrivals := script }); return response) f' := by
  cases script with
  | nil =>
    rw [readResponse]
    exact bind_of_ok htake _
  | cons event script =>
    rw [readResponse]
    exact bind_of_ok htake _

theorem readResponse_of_error {script : Script Arrival} {thrown : Thrown}
    (htake : takeResponse shape f = .error thrown f') :
    readResponse deadline shape socket script f = .error thrown f' := by
  cases script with
  | nil =>
    rw [readResponse]
    exact bind_of_error htake _
  | cons event script =>
    rw [readResponse]
    exact bind_of_error htake _

/-- As long as the response is not whole and the wait ends in time, the next call reads. -/
theorem readResponse_of_ready {event : Timed Arrival} {script : Script Arrival} {missing : Nat}
    {cursor : Wire.Cursor} {held : Socket} (hlink : s.connection.link = .up held pending)
    (hread : Reply.read shape (.start pending) = .short missing cursor)
    (hwait : n.wait deadline socket.descriptor event.pauses = (.ready, n')) :
    readResponse deadline shape socket (event :: script) { s with network := n }.fields =
      receive socket (readResponse deadline shape socket script) event.event
        { s with network := n' }.fields := by
  have hup : ({ s with network := n } : Session).connection.link = .up held pending := hlink
  rw [readResponse, bind_of_ok (takeResponse_of_short hup hread)]
  dsimp only
  rw [bind_of_ok (waitFor_of_ready hwait)]

/-- Reading comes to the same in both descriptions. -/
theorem readResponse_fields {held : Socket} {script : Script Arrival}
    (hlink : s.connection.link = .up held pending) :
    readResponse deadline shape socket script { s with network := n }.fields =
      inFields (match n.receive deadline shape socket.descriptor script pending with
      | (.ok received, network) =>
        .ok received.response ({ s with network }.setLink
          (.up { socket with arrivals := received.arrivals } received.pending))
      | (.error reason, network) => breakDown reason { s with network }) := by
  -- By induction on the calls that read. What is read is in the buffer when the next call is made.
  have hup {n : Network} {s : Session} {pending : Bytes}
      (h : s.connection.link = .up held pending) :
      ({ s with network := n } : Session).connection.link = .up held pending := h
  fun_induction Network.receive deadline shape socket.descriptor script pending n
    generalizing s with
  | case1 script pending n reason hread =>
    exact readResponse_of_error (takeResponse_of_malformed (hup hlink) hread)
  | case2 script pending n response cursor hread =>
    rw [readResponse_of_taken (takeResponse_of_done (hup hlink) hread)]
    exact bind_of_ok (setSocket_fields (show _ = Link.up held cursor.rest from rfl)) _
  | case3 pending n missing cursor hread readiness n' hwait =>
    obtain rfl := eq_ready_of_wait_nil hwait
    rw [readResponse, bind_of_ok (takeResponse_of_short (hup hlink) hread)]
    dsimp only
    rw [bind_of_ok (waitFor_of_ready hwait)]
    exact endOfStream_fields (s := { s with network := n'.record _ }) (hup hlink)
  | case4 pending n missing cursor hread event script n' hwait =>
    rw [readResponse, bind_of_ok (takeResponse_of_short (hup hlink) hread)]
    exact bind_of_error (waitFor_of_timedOut .receiveTimedOut rfl rfl hwait) _
  | case5 pending n missing cursor hread event script e n' hwait =>
    rw [readResponse, bind_of_ok (takeResponse_of_short (hup hlink) hread)]
    exact bind_of_error (waitFor_of_failed hwait) _
  | case6 pending n missing cursor hread event script n' hwait hevent =>
    rw [readResponse_of_ready hlink hread hwait, hevent]
    exact endOfStream_fields (s := { s with network := n'.record _ }) (hup hlink)
  | case7 pending n missing cursor hread event script n' hwait b hevent n'' =>
    rename_i hempty
    rw [readResponse_of_ready hlink hread hwait, hevent, receive, if_pos hempty]
    exact endOfStream_fields (s := { s with network := n'' }) (hup hlink)
  | case8 pending n missing cursor hread event script n' hwait b hevent n'' hempty =>
    rename_i ih
    rw [readResponse_of_ready hlink hread hwait, hevent, receive, if_neg hempty]
    change (setBuffer (({ s with network := n'' } : Session).fields.buffer ++ b) >>= fun _ =>
      readResponse deadline shape socket script) { s with network := n'' }.fields = _
    rw [buffer_fields (hup hlink), bind_of_ok (setBuffer_fields (hup hlink) _)]
    refine (ih (s := s.setLink (.up held (pending ++ b))) rfl).trans ?_
    rcases n''.receive deadline shape socket.descriptor script (pending ++ b) with
      ⟨result, network⟩
    cases result with
    | ok received => rfl
    | error reason =>
      exact congrArg inFields (breakDown_setLink (s := { s with network }) hlink _ reason)
  | case9 pending n missing cursor hread event script n' hwait n'' =>
    rename_i hevent ih
    rw [readResponse_of_ready hlink hread hwait, hevent]
    exact ih hlink
  | case10 pending n missing cursor hread event script n' hwait e hevent =>
    rename_i he
    rw [readResponse_of_ready hlink hread hwait, hevent, receive, if_neg he]
    exact giveUp_fields rfl rfl rfl

end Reading

/-! ### The parts of calls -/

theorem sendRequest_fields (frame : Bytes) (hlink : s.connection.link = .up socket pending) :
    sendRequest frame deadline s.fields = inFields (Session.sendRequest frame deadline s) := by
  unfold sendRequest
  rw [get_bind, fields_socket?, hlink, Link.socket?, sendRequest_eq hlink]
  exact sendAll_fields (n := s.network) hlink

theorem awaitResponse_fields (shape : Shape) (hlink : s.connection.link = .up socket pending) :
    awaitResponse shape deadline s.fields = inFields (Session.awaitResponse shape deadline s) := by
  unfold awaitResponse
  rw [get_bind, fields_socket?, fields_network, hlink, Link.socket?, awaitResponse_eq hlink]
  dsimp only
  rw [setNetwork_bind]
  exact readResponse_fields (n := (s.network.settle deadline socket).2) hlink

theorem keepSocket_fields (hlink : s.connection.link.socket? = none) :
    keepSocket deadline s.fields = inFields (Session.openSocket deadline s) := by
  have hopen := openSocket_fields deadline s
  unfold keepSocket
  rw [openSocket_eq]
  rcases hopened : s.network.openSocket deadline s.connection.endpoint with ⟨result, network⟩
  rw [hopened] at hopen
  cases result with
  | error reason => exact bind_of_error hopen _
  | ok socket =>
    rw [bind_of_ok hopen]
    -- No bytes are left over, so that the fields are those of a link that has just come up.
    obtain ⟨⟨endpoint, timeout, connectTimeout, link⟩, network', journal, shown⟩ := s
    cases link with
    | up socket pending => cases hlink
    | idle | down => rfl

/-! ### Calls -/

theorem exists_up_of_openSocket {u : Unit} (hopen : Session.openSocket deadline s = .ok u t) :
    ∃ socket, t.connection.link = .up socket [] := by
  rw [openSocket_eq] at hopen
  split at hopen
  · cases hopen
    exact ⟨_, rfl⟩
  · cases hopen

theorem exists_up_of_sendRequest {frame : Bytes} {u : Unit}
    (hlink : s.connection.link = .up socket pending)
    (hsend : Session.sendRequest frame deadline s = .ok u t) :
    ∃ socket, t.connection.link = .up socket pending := by
  rw [sendRequest_eq hlink] at hsend
  split at hsend
  · cases hsend
    exact ⟨_, rfl⟩
  · cases hsend

theorem closeSocket_of_none (hlink : s.connection.link.socket? = none) :
    closeSocket s.fields = .ok () s.fields := by
  unfold closeSocket
  rw [get_bind, fields_socket?, hlink]
  rfl

theorem setBuffer_of_none (hlink : s.connection.link.socket? = none) :
    setBuffer [] s.fields = .ok () s.fields := by
  obtain ⟨⟨endpoint, timeout, connectTimeout, link⟩, network, journal, shown⟩ := s
  cases link with
  | up socket pending => cases hlink
  | idle | down => rfl

/-- A refused greeting is thrown as a refusal. -/
theorem reject_fields (refusal : Refusal) (s : Session) :
    (do
      fault (Bytes.ascii "handshake rejected: " ++ refusal.message)
      throw (Failure.refused (Bytes.ascii "CONNECT") refusal).thrown : Action α) s.fields =
      inFields (breakDown (.rejected refusal) s) :=
  bind_of_ok (fault_fields (.rejected refusal) s) _

theorem connect_fields (s : Session) : connect s.fields = inFields (Session.connect s) := by
  unfold connect
  rw [get_bind]
  by_cases hstate : s.connection.link.state = .connected
  · -- A connection that is up is left alone.
    obtain ⟨socket, pending, hlink⟩ := Link.exists_up_of_connected hstate
    unfold Session.connect
    rw [fields_state, if_pos hstate, Session.get_bind, hlink]
    rfl
  · have hlink := Link.socket?_eq_none hstate
    rw [fields_state, if_neg hstate,
      bind_of_ok (closeSocket_of_none hlink), bind_of_ok (setBuffer_of_none hlink),
      connect_eq hlink, bind_of_ok (note_fields _ _ s)]
    refine bind_inFields (keepSocket_fields ?_) fun u opened hopen => ?_
    · rwa [addNote_connection]
    · obtain ⟨socket, hup⟩ := exists_up_of_openSocket hopen
      refine bind_inFields (awaitResponse_fields .ack hup) fun r greeted hgreet => ?_
      cases r with
      | ok payload => exact note_fields _ _ greeted
      | refused refusal => exact reject_fields refusal greeted

theorem disconnect_fields (s : Session) :
    disconnect s.fields = inFields (Session.disconnect s) := by
  obtain ⟨⟨endpoint, timeout, connectTimeout, link⟩, network, journal, shown⟩ := s
  cases link with
  | idle | down => rfl
  | up socket pending =>
    change EStateM.Result.ok () _ = .ok () (Session.setLink (Session.addNote _ _ _) .idle).fields
    unfold Session.addNote
    dsimp only [fields, dropSocket, Link.socket?]
    cases journal.write _ <;> rfl

theorem roundTrip_fields (command : Command) (s : Session) :
    roundTrip command s.fields = inFields (Session.roundTrip command s) := by
  unfold roundTrip Session.roundTrip
  rw [get_bind, Session.get_bind]
  cases hlink : s.connection.link with
  | idle =>
    rw [fields_state, hlink]
    rfl
  | down reason =>
    rw [fields_state, fields_lastError, hlink]
    rfl
  | up socket pending =>
    rw [fields_state, hlink]
    cases hframe : Request.frame command with
    | error reason => rfl
    | ok frame =>
      dsimp only
      rw [buffer_fields hlink]
      by_cases hpending : pending = []
      · rw [if_neg (Decidable.not_not.2 hpending), if_neg (Decidable.not_not.2 hpending)]
        refine bind_inFields (note_fields _ _ s) fun u noted hnoted => ?_
        have hup : noted.connection.link = .up socket [] := by
          obtain rfl := (EStateM.Result.ok.inj hnoted).2
          dsimp only
          rw [addNote_connection, hlink, hpending]
        refine bind_inFields (sendRequest_fields frame hup) fun u sent hsent => ?_
        obtain ⟨peer, hsentUp⟩ := exists_up_of_sendRequest hup hsent
        exact awaitResponse_fields command.shape hsentUp
      · rw [if_pos hpending, if_pos hpending]
        exact giveUp_fields rfl rfl rfl

end Fields
end Session
end RemoteCache
