import RemoteCache.Connection

/-!
# How calls on a connection end

A call ends with a value or with a failure, and leaves a session either way. What is said of both
ends of a call is put together from what is said of its parts.

## Main definitions

* `Session.Ends` — both ends of an action are as said
* `Session.after` — the session that an action leaves, however it ends

## Main results

* `Session.ends_bind`, `Session.Ends.bind` — one action after another
* `Session.openSocket_eq`, `Session.sendRequest_eq`, `Session.awaitResponse_eq` — the three parts of
  every call, by what the network makes of them
* `Session.ends_openSocket`, `Session.ends_sendRequest`, `Session.ends_awaitResponse` — how they end
-/

namespace RemoteCache

/-! ### Links and their states -/

namespace Link

variable {link : Link}

theorem exists_up_of_connected (h : link.state = .connected) :
    ∃ socket pending, link = .up socket pending := by
  cases link with
  | up socket pending => exact ⟨socket, pending, rfl⟩
  | idle | down => cases h

theorem socket?_eq_none (h : link.state ≠ .connected) : link.socket? = none := by
  cases link with
  | up => exact absurd rfl h
  | idle | down => rfl

/-- A link that is down has something to complain of, and no other has. -/
theorem lastError_eq_nil_iff : link.lastError = [] ↔ link.state ≠ .faulted := by
  cases link with
  | down reason => exact ⟨fun hnil => absurd hnil reason.text_ne_nil, fun h => absurd rfl h⟩
  | idle | up => exact ⟨fun _ => nofun, fun _ => rfl⟩

end Link

/-! ### Both ends of a call -/

namespace Session

variable {α β : Type} {s : Session} {done : α → Session → Prop} {failed : Failure → Session → Prop}

/-- An action that ends with a value ends as `done` says, and one that fails as `failed` says. -/
def Ends (a : Action α) (s : Session) (done : α → Session → Prop)
    (failed : Failure → Session → Prop) : Prop :=
  match a s with
  | .ok x s' => done x s'
  | .error failure s' => failed failure s'

instance {a : Action α} [∀ x s', Decidable (done x s')]
    [∀ failure s', Decidable (failed failure s')] : Decidable (Ends a s done failed) :=
  show Decidable (match a s with
    | .ok x s' => done x s'
    | .error failure s' => failed failure s') from
  match a s with
  | .ok x s' => inferInstanceAs (Decidable (done x s'))
  | .error failure s' => inferInstanceAs (Decidable (failed failure s'))

/-- The session that an action leaves, however it ends. -/
def after (a : Action α) (s : Session) : Session :=
  match a s with
  | .ok _ s' | .error _ s' => s'

theorem Ends.after {a : Action α} {P : Session → Prop}
    (h : Ends a s (fun _ => P) (fun _ => P)) : P (after a s) := by
  unfold Ends at h
  unfold Session.after
  split <;> rename_i heq <;> rw [heq] at h <;> exact h

theorem Ends.mono {a : Action α} {done' : α → Session → Prop} {failed' : Failure → Session → Prop}
    (h : Ends a s done failed) (hdone : ∀ x s', done x s' → done' x s')
    (hfailed : ∀ failure s', failed failure s' → failed' failure s') : Ends a s done' failed' := by
  unfold Ends at *
  split <;> rename_i heq <;> rw [heq] at h
  · exact hdone _ _ h
  · exact hfailed _ _ h

theorem Ends.and {a : Action α} {done' : α → Session → Prop} {failed' : Failure → Session → Prop}
    (h : Ends a s done failed) (h' : Ends a s done' failed') :
    Ends a s (fun x t => done x t ∧ done' x t)
      fun failure t => failed failure t ∧ failed' failure t := by
  unfold Ends at *
  split <;> rename_i heq <;> rw [heq] at h h' <;> exact ⟨h, h'⟩

theorem Ends.exists_ok {a : Action α} (h : Ends a s done fun _ _ => False) :
    ∃ x s', a s = .ok x s' ∧ done x s' := by
  unfold Ends at h
  split at h
  · rename_i x s' heq
    exact ⟨x, s', heq, h⟩
  · exact h.elim

/-- What is said of an action that ended with a value. -/
theorem Ends.of_eq_ok {a : Action α} {x : α} {s' : Session} (h : Ends a s done failed)
    (heq : a s = .ok x s') : done x s' := by
  unfold Ends at h
  rwa [heq] at h

theorem Ends.eq_error {a : Action α} {failure : Failure} {s' : Session}
    (h : Ends a s (fun _ _ => False) (fun f t => f = failure ∧ t = s')) :
    a s = .error failure s' := by
  unfold Ends at h
  split at h
  · exact h.elim
  · rename_i heq
    obtain ⟨rfl, rfl⟩ := h
    exact heq

/-! ### Composition -/

theorem get_bind (next : Session → Action α) (s : Session) : (get >>= next) s = next s s := rfl

theorem ends_get {next : Session → Action α} :
    Ends (get >>= next) s done failed ↔ Ends (next s) s done failed := Iff.rfl

/-- The second of two actions starts where the first one ended with a value. -/
theorem ends_bind {a : Action α} {next : α → Action β} {done : β → Session → Prop} :
    Ends (a >>= next) s done failed ↔
      Ends a s (fun x s' => Ends (next x) s' done failed) failed := by
  unfold Ends
  change (match EStateM.bind a next s with
    | .ok x s' => done x s'
    | .error failure s' => failed failure s') ↔ _
  unfold EStateM.bind
  cases a s <;> rfl

theorem Ends.bind {a : Action α} {next : α → Action β} {done : β → Session → Prop}
    {between : α → Session → Prop} (h : Ends a s between failed)
    (hnext : ∀ x s', between x s' → Ends (next x) s' done failed) :
    Ends (a >>= next) s done failed :=
  ends_bind.2 (h.mono hnext fun _ _ hfailed => hfailed)

/-! ### Notes -/

@[simp] theorem addNote_connection (s : Session) (level : Level) (message : Bytes) :
    (s.addNote level message).connection = s.connection := by
  unfold addNote
  split <;> rfl

@[simp] theorem addNote_network (s : Session) (level : Level) (message : Bytes) :
    (s.addNote level message).network = s.network := by
  unfold addNote
  split <;> rfl

/-! ### The parts of calls -/

theorem ends_note {level : Level} {message : Bytes} {done : Unit → Session → Prop} :
    Ends (note level message) s done failed ↔ done () (s.addNote level message) := Iff.rfl

theorem ends_breakDown {reason : Breakdown} :
    Ends (breakDown reason : Action α) s done failed ↔
      failed reason.failure (s.breakWith reason) := Iff.rfl

theorem openSocket_eq {deadline : Deadline} :
    openSocket deadline s =
      match s.network.openSocket deadline s.connection.endpoint with
      | (.ok socket, network) => .ok () ({ s with network }.setLink (.up socket []))
      | (.error reason, network) =>
        .error reason.failure ({ s with network }.breakWith reason) := by
  unfold openSocket
  rw [get_bind]
  rcases s.network.openSocket deadline s.connection.endpoint with ⟨result, network⟩
  cases result <;> rfl

theorem sendRequest_eq {frame : Bytes} {deadline : Deadline} {socket : Socket} {pending : Bytes}
    (hlink : s.connection.link = .up socket pending) :
    sendRequest frame deadline s =
      match s.network.sendAll deadline socket socket.departures frame with
      | (.ok departures, network) =>
        .ok () ({ s with network }.setLink (.up { socket with departures } pending))
      | (.error reason, network) =>
        .error reason.failure ({ s with network }.breakWith reason) := by
  unfold sendRequest
  rw [get_bind, hlink]
  dsimp only
  rcases s.network.sendAll deadline socket socket.departures frame with ⟨result, network⟩
  cases result <;> rfl

theorem awaitResponse_eq {shape : Shape} {deadline : Deadline} {socket : Socket} {pending : Bytes}
    (hlink : s.connection.link = .up socket pending) :
    awaitResponse shape deadline s =
      match (s.network.settle deadline socket).2.receive deadline shape
        (s.network.settle deadline socket).1.descriptor
        (s.network.settle deadline socket).1.arrivals pending with
      | (.ok received, network) =>
        .ok received.response ({ s with network }.setLink (.up
          { (s.network.settle deadline socket).1 with arrivals := received.arrivals }
          received.pending))
      | (.error reason, network) =>
        .error reason.failure ({ s with network }.breakWith reason) := by
  unfold awaitResponse
  rw [get_bind, hlink]
  dsimp only
  rcases s.network.settle deadline socket with ⟨settled, network⟩
  dsimp only
  rcases network.receive deadline shape settled.descriptor settled.arrivals pending with
    ⟨result, network'⟩
  cases result <;> rfl

/-- To open a connection that has no socket is to be greeted over a new one. -/
theorem connect_eq (hlink : s.connection.link.socket? = none) :
    connect s =
      (do
        openSocket (Deadline.after s.network.clock s.connection.connectTimeout)
        match ← awaitResponse .ack (Deadline.after s.network.clock s.connection.connectTimeout) with
        | .refused refusal => breakDown (.rejected refusal)
        | .ok _ => note .info (Bytes.ascii "connected to " ++ s.connection.endpoint.text))
        (s.addNote .debug (Bytes.ascii "connecting to " ++ s.connection.endpoint.text)) := by
  unfold connect
  rw [get_bind]
  cases hold : s.connection.link with
  | up socket pending =>
    rw [hold] at hlink
    cases hlink
  | idle | down => rfl

theorem ends_openSocket {deadline : Deadline} {done : Unit → Session → Prop} :
    Ends (openSocket deadline) s done failed ↔
      match s.network.openSocket deadline s.connection.endpoint with
      | (.ok socket, network) => done () ({ s with network }.setLink (.up socket []))
      | (.error reason, network) =>
        failed reason.failure ({ s with network }.breakWith reason) := by
  unfold Ends
  rw [openSocket_eq]
  rcases s.network.openSocket deadline s.connection.endpoint with ⟨result, network⟩
  cases result <;> rfl

theorem ends_sendRequest {frame : Bytes} {deadline : Deadline} {done : Unit → Session → Prop}
    {socket : Socket} {pending : Bytes} (hlink : s.connection.link = .up socket pending) :
    Ends (sendRequest frame deadline) s done failed ↔
      match s.network.sendAll deadline socket socket.departures frame with
      | (.ok departures, network) =>
        done () ({ s with network }.setLink (.up { socket with departures } pending))
      | (.error reason, network) =>
        failed reason.failure ({ s with network }.breakWith reason) := by
  unfold Ends
  rw [sendRequest_eq hlink]
  rcases s.network.sendAll deadline socket socket.departures frame with ⟨result, network⟩
  cases result <;> rfl

theorem ends_awaitResponse {shape : Shape} {deadline : Deadline}
    {done : Response → Session → Prop} {socket : Socket} {pending : Bytes}
    (hlink : s.connection.link = .up socket pending) :
    Ends (awaitResponse shape deadline) s done failed ↔
      match (s.network.settle deadline socket).2.receive deadline shape
        (s.network.settle deadline socket).1.descriptor
        (s.network.settle deadline socket).1.arrivals pending with
      | (.ok received, network) =>
        done received.response ({ s with network }.setLink (.up
          { (s.network.settle deadline socket).1 with arrivals := received.arrivals }
          received.pending))
      | (.error reason, network) =>
        failed reason.failure ({ s with network }.breakWith reason) := by
  unfold Ends
  rw [awaitResponse_eq hlink]
  rcases (s.network.settle deadline socket).2.receive deadline shape
    (s.network.settle deadline socket).1.descriptor
    (s.network.settle deadline socket).1.arrivals pending with ⟨result, network⟩
  cases result <;> rfl

end Session

end RemoteCache
