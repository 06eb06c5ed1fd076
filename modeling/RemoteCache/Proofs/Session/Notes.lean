import RemoteCache.Proofs.Session.Ends

/-!
# Calls and their notes

A call makes notes, but it never looks at the journal. What it comes to is decided by the connection
and the network alone, the notes that it makes included. The journal decides only which of them are
shown, where, and in which words. This is said of one call after another, whichever way the first
one ends, so it is said of every call on a connection.

## Main definitions

* `Session.Upshot` — what an action comes to, and the notes that it makes
* `Session.Upshot.under` — the end of the action with a given journal
* `Session.Discreet` — an action that takes no notice of the journal
* `Session.followedBy` — an action, and another one whichever way the first one ends

## Main results

* `Session.Discreet.followedBy`, `Session.Discreet.bind` — one discreet action after another
* `Session.Discreet.connect`, `Session.Discreet.disconnect`, `Session.Discreet.roundTrip` — the
  calls on a connection are discreet
-/

namespace RemoteCache

theorem Journal.writeAll_append (j : Journal) (notes more : List Note) :
    j.writeAll (notes ++ more) = j.writeAll notes ++ j.writeAll more :=
  List.filterMap_append

namespace Session

variable {α β : Type}

/-- What an action comes to: how it ends, the connection and the network that it leaves, and the
notes that it makes, the earliest first. -/
structure Upshot (α : Type) where
  told : Except Failure α
  connection : Connection
  network : Network
  notes : List Note

namespace Upshot

/-- The session that is left, with a given journal and behind what was shown before. -/
def session (u : Upshot α) (journal : Journal) (shown : List Utterance) : Session :=
  ⟨u.connection, u.network, journal, (journal.writeAll u.notes).reverse ++ shown⟩

/-- The end of an action with a given journal. -/
def under (u : Upshot α) (journal : Journal) (shown : List Utterance) :
    EStateM.Result Failure Session α :=
  match u.told with
  | .ok x => .ok x (u.session journal shown)
  | .error failure => .error failure (u.session journal shown)

/-- Whatever the journal is and whatever was shown before, this is what an action comes to. -/
def IsOf (u : Upshot α) (a : Action α) (connection : Connection) (network : Network) : Prop :=
  ∀ journal shown, a ⟨connection, network, journal, shown⟩ = u.under journal shown

/-- What two actions come to, one after the other. -/
def andThen (u : Upshot α) (v : Upshot β) : Upshot β := { v with notes := u.notes ++ v.notes }

theorem under_andThen (u : Upshot α) (v : Upshot β) (journal : Journal) (shown : List Utterance) :
    (u.andThen v).under journal shown =
      v.under journal ((journal.writeAll u.notes).reverse ++ shown) := by
  have hsession : (u.andThen v).session journal shown =
      v.session journal ((journal.writeAll u.notes).reverse ++ shown) := by
    simp [session, andThen, Journal.writeAll_append]
  unfold under
  rw [hsession]
  rfl

end Upshot

/-- An action that takes no notice of the journal: the connection and the network alone decide what
it comes to. -/
def Discreet (a : Action α) : Prop :=
  ∀ connection network, ∃ u : Upshot α, u.IsOf a connection network

/-! ### Combinators -/

theorem Discreet.pure (x : α) : Discreet (Pure.pure x : Action α) :=
  fun connection network => ⟨⟨.ok x, connection, network, []⟩, fun _ _ => rfl⟩

theorem Discreet.throws (failure : Failure) : Discreet (throw failure : Action α) :=
  fun connection network => ⟨⟨.error failure, connection, network, []⟩, fun _ _ => rfl⟩

/-- An action, and then another one that depends on how the first one ended. -/
def followedBy (a : Action α) (next : Except Failure α → Action β) : Action β := fun s =>
  match a s with
  | .ok x s' => next (.ok x) s'
  | .error failure s' => next (.error failure) s'

theorem Discreet.followedBy {a : Action α} {next : Except Failure α → Action β} (ha : Discreet a)
    (hnext : ∀ told, Discreet (next told)) : Discreet (followedBy a next) := by
  intro connection network
  obtain ⟨u, hu⟩ := ha connection network
  obtain ⟨v, hv⟩ := hnext u.told u.connection u.network
  refine ⟨u.andThen v, fun journal shown => ?_⟩
  -- What the first action showed is for the second one what was shown before.
  rw [Upshot.under_andThen, ← hv, Session.followedBy, hu]
  unfold Upshot.under
  cases u.told <;> rfl

/-- What follows an action only if it ended with a value. -/
def orThrow (next : α → Action β) : Except Failure α → Action β
  | .ok x => next x
  | .error failure => throw failure

theorem bind_eq_followedBy (a : Action α) (next : α → Action β) :
    a >>= next = followedBy a (orThrow next) := by
  funext s
  change EStateM.bind a next s = followedBy a (orThrow next) s
  unfold EStateM.bind followedBy
  cases a s <;> rfl

theorem Discreet.bind {a : Action α} {next : α → Action β} (ha : Discreet a)
    (hnext : ∀ x, Discreet (next x)) : Discreet (a >>= next) := by
  rw [bind_eq_followedBy]
  refine ha.followedBy fun told => ?_
  cases told with
  | ok x => exact hnext x
  | error failure => exact .throws failure

/-- An action that looks at the session, but only at its connection and its network. -/
theorem Discreet.get {next : Session → Action α} (hnext : ∀ s, Discreet (next s))
    (hsame : ∀ s t : Session, s.connection = t.connection → s.network = t.network →
      next s = next t) : Discreet (get >>= next) := by
  intro connection network
  -- The journal of the session that is looked at is not among what decides, so any will do.
  obtain ⟨u, hu⟩ := hnext ⟨connection, network, {}, []⟩ connection network
  refine ⟨u, fun journal shown => ?_⟩
  have hlook := hsame ⟨connection, network, journal, shown⟩ ⟨connection, network, {}, []⟩ rfl rfl
  exact (get_bind next _).trans ((congrFun hlook _).trans (hu journal shown))

/-! ### Notes and breakdowns -/

variable {connection : Connection} {network : Network} {journal : Journal}
  {shown : List Utterance}

theorem addNote_mk (level : Level) (message : Bytes) :
    addNote ⟨connection, network, journal, shown⟩ level message =
      ⟨connection, network, journal, (journal.writeAll [⟨level, message⟩]).reverse ++ shown⟩ := by
  unfold addNote Journal.writeAll
  rw [List.filterMap_cons]
  dsimp only
  cases journal.write ⟨level, message⟩ <;> rfl

theorem Discreet.note (level : Level) (message : Bytes) : Discreet (note level message) := by
  intro connection network
  refine ⟨⟨.ok (), connection, network, [⟨level, message⟩]⟩, fun journal shown => ?_⟩
  exact congrArg _ (addNote_mk level message)

/-- The network once the socket of a connection is closed, if there is one. -/
def dropped (connection : Connection) (network : Network) : Network :=
  match connection.link.socket? with
  | some socket => network.close socket
  | none => network

theorem breakWith_mk (reason : Breakdown) :
    breakWith ⟨connection, network, journal, shown⟩ reason =
      ⟨{ connection with link := .down reason }, dropped connection network, journal,
        (journal.writeAll
          [⟨.warn, connection.endpoint.text ++ Bytes.ascii ": " ++ reason.text⟩]).reverse ++
          shown⟩ := by
  have hdrop : dropSocket ⟨connection, network, journal, shown⟩ =
      ⟨connection, dropped connection network, journal, shown⟩ := by
    unfold dropSocket dropped
    dsimp only
    cases connection.link.socket? <;> rfl
  unfold breakWith
  rw [hdrop]
  exact addNote_mk _ _

/-- How a part of a call ends: with a value and another link, or with a breakdown. -/
def endPart (ending : Except Breakdown (α × Link)) (s : Session) :
    EStateM.Result Failure Session α :=
  match ending with
  | .ok (x, link) => .ok x (s.setLink link)
  | .error reason => .error reason.failure (s.breakWith reason)

/-- An action is discreet where it ends like a part of a call, in a way that the journal has no say
in. -/
theorem exists_isOf {a : Action α} (network' : Network) (ending : Except Breakdown (α × Link))
    (h : ∀ journal shown, a ⟨connection, network, journal, shown⟩ =
      endPart ending ⟨connection, network', journal, shown⟩) :
    ∃ u : Upshot α, u.IsOf a connection network := by
  cases ending with
  | ok found =>
    exact ⟨⟨.ok found.1, { connection with link := found.2 }, network', []⟩, h⟩
  | error reason =>
    refine ⟨⟨.error reason.failure, { connection with link := .down reason },
      dropped connection network',
      [⟨.warn, connection.endpoint.text ++ Bytes.ascii ": " ++ reason.text⟩]⟩,
      fun journal shown => ?_⟩
    rw [h]
    exact congrArg _ (breakWith_mk reason)

theorem Discreet.breakDown (reason : Breakdown) : Discreet (breakDown reason : Action α) :=
  fun _ network => exists_isOf network (.error reason) fun _ _ => rfl

/-! ### The parts of calls -/

theorem Discreet.openSocket (deadline : Deadline) : Discreet (openSocket deadline) := by
  intro connection network
  rcases hopen : network.openSocket deadline connection.endpoint with ⟨result, network'⟩
  refine exists_isOf network' (result.map fun socket => ((), .up socket []))
    fun journal shown => ?_
  unfold Session.openSocket
  rw [get_bind]
  dsimp only
  rw [hopen]
  cases result <;> rfl

theorem Discreet.sendRequest (frame : Bytes) (deadline : Deadline) :
    Discreet (sendRequest frame deadline) := by
  rintro ⟨endpoint, timeout, connectTimeout, link⟩ network
  cases link with
  | up socket pending =>
    rcases hsend : network.sendAll deadline socket socket.departures frame with
      ⟨result, network'⟩
    refine exists_isOf network' (result.map fun departures =>
      ((), .up { socket with departures } pending)) fun journal shown => ?_
    unfold Session.sendRequest
    rw [get_bind]
    dsimp only
    rw [hsend]
    cases result <;> rfl
  | idle => exact Discreet.throws (.notConnected endpoint) _ network
  | down reason => exact Discreet.throws (.broken endpoint reason) _ network

theorem Discreet.awaitResponse (shape : Shape) (deadline : Deadline) :
    Discreet (awaitResponse shape deadline) := by
  rintro ⟨endpoint, timeout, connectTimeout, link⟩ network
  cases link with
  | up socket pending =>
    rcases hsettle : network.settle deadline socket with ⟨settled, attended⟩
    rcases hreceive : attended.receive deadline shape settled.descriptor settled.arrivals pending
      with ⟨result, network'⟩
    refine exists_isOf network' (result.map fun received => (received.response,
      .up { settled with arrivals := received.arrivals } received.pending)) fun journal shown => ?_
    unfold Session.awaitResponse
    rw [get_bind]
    dsimp only
    rw [hsettle]
    dsimp only
    rw [hreceive]
    cases result <;> rfl
  | idle => exact Discreet.throws (.notConnected endpoint) _ network
  | down reason => exact Discreet.throws (.broken endpoint reason) _ network

/-! ### Calls -/

theorem Discreet.connect : Discreet connect := by
  unfold Session.connect
  refine .get (fun s => ?_) fun s t hconnection hnetwork => by rw [hconnection, hnetwork]
  split
  · exact .pure ()
  · refine (Discreet.note _ _).bind fun _ => (Discreet.openSocket _).bind fun _ =>
      (Discreet.awaitResponse _ _).bind fun response => ?_
    cases response with
    | ok payload => exact .note _ _
    | refused refusal => exact .breakDown _

theorem Discreet.disconnect : Discreet disconnect := by
  rintro ⟨endpoint, timeout, connectTimeout, link⟩ network
  cases link with
  | up socket pending =>
    refine ⟨⟨.ok (), ⟨endpoint, timeout, connectTimeout, .idle⟩, network.close socket,
      [⟨.debug, Bytes.ascii "disconnected from " ++ endpoint.text⟩]⟩, fun journal shown => ?_⟩
    -- The end is noted while the link is still what it was.
    exact congrArg (fun s => EStateM.Result.ok () (setLink s .idle)) (addNote_mk _ _)
  | idle | down reason =>
    exact ⟨⟨.ok (), ⟨endpoint, timeout, connectTimeout, .idle⟩, network, []⟩, fun _ _ => rfl⟩

theorem Discreet.roundTrip (command : Command) : Discreet (roundTrip command) := by
  unfold Session.roundTrip
  refine .get (fun s => ?_) fun s t hconnection hnetwork => by rw [hconnection, hnetwork]
  split
  · exact .throws _
  · exact .throws _
  · split
    · exact .throws _
    · split
      · exact .breakDown .unsolicited
      · exact (Discreet.note _ _).bind fun _ => (Discreet.sendRequest _ _).bind fun _ =>
          .awaitResponse command.shape _

end Session

end RemoteCache
