import RemoteCache.Proofs.Client.Questions
import RemoteCache.Proofs.Session.Notes

/-!
# Two runs with different journals

A program makes a client and takes turns with it, and the world changes in between. Before each turn
the program may set the journal as it likes. Two runs that differ in their journals alone cannot be
told apart by anything but what is shown: every call returns the same value or fails with the same
failure, leaves the same connection, and has made the same calls on the network. What is shown comes
of the same notes in both.

## Main definitions

* `Client.Deed` — a call of a program on its client, or a change in the world around it
* `Client.Turn` — a deed, and the journal from then on
* `Client.Observation` — all that can be told of a turn but what was shown
* `Client.perform` — the turns of a program, each with what was shown

## Main results

* `Client.discreet_execute`, `Client.Question.discreet_ask` — a question takes no notice of the
  journal, however often its command is repeated
* `Client.exists_decided` — the deeds decide what is observed and which notes are made
* `Client.turns_alike` — two runs with different journals
-/

namespace RemoteCache.Client

open Session

variable {α : Type} {client : Client} {command : Command}

/-! ### Questions -/

theorem discreet_attempt (command : Command) (isRepeated : Bool) :
    Discreet (attempt command isRepeated) := by
  have hround : Discreet (Session.roundTrip command) := .roundTrip command
  unfold attempt
  refine .get (fun s => ?_) fun s t hconnection _ => by rw [hconnection]
  split
  · exact hround
  · exact Discreet.connect.bind fun _ => hround
  · cases isRepeated with
    | true => exact Discreet.connect.bind fun _ => hround
    | false => exact hround

/-- What follows an attempt, of which so many may still be repeated. The link that a failed attempt
leaves tells whether another one follows. -/
def afterAttempt (client : Client) (command : Command) (left : Nat) :
    Except Failure Response → Action Response
  | .ok response => return response
  | .error failure => do
    let s ← MonadState.get
    if isRepeatable failure s.connection.link then
      note .warn (retryNote command failure (client.reconnects - left) client.reconnects)
      client.attempts command true left
    else throw failure

theorem attempts_succ (client : Client) (command : Command) (isRepeated : Bool) (left : Nat) :
    client.attempts command isRepeated (left + 1) =
      followedBy (attempt command isRepeated) (client.afterAttempt command left) := by
  funext s
  rw [attempts, followedBy]
  dsimp only
  cases attempt command isRepeated s with
  | ok response s' => rfl
  | error failure s' =>
    unfold afterAttempt
    dsimp only
    rw [get_bind]
    split <;> rfl

/-- However often a command may be repeated. -/
theorem discreet_attempts (client : Client) (command : Command) (isRepeated : Bool) (left : Nat) :
    Discreet (client.attempts command isRepeated left) := by
  -- The attempt that follows a failure is a repeated one, whatever this one is.
  induction left generalizing isRepeated with
  | zero => exact discreet_attempt command isRepeated
  | succ left ih =>
    rw [attempts_succ]
    refine (discreet_attempt command isRepeated).followedBy fun told => ?_
    cases told with
    | ok response => exact .pure response
    | error failure =>
      refine .get (fun s => ?_) fun s t hconnection _ => by rw [hconnection]
      split
      · exact (Discreet.note _ _).bind fun _ => ih true
      · exact .throws failure

theorem discreet_execute (client : Client) (command : Command) :
    Discreet (client.execute command) := by
  unfold execute
  split
  · exact .throws _
  · exact discreet_attempts client command false _

theorem Question.discreet_ask (client : Client) (q : Question α) : Discreet (q.ask client) := by
  rw [q.ask_eq]
  refine (discreet_execute client q.command).bind fun r => ?_
  unfold tell
  split
  · exact .pure _
  · exact .throws _

/-! ### Turns -/

/-- A call of a program on its client, or a change in the world around it. -/
inductive Deed : Type 1
  | connect
  | reconnect
  | disconnect
  | ask {α : Type} (q : Question α)
  /-- Time passes, other attempts to connect lie ahead, the server becomes another, and the
  descriptors to come are any. -/
  | world (change : Network → Network)
  /-- The open socket, if there is one, will meet other things. -/
  | traffic (arrivals : Script Arrival) (departures : Script Departure)

namespace Deed

/-- What a deed is answered with. -/
def Answer : Deed → Type
  | @ask α _ => α
  | _ => Unit

/-- The world changes, but the record of the calls stays. -/
def changeWorld (change : Network → Network) (s : Session) : Session :=
  { s with network := { change s.network with calls := s.network.calls } }

/-- The open socket, if there is one, will meet other things. -/
def changeTraffic (arrivals : Script Arrival) (departures : Script Departure) (s : Session) :
    Session :=
  match s.connection.link with
  | .up socket pending => s.setLink (.up { socket with arrivals, departures } pending)
  | _ => s

/-- What a client does for a deed. -/
def action (client : Client) : (deed : Deed) → Action deed.Answer
  | connect => Client.connect
  | reconnect => Client.reconnect
  | disconnect => Client.disconnect
  | ask q => q.ask client
  | world change => modify (changeWorld change)
  | traffic arrivals departures => modify (changeTraffic arrivals departures)

theorem discreet_action (client : Client) (deed : Deed) : Discreet (deed.action client) := by
  cases deed with
  | connect => exact Discreet.connect
  | reconnect => exact Discreet.disconnect.bind fun _ => .connect
  | disconnect => exact Discreet.disconnect
  | ask q => exact q.discreet_ask client
  | world change =>
    intro connection network
    exact ⟨⟨.ok (), connection, { change network with calls := network.calls }, []⟩,
      fun _ _ => rfl⟩
  | traffic arrivals departures =>
    rintro ⟨endpoint, timeout, connectTimeout, link⟩ network
    cases link with
    | up socket pending =>
      exact ⟨⟨.ok (), ⟨endpoint, timeout, connectTimeout,
        .up { socket with arrivals, departures } pending⟩, network, []⟩, fun _ _ => rfl⟩
    | idle => exact Discreet.pure () _ network
    | down reason => exact Discreet.pure () _ network

end Deed

/-- A deed, and the journal from then on. -/
structure Turn where
  journal : Journal
  deed : Deed

/-- All that can be told of a turn but what was shown: how its deed ended, the connection that it
left, and the network with the record of all calls. -/
structure Observation where
  told : (α : Type) × Except Failure α
  connection : Connection
  network : Network

/-- What can be told of a call that has ended. -/
def Observation.ofResult : EStateM.Result Failure Session α → Observation
  | .ok x s => ⟨⟨α, .ok x⟩, s.connection, s.network⟩
  | .error failure s => ⟨⟨α, .error failure⟩, s.connection, s.network⟩

/-- What can be told of an upshot. Its notes do not count. -/
def Observation.ofUpshot (u : Upshot α) : Observation := ⟨⟨α, u.told⟩, u.connection, u.network⟩

/-- The turns of a program, each with what was shown in it. -/
def perform (client : Client) : List Turn → Session → List (Observation × List Utterance)
  | [], _ => []
  | turn :: more, s =>
    let result := turn.deed.action client { s with journal := turn.journal }
    let s' := after (turn.deed.action client) { s with journal := turn.journal }
    (.ofResult result, s'.shownSince s) :: perform client more s'

/-- What is shown in a turn of which this is decided. -/
def Turn.present (turn : Turn) (decided : Observation × List Note) :
    Observation × List Utterance :=
  (decided.1, turn.journal.writeAll decided.2)

theorem ofResult_under (u : Upshot α) (journal : Journal) (shown : List Utterance) :
    Observation.ofResult (u.under journal shown) = .ofUpshot u := by
  unfold Upshot.under Observation.ofUpshot
  cases u.told <;> rfl

theorem after_of_isOf {u : Upshot α} {a : Action α} {connection : Connection} {network : Network}
    (h : u.IsOf a connection network) (journal : Journal) (shown : List Utterance) :
    after a ⟨connection, network, journal, shown⟩ = u.session journal shown := by
  unfold after
  rw [h]
  unfold Upshot.under
  cases u.told <;> rfl

theorem shownSince_session (u : Upshot α) (journal : Journal) (s : Session) :
    (u.session journal s.shown).shownSince s = journal.writeAll u.notes := by
  simp [shownSince, Upshot.session]

/-- The deeds of a program decide what is observed in its turns and which notes are made, and the
journal of each turn decides what is shown of its notes. -/
theorem exists_decided (client : Client) (deeds : List Deed) (connection : Connection)
    (network : Network) :
    ∃ decided : List (Observation × List Note), decided.length = deeds.length ∧
      ∀ turns : List Turn, turns.map Turn.deed = deeds → ∀ journal shown,
        client.perform turns ⟨connection, network, journal, shown⟩ =
          List.zipWith Turn.present turns decided := by
  -- Programs that differ in their journals share the deeds but not the turns, so the induction is
  -- on the deeds, and what it finds is said of all turns with these.
  induction deeds generalizing connection network with
  | nil =>
    refine ⟨[], rfl, fun turns hturns journal shown => ?_⟩
    rw [List.map_eq_nil_iff.1 hturns]
    rfl
  | cons deed deeds ih =>
    obtain ⟨u, hu⟩ := deed.discreet_action client connection network
    obtain ⟨decided, hlength, hdecided⟩ := ih u.connection u.network
    refine ⟨(.ofUpshot u, u.notes) :: decided, congrArg Nat.succ hlength, ?_⟩
    intro turns hturns journal shown
    obtain ⟨⟨journal', _⟩, more, rfl, rfl, hmore⟩ := List.map_eq_cons_iff.1 hturns
    rw [perform, List.zipWith_cons_cons]
    dsimp only
    rw [hu, ofResult_under, after_of_isOf hu]
    -- The turns that follow begin with the journal of this one.
    have hfollowing := hdecided more hmore journal' ((journal'.writeAll u.notes).reverse ++ shown)
    have hshown := shownSince_session u journal' ⟨connection, network, journal, shown⟩
    exact congrArg₂ _ (Prod.ext rfl hshown) hfollowing

section Presented

variable {turns : List Turn} {decided : List (Observation × List Note)}

theorem map_fst_present (h : decided.length = turns.length) :
    (List.zipWith Turn.present turns decided).map Prod.fst = decided.map Prod.fst := by
  induction turns generalizing decided with
  | nil =>
    rw [List.length_eq_zero_iff.1 h]
    rfl
  | cons turn turns ih =>
    obtain ⟨first, rest, rfl⟩ := List.exists_cons_of_length_eq_add_one h
    rw [List.zipWith_cons_cons, List.map_cons, List.map_cons, ih (Nat.succ.inj h)]
    rfl

theorem map_snd_present :
    (List.zipWith Turn.present turns decided).map Prod.snd =
      List.zipWith (fun turn => turn.journal.writeAll) turns (decided.map Prod.snd) := by
  rw [List.map_zipWith, List.zipWith_map_right]
  rfl

end Presented

/-- Two programs make a client of the same address with the same settings in the same world, and
their turns differ in the journals alone. Then they both fail to make it, for the same reason, or
all that can be told of their turns is the same: the values and failures, the connection with its
state and its last error, and the network with all calls and all bytes that passed over each socket.
The same notes are made in both, of which each shows what its journal wants. -/
theorem turns_alike {turns turns' : List Turn}
    (hdeeds : turns.map Turn.deed = turns'.map Turn.deed) (address : Bytes)
    (timeout connectTimeout reconnects : Int) (network : Network) (journal journal' : Journal) :
    (∃ failure, start address timeout connectTimeout reconnects network journal = .error failure ∧
      start address timeout connectTimeout reconnects network journal' = .error failure) ∨
    ∃ client s, start address timeout connectTimeout reconnects network journal = .ok (client, s) ∧
      start address timeout connectTimeout reconnects network journal' =
        .ok (client, { s with journal := journal' }) ∧
      (client.perform turns s).map Prod.fst =
        (client.perform turns' { s with journal := journal' }).map Prod.fst ∧
      ∃ notes : List (List Note), notes.length = turns.length ∧
        (client.perform turns s).map Prod.snd =
          List.zipWith (fun turn => turn.journal.writeAll) turns notes ∧
        (client.perform turns' { s with journal := journal' }).map Prod.snd =
          List.zipWith (fun turn => turn.journal.writeAll) turns' notes := by
  unfold start
  cases Endpoint.read address with
  | error fault => exact .inl ⟨.address address fault, rfl, rfl⟩
  | ok endpoint =>
    refine .inr ⟨_, _, rfl, rfl, ?_⟩
    obtain ⟨decided, hlength, hdecided⟩ := exists_decided { reconnects } (turns.map Turn.deed)
      { endpoint, timeout, connectTimeout } network
    have hturns : decided.length = turns.length := hlength.trans (List.length_map _)
    have hturns' : decided.length = turns'.length := by
      rw [hlength, hdeeds, List.length_map]
    rw [hdecided turns rfl, hdecided turns' hdeeds.symm, map_fst_present hturns,
      map_fst_present hturns', map_snd_present, map_snd_present]
    exact ⟨rfl, decided.map Prod.snd, (List.length_map _).trans hturns, rfl, rfl⟩

/-- A ping is answered over a connection that is opened for it. The next request fails and is
repeated over another one. One program shows all its notes, the other one none of the first turn and
only those of the second that are warnings. -/
theorem turns_alike_debug :
    ∃ (network : Network) (turns turns' : List Turn) (client : Client) (s : Session),
      turns.map Turn.deed = turns'.map Turn.deed ∧
      start (Bytes.ascii "paper://h:1") 0 0 1 network {} = .ok (client, s) ∧
      (client.perform turns s).map (fun turn => (turn.1.connection.link.state, turn.2.length)) =
        [(.connected, 3), (.connected, 6)] ∧
      (client.perform turns' { s with journal := { isDiverted := true } }).map
        (fun turn => (turn.1.connection.link.state, turn.2.length)) =
          [(.connected, 0), (.connected, 2)] ∧
      (client.perform turns s).map Prod.fst =
        (client.perform turns' { s with journal := { isDiverted := true } }).map Prod.fst := by
  let network : Network := { attempts := [
    { arrivals := some [⟨[], .segment [0x21]⟩,
        ⟨[], .segment [0x21, 4, 0, 0, 0, 112, 111, 110, 103]⟩],
      departures := [⟨[], .accept none⟩, ⟨[], .failed .connectionReset⟩] },
    { arrivals := some [⟨[], .segment [0x21]⟩, ⟨[], .segment [0x3F, 0, 1]⟩] }] }
  let turns : List Turn :=
    [⟨{ level := .debug }, .ask .ping⟩, ⟨{ level := .debug }, .ask (.get [107])⟩]
  let turns' : List Turn :=
    [⟨{ level := .none }, .ask .ping⟩, ⟨{ isDiverted := true }, .ask (.get [107])⟩]
  let endpoint : Endpoint := { host := [104], port := 1 }
  have hread : Endpoint.read (Bytes.ascii "paper://h:1") = .ok endpoint := by decide +kernel
  have hstart : start (Bytes.ascii "paper://h:1") 0 0 1 network {} =
      .ok ({ reconnects := 1 }, { connection := { endpoint }, network }) := by
    unfold start
    rw [hread]
  have hdeeds : turns.map Turn.deed = turns'.map Turn.deed := rfl
  refine ⟨network, turns, turns', _, _, hdeeds, hstart, by decide +kernel, by decide +kernel, ?_⟩
  rcases turns_alike hdeeds (Bytes.ascii "paper://h:1") 0 0 1 network {} { isDiverted := true } with
    ⟨failure, hfailed, -⟩ | ⟨client, s, hmade, -, hsame, -⟩
  · rw [hstart] at hfailed
    cases hfailed
  · rw [hstart] at hmade
    cases hmade
    exact hsame

end RemoteCache.Client
