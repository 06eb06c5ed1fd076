import RemoteCache.Proofs.Client.Verdicts
import RemoteCache.Proofs.Session.Consistency

/-!
# What a client writes

Whatever a program asks and whatever the network does, each socket takes the frames of commands
that were asked, in the order in which they were. Behind them there may be the beginning of one
more frame, and then the socket is closed. No frame is begun while the peer still owes a greeting or
a reply.

## Main definitions

* `Client.Spent` — a closed socket, accounted for by commands that were asked
* `Client.Accounts` — all sockets are accounted for
* `Client.Run` — the calls of a program on one client, and what changes around it in between

## Main results

* `Client.Accounts.attempt`, `Client.Accounts.attempts`, `Client.Accounts.ask` — every call keeps
  the sockets accounted for, whether it returns or fails
* `Client.frames_of_run` — what each socket has taken after a run
-/

namespace RemoteCache.Client

open Session Call

variable {client : Client} {s s' : Session} {command : Command}
  {asked past commands : List Command}

/-- A socket that was closed took commands that can be sent and were asked, in this order. -/
def Spent (asked : List Command) (life : Life) : Prop :=
  ∃ commands, Finished life.descriptor commands life.calls ∧ (∀ c ∈ commands, c.Valid) ∧
    commands.Sublist asked

/-- All sockets are accounted for: the one of the link by some commands, which were answered, and
those that were closed by others, to which one more may belong than to the former. -/
inductive Accounts (asked past : List Command) (s : Session) : Prop
  | up {socket : Socket} {pending : Bytes} {commands : List Command} {calls : List Call}
      (hlink : s.connection.link = .up socket pending)
      (hdialogue : Dialogue socket.descriptor commands pending calls)
      (hvalid : ∀ c ∈ commands, c.Valid) (horder : commands.Sublist asked)
      (hlives : Lived (Spent past) [⟨socket.descriptor, true, calls⟩] s.network.calls)
  | unconnected (hlink : s.connection.link.socket? = none)
      (hlives : Lived (Spent past) [] s.network.calls)

/-! ### Sockets that are closed -/

theorem Spent.mono {life : Life} (h : Spent asked life) (horder : asked.Sublist past) :
    Spent past life := by
  obtain ⟨commands, hfinished, hvalid, hasked⟩ := h
  exact ⟨commands, hfinished, hvalid, hasked.trans horder⟩

/-- A socket from which bytes were read, and to which none were written. -/
theorem spent_of_carries {d : Nat} {b : Bytes} {calls : List Call} (h : Carries d [] b calls) :
    Spent asked ⟨d, false, calls⟩ :=
  ⟨[], .ungreeted h, nofun, List.nil_sublist _⟩

theorem Accounts.mono (h : Accounts asked past s) {asked' past' : List Command}
    (hasked : asked.Sublist asked') (hpast : past.Sublist past') : Accounts asked' past' s := by
  cases h with
  | up hlink hdialogue hvalid horder hlives =>
    exact .up hlink hdialogue hvalid (horder.trans hasked) (hlives.mono fun _ h => h.mono hpast)
  | unconnected hlink hlives => exact .unconnected hlink (hlives.mono fun _ h => h.mono hpast)

theorem socket?_of_down {reason : Breakdown} (hlink : s.connection.link = .down reason) :
    s.connection.link.socket? = none := by
  rw [hlink]
  rfl

/-! ### Calls on the connection -/

theorem Accounts.connect (h : Accounts asked past s) :
    Ends Session.connect s (fun _ => Accounts asked past) fun _ => Accounts asked past := by
  cases h with
  | up hlink hdialogue hvalid horder hlives =>
    unfold Session.connect
    rw [ends_get, hlink]
    exact .up hlink hdialogue hvalid horder hlives
  | unconnected hlink hlives =>
    refine (ends_connect_opens hlink).mono ?_ ?_
    · rintro _ s' ⟨socket, pending, hup, calls, hcalls, b, payload, offset, hreaches, hread⟩
      obtain ⟨on, hon, hlives'⟩ := hreaches.lived hlives fun _ _ _ => spent_of_carries
      rw [← hcalls] at hlives'
      exact .up hup (.greeted ⟨b, payload, offset, hon, hread⟩) nofun (List.nil_sublist _) hlives'
    · rintro failure s' ⟨⟨reason, hdown, -⟩, calls, hcalls, hfails⟩
      refine .unconnected (socket?_of_down hdown) ?_
      rw [hcalls]
      exact hfails.lived hlives fun _ _ _ => spent_of_carries

theorem Accounts.hangUp (h : Accounts asked asked s) : Accounts asked asked s.hangUp := by
  have hidle : s.hangUp.connection.link.socket? = none := rfl
  cases h with
  | up hlink hdialogue hvalid horder hlives =>
    refine .unconnected hidle ?_
    rw [hangUp_calls hlink]
    exact hlives.close ⟨_, .left hdialogue, hvalid, horder⟩
  | unconnected hlink hlives =>
    refine .unconnected hidle ?_
    rwa [hangUp_calls_of_none hlink]

/-! ### Commands -/

/-- A command that can be sent is answered over the open socket, or it is the last one there. -/
theorem Accounts.roundTrip (h : Accounts asked (asked ++ [command]) s) (hcommand : command.Valid) :
    Ends (Session.roundTrip command) s
      (fun _ => Accounts (asked ++ [command]) (asked ++ [command]))
      fun _ => Accounts asked (asked ++ [command]) := by
  cases h with
  | @up socket pending commands calls hlink hdialogue hvalid horder hlives =>
    have hvalid' : ∀ c ∈ commands ++ [command], c.Valid := by
      intro c hc
      rcases List.mem_append.1 hc with hc | hc
      · exact hvalid c hc
      · rwa [List.mem_singleton.1 hc]
    have horder' := horder.append (List.Sublist.refl [command])
    refine (ends_roundTrip_completes hcommand hlink).mono ?_ ?_
    · rintro r s' ⟨rfl, socket', rest, hup, hsame, calls', hcalls, hcompletes⟩
      obtain ⟨written, read, b, offset, rfl, hwritten, hread, hreply⟩ := id hcompletes
      rw [← hsame] at hdialogue hlives hcompletes hwritten hread
      refine .up hup (hdialogue.answered hcompletes) hvalid' horder' ?_
      rw [hcalls]
      exact hlives.carry (hwritten.append hread)
    · rintro failure s' ⟨⟨reason, hdown, -⟩, _, hcalls, on, rfl, habandons, hnone⟩
      obtain ⟨written, read, w, b, rfl, hwritten, hread, -⟩ := id habandons
      refine .unconnected (socket?_of_down hdown) ?_
      rw [hcalls]
      refine (hlives.carry (hwritten.append hread)).close ?_
      by_cases hpending : pending = []
      · subst hpending
        exact ⟨_, .abandoned hdialogue habandons, hvalid', horder'⟩
      · -- With bytes left over, nothing of the command was written.
        rw [hnone hpending]
        exact ⟨commands, .left hdialogue, hvalid, horder.trans (List.sublist_append_left _ _)⟩
  | unconnected hlink hlives =>
    cases hold : s.connection.link with
    | idle => exact (ends_roundTrip_idle hold).2 (.unconnected hlink hlives)
    | down reason => exact (ends_roundTrip_down hold).2 (.unconnected hlink hlives)
    | up socket pending =>
      rw [hold] at hlink
      cases hlink

theorem Accounts.attempt (h : Accounts asked (asked ++ [command]) s) (hcommand : command.Valid)
    (isRepeated : Bool) :
    Ends (Client.attempt command isRepeated) s
      (fun _ => Accounts (asked ++ [command]) (asked ++ [command]))
      fun _ => Accounts asked (asked ++ [command]) := by
  have hopened : Ends (Session.connect >>= fun _ => Session.roundTrip command) s
      (fun _ => Accounts (asked ++ [command]) (asked ++ [command]))
      fun _ => Accounts asked (asked ++ [command]) :=
    h.connect.bind fun _ _ hconnected => hconnected.roundTrip hcommand
  unfold Client.attempt
  rw [ends_get]
  cases s.connection.link with
  | up socket pending => exact h.roundTrip hcommand
  | idle => exact hopened
  | down reason =>
    cases isRepeated with
    | true => exact hopened
    | false => exact h.roundTrip hcommand

theorem Accounts.addNote (h : Accounts asked past s) (level : Level) (message : Bytes) :
    Accounts asked past (s.addNote level message) := by
  cases h with
  | up hlink hdialogue hvalid horder hlives =>
    refine .up (by rwa [addNote_connection]) hdialogue hvalid horder ?_
    rwa [addNote_network]
  | unconnected hlink hlives =>
    refine .unconnected (by rwa [addNote_connection]) ?_
    rwa [addNote_network]

/-- However often a command is repeated, each socket takes it at most once. -/
theorem Accounts.attempts (h : Accounts asked (asked ++ [command]) s) (hcommand : command.Valid)
    (left : Nat) (isRepeated : Bool) :
    Ends (client.attempts command isRepeated left) s
      (fun _ => Accounts (asked ++ [command]) (asked ++ [command]))
      fun _ => Accounts asked (asked ++ [command]) := by
  induction left generalizing s isRepeated with
  | zero => exact h.attempt hcommand isRepeated
  | succ left ih =>
    refine ends_attempts_succ.2 ((h.attempt hcommand isRepeated).mono (fun _ _ h => h) ?_)
    intro failure s' hfailed
    split
    · exact ih (hfailed.addNote _ _) true
    · exact hfailed

theorem Accounts.execute (h : Accounts asked asked s) :
    Ends (client.execute command) s (fun _ => Accounts (asked ++ [command]) (asked ++ [command]))
      fun _ => Accounts (asked ++ [command]) (asked ++ [command]) := by
  have hmore : asked.Sublist (asked ++ [command]) := List.sublist_append_left _ _
  unfold Client.execute
  cases hcheck : command.check with
  | error fault =>
    -- Nothing is sent.
    exact h.mono hmore hmore
  | ok u =>
    refine ((h.mono (List.Sublist.refl _) hmore).attempts hcheck _ _).mono (fun _ _ h => h) ?_
    intro failure s' hfailed
    exact hfailed.mono hmore (List.Sublist.refl _)

theorem Accounts.ask {α : Type} (h : Accounts asked asked s) (q : Question α) :
    Ends (q.ask client) s (fun _ => Accounts (asked ++ [q.command]) (asked ++ [q.command]))
      fun _ => Accounts (asked ++ [q.command]) (asked ++ [q.command]) := by
  rw [q.ask_eq]
  refine h.execute.bind fun r s' hexecuted => ?_
  -- What the program is told changes nothing.
  cases q.answer r <;> exact hexecuted

/-! ### Runs -/

/-- A program's calls on one client, with the commands that were asked so far, and what changes
around the client between two calls. -/
inductive Run (client : Client) (s : Session) : List Command → Session → Prop
  | start : Run client s [] s
  | connect {asked : List Command} {s' : Session} (h : Run client s asked s') :
    Run client s asked (after Client.connect s')
  | reconnect {asked : List Command} {s' : Session} (h : Run client s asked s') :
    Run client s asked (after Client.reconnect s')
  | disconnect {asked : List Command} {s' : Session} (h : Run client s asked s') :
    Run client s asked (after Client.disconnect s')
  | ask {asked : List Command} {s' : Session} {α : Type} (q : Question α)
    (h : Run client s asked s') : Run client s (asked ++ [q.command]) (after (q.ask client) s')
  /-- Time passes, other attempts to connect lie ahead, the server becomes another, and the
  descriptors to come are any. -/
  | world {asked : List Command} {s' : Session} (h : Run client s asked s') (network : Network)
    (hcalls : network.calls = s'.network.calls) : Run client s asked { s' with network }
  /-- The open socket will meet other things. -/
  | traffic {asked : List Command} {s' : Session} (h : Run client s asked s') (socket : Socket)
    (pending : Bytes) (arrivals : Script Arrival) (departures : Script Departure)
    (hlink : s'.connection.link = .up socket pending) :
    Run client s asked (s'.setLink (.up { socket with arrivals, departures } pending))

theorem Run.accounts (h : Run client s asked s') (hstart : s.Fresh) :
    Accounts asked asked s' := by
  induction h with
  | start =>
    refine .unconnected ?_ ?_
    · rw [hstart.link_eq]
      rfl
    · rw [hstart.calls_eq]
      exact .nil
  | connect _ ih => exact ih.connect.after
  | reconnect _ ih =>
    have hreopened := ih.hangUp.connect.after
    exact hreopened
  | disconnect _ ih => exact ih.hangUp
  | ask q _ ih => exact (ih.ask q).after
  | world _ network hcalls ih =>
    cases ih with
    | up hlink hdialogue hvalid horder hlives =>
      exact .up hlink hdialogue hvalid horder (hcalls ▸ hlives)
    | unconnected hlink hlives => exact .unconnected hlink (hcalls ▸ hlives)
  | traffic _ socket pending arrivals departures hlink ih =>
    cases ih with
    | up hlink' hdialogue hvalid horder hlives =>
      -- The socket stays the same, whatever it will meet.
      rw [hlink] at hlink'
      cases hlink'
      exact .up rfl hdialogue hvalid horder hlives
    | unconnected hlink' hlives =>
      rw [hlink] at hlink'
      cases hlink'

/-- What a socket has taken, when it is accounted for by some commands: their frames or, once it is
closed, the frames of all but the last and a beginning of that one; and everything in its turn. -/
def Takes (commands : List Command) (life : Life) : Prop :=
  (sent life.calls = commands.flatMap Request.encode ∨
    life.isOpen = false ∧ ∃ before command part, commands = before ++ [command] ∧
      part <+: Request.encode command ∧ part ≠ Request.encode command ∧
      sent life.calls = before.flatMap Request.encode ++ part) ∧
  InTurn commands life.calls

theorem Spent.takes {life : Life} (h : Spent asked life) (hclosed : life.isOpen = false) :
    ∃ commands, (∀ c ∈ commands, c.Valid) ∧ commands.Sublist asked ∧ Takes commands life := by
  obtain ⟨commands, hfinished, hvalid, horder⟩ := h
  refine ⟨commands, hvalid, horder, ?_, hfinished.inTurn⟩
  exact hfinished.sent_eq.imp_right fun hpart => ⟨hclosed, hpart⟩

theorem Accounts.takes (h : Accounts asked asked s) {life : Life}
    (hlife : life ∈ lives s.network.calls) :
    ∃ commands, (∀ c ∈ commands, c.Valid) ∧ commands.Sublist asked ∧ Takes commands life := by
  cases h with
  | @up socket pending commands calls hlink hdialogue hvalid horder hlives =>
    obtain ⟨past, hall, hpast⟩ := hlives
    rw [hall] at hlife
    rcases List.mem_cons.1 hlife with rfl | hmem
    · obtain ⟨b, hcarries, -⟩ := hdialogue.carries
      exact ⟨commands, hvalid, horder, .inl hcarries.sent_eq, hdialogue.inTurn⟩
    · obtain ⟨hclosed, hspent⟩ := hpast life hmem
      exact hspent.takes hclosed
  | unconnected hlink hlives =>
    obtain ⟨past, hall, hpast⟩ := hlives
    rw [hall] at hlife
    obtain ⟨hclosed, hspent⟩ := hpast life hlife
    exact hspent.takes hclosed

/-- After any run of a client, whatever the network did, each socket has taken the frames of
commands that can be sent, in the order in which they were asked. Behind them there may be a
beginning of one more frame, and then the socket is closed. By the time that anything of a frame was
written, the greeting and the replies to all commands before it had been read whole. A command that
cannot be sent changes nothing at all. -/
theorem frames_of_run (hstart : s.Fresh) (hrun : Run client s asked s') :
    (∀ life ∈ lives s'.network.calls, ∃ commands : List Command,
      (∀ c ∈ commands, c.Valid) ∧ commands.Sublist asked ∧ Takes commands life) ∧
    ∀ {α : Type} (q : Question α), ¬ q.command.Valid → after (q.ask client) s' = s' := by
  refine ⟨fun life hlife => (hrun.accounts hstart).takes hlife, ?_⟩
  intro α q hinvalid
  unfold after
  cases hcheck : q.command.check with
  | ok u => exact absurd hcheck hinvalid
  | error fault => rw [Question.ask_of_check hcheck]

/-- A ping is answered. The next request breaks off after two bytes, in front of which a signal
came, and is repeated over another socket, where it is written in two parts. -/
theorem frames_of_run_repeated :
    ∃ s s' : Session, s.Fresh ∧ Run { reconnects := 1 } s [.ping, .get [107]] s' ∧
      (lives s'.network.calls).map (fun life => (life.isOpen, sent life.calls)) =
        [(true, [3, 1, 0, 0, 0, 107]), (false, [0, 3, 1])] ∧
      ∀ life ∈ lives s'.network.calls, ∃ commands : List Command,
        (∀ c ∈ commands, c.Valid) ∧ commands.Sublist [.ping, .get [107]] ∧
          Takes commands life := by
  let client : Client := { reconnects := 1 }
  let s : Session :=
    { connection := { endpoint := {} },
      network := { attempts := [
        { arrivals := some [⟨[], .segment [0x21]⟩,
            ⟨[], .segment [0x21, 4, 0, 0, 0, 112, 111, 110, 103]⟩],
          departures := [⟨[], .accept none⟩, ⟨[], .failed .interrupted⟩, ⟨[], .accept (some 2)⟩,
            ⟨[], .failed .connectionReset⟩] },
        { arrivals := some [⟨[], .segment [0x21]⟩, ⟨[], .segment [0x3F, 0, 1]⟩],
          departures := [⟨[], .accept (some 4)⟩] }] } }
  have hrun : Run client s [.ping, .get [107]]
      (after ((Question.get [107]).ask client) (after (Question.ping.ask client) s)) :=
    .ask (.get [107]) (.ask .ping .start)
  have hfresh : s.Fresh := ⟨rfl, rfl⟩
  exact ⟨s, _, hfresh, hrun, by decide +kernel, (frames_of_run hfresh hrun).1⟩

end RemoteCache.Client
