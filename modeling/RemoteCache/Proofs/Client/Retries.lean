import RemoteCache.Proofs.Client.Verdicts
import RemoteCache.Proofs.Session.Consistency

/-!
# How often a command is tried

A command is tried in rounds: once, and then as often as the client may connect again, as long as
each round fails and leaves the connection down without a refusal. Every round but the first one
connects again, and each connection sees one request at most, which is a frame of the command or
a beginning of it.

## Main definitions

* `Client.Rounds` — the rounds of a command, each by how it ends
* `Client.IsTransient` — a round that another one may follow
* `Client.Progress` — the sockets that were used for a command so far

## Main results

* `Client.exists_rounds` — the rounds of a command, the last of which decides
* `Client.Progress.attempts` — how many connections are opened, and what they see
* `Client.rounds_bounded` — all of this together
-/

namespace RemoteCache.Client

open Session Call

variable {client : Client} {command : Command} {s s' start : Session} {failure : Failure}

/-! ### Rounds -/

/-- The rounds of a command, from the one with the given number on, each by how it ends. A round
is followed by another one if its failure may be repeated and the client may connect again. -/
inductive Rounds (client : Client) (command : Command) :
    Nat → Session → List (EStateM.Result Failure Session Response) → Prop
  | answered {number : Nat} {s s' : Session} {r : Response}
    (hround : attempt command (decide (0 < number)) s = .ok r s') :
    Rounds client command number s [.ok r s']
  | failed {number : Nat} {s s' : Session} {failure : Failure}
    (hround : attempt command (decide (0 < number)) s = .error failure s')
    (hfinal : isRepeatable failure s'.connection.link = false ∨ client.reconnects ≤ number) :
    Rounds client command number s [.error failure s']
  | more {number : Nat} {s s' : Session} {failure : Failure}
      {rounds : List (EStateM.Result Failure Session Response)}
    (hround : attempt command (decide (0 < number)) s = .error failure s')
    (hrepeat : isRepeatable failure s'.connection.link = true)
    (hleft : number < client.reconnects)
    (h : Rounds client command (number + 1)
      (s'.addNote .warn (retryNote command failure (number + 1) client.reconnects)) rounds) :
    Rounds client command number s (.error failure s' :: rounds)

/-- A round in which the transport failed: neither an argument nor a refusal was the cause, and no
response was read. -/
def IsTransient (round : EStateM.Result Failure Session Response) : Prop :=
  ∃ failure s', round = .error failure s' ∧
    (failure.kind = .connection ∨ failure.kind = .codec ∨ failure.kind = .timeout)

/-- What may be repeated is no refusal. -/
theorem isTransient_of_unusable (h : Unusable failure s)
    (hrepeat : isRepeatable failure s.connection.link = true) :
    IsTransient (.error failure s) := by
  refine ⟨failure, s, rfl, ?_⟩
  rcases h with ⟨reason, hlink, rfl⟩ | ⟨endpoint, reason, hlink, rfl⟩
  · cases reason <;>
      simp_all [Breakdown.failure, Failure.kind, Failure.kindOfBreakdown, isRepeatable]
  · exact .inl rfl

section Attempts

variable {isRepeated : Bool} {left : Nat} {r : Response}

/-- A response is final. -/
theorem attempts_of_ok (hround : attempt command isRepeated s = .ok r s') :
    client.attempts command isRepeated left s = .ok r s' := by
  cases left with
  | zero => exact hround
  | succ left =>
    rw [Client.attempts]
    dsimp only
    rw [hround]

/-- So is a failure that may not be repeated. -/
theorem attempts_of_final (hround : attempt command isRepeated s = .error failure s')
    (hfinal : isRepeatable failure s'.connection.link = false) :
    client.attempts command isRepeated left s = .error failure s' := by
  cases left with
  | zero => exact hround
  | succ left =>
    rw [Client.attempts]
    dsimp only
    rw [hround]
    dsimp only
    rw [hfinal]
    rfl

theorem attempts_of_repeatable (hround : attempt command isRepeated s = .error failure s')
    (hrepeat : isRepeatable failure s'.connection.link = true) :
    client.attempts command isRepeated (left + 1) s =
      client.attempts command true left (s'.addNote .warn
        (retryNote command failure (client.reconnects - left) client.reconnects)) := by
  rw [Client.attempts]
  dsimp only
  rw [hround]
  dsimp only
  rw [if_pos hrepeat]

end Attempts

/-- The rounds of a command, as many as may still follow. The last of them is what becomes of the
command, and the transport failed in all others. -/
theorem exists_rounds (hvalid : command.Valid) {number left : Nat}
    (hsum : number + left = client.reconnects.toNat) :
    ∃ others, Rounds client command number s
        (others ++ [client.attempts command (decide (0 < number)) left s]) ∧
      others.length ≤ left ∧ ∀ round ∈ others, IsTransient round := by
  induction left generalizing s number with
  | zero =>
    refine ⟨[], ?_, le_refl _, List.forall_mem_nil _⟩
    rw [Client.attempts, List.nil_append]
    cases hround : attempt command (decide (0 < number)) s with
    | ok r s' => exact .answered hround
    | error failure s' => exact .failed hround (.inr (by omega))
  | succ left ih =>
    have hends := ends_attempt (s := s) hvalid (decide (0 < number))
    cases hround : attempt command (decide (0 < number)) s with
    | ok r s' =>
      rw [attempts_of_ok hround]
      exact ⟨[], .answered hround, Nat.zero_le _, List.forall_mem_nil _⟩
    | error failure s' =>
      have hunusable : Unusable failure s' := by
        unfold Ends at hends
        rwa [hround] at hends
      cases hrepeat : isRepeatable failure s'.connection.link with
      | false =>
        rw [attempts_of_final hround hrepeat]
        exact ⟨[], .failed hround (.inl hrepeat), Nat.zero_le _, List.forall_mem_nil _⟩
      | true =>
        -- The note that is left counts the repetitions from one.
        have hnumber : client.reconnects - left = number + 1 := by omega
        have hleft : number < client.reconnects := by omega
        rw [attempts_of_repeatable hround hrepeat, hnumber]
        obtain ⟨others, hrounds, hlength, htransient⟩ := @ih
          (s'.addNote .warn (retryNote command failure (number + 1) client.reconnects))
          (number + 1) (by omega)
        exact ⟨.error failure s' :: others, .more hround hrepeat hleft hrounds,
          Nat.succ_le_succ hlength,
          List.forall_mem_cons.2 ⟨isTransient_of_unusable hunusable hrepeat, htransient⟩⟩

/-! ### Connections -/

/-- The socket of a link, as if it had just been opened. -/
def opening (link : Link) : List Call :=
  link.descriptors.map fun d => .socket (some d)

/-- A socket over which perhaps a greeting was read, and then the command was given up without a
response. -/
def GivenUp (command : Command) (life : Life) : Prop :=
  ∃ given on b, life.calls = given ++ on ∧ Carries life.descriptor [] b on ∧
    Abandons life.descriptor command given

/-- A socket to which a beginning of a command's frame was written, perhaps all of it. If it was
closed, no response was read. -/
structure Sees (command : Command) (life : Life) : Prop where
  sent_prefix : sent life.calls <+: Request.encode command
  givenUp : life.isOpen = false → GivenUp command life

/-- What was done for a command since the session `start`: so many connections were opened at most,
every socket that was closed saw a beginning of the command's frame, and the open one saw nothing
yet. -/
def Progress (command : Command) (start : Session) (connections : Nat) (s : Session) : Prop :=
  ∃ calls, s.network.calls = calls ++ start.network.calls ∧ resolutions calls ≤ connections ∧
    match s.connection.link with
    | .up peer _ => ∃ b on, Carries peer.descriptor [] b on ∧
        Lived (GivenUp command) [⟨peer.descriptor, true, on⟩]
          (calls ++ opening start.connection.link)
    | _ => Lived (GivenUp command) [] (calls ++ opening start.connection.link)

/-- All that was done for a command since the session `start`: so many connections were opened at
most, and every socket saw a beginning of the command's frame. -/
def Bounded (command : Command) (start : Session) (connections : Nat) (s : Session) : Prop :=
  ∃ calls, s.network.calls = calls ++ start.network.calls ∧ resolutions calls ≤ connections ∧
    ∀ life ∈ lives (calls ++ opening start.connection.link), Sees command life

variable {n m : Nat}

/-- A socket over which perhaps a greeting was read, and to which nothing was written. -/
theorem givenUp_of_carries {d : Nat} {b : Bytes} {calls : List Call} (h : Carries d [] b calls) :
    GivenUp command ⟨d, false, calls⟩ :=
  ⟨[], calls, b, rfl, h, abandons_nil d command⟩

theorem GivenUp.sees {life : Life} (h : GivenUp command life) : Sees command life where
  sent_prefix := by
    obtain ⟨_, on, b, hcalls, hon, written, read, w, f, rfl, hwritten, hread, hw, -⟩ := h
    rw [hcalls, sent_append, hon.sent_eq, sent_append, hwritten.sent_eq, hread.sent_eq]
    rwa [List.append_nil, List.nil_append]
  givenUp _ := h

theorem sees_of_carries {d : Nat} {b w : Bytes} {calls : List Call} (h : Carries d w b calls)
    (hw : w <+: Request.encode command) : Sees command ⟨d, true, calls⟩ :=
  ⟨h.sent_eq ▸ hw, nofun⟩

theorem Progress.refl (command : Command) (s : Session) : Progress command s 0 s := by
  refine ⟨[], rfl, le_refl _, ?_⟩
  cases s.connection.link with
  | up peer pending => exact ⟨[], [], .nil _, Lived.nil.open _⟩
  | _ => exact .nil

theorem Bounded.mono (h : Bounded command start n s) (hnm : n ≤ m) :
    Bounded command start m s := by
  obtain ⟨calls, hcalls, hcount, hlives⟩ := h
  exact ⟨calls, hcalls, hcount.trans hnm, hlives⟩

theorem forall_sees {current : List Life} {record : List Call}
    (h : Lived (GivenUp command) current record) (hcurrent : ∀ life ∈ current, Sees command life) :
    ∀ life ∈ lives record, Sees command life := by
  obtain ⟨past, hlives, hpast⟩ := h
  rw [hlives]
  exact List.forall_mem_append.2 ⟨hcurrent, fun life hlife => (hpast life hlife).2.sees⟩

theorem Progress.bounded (h : Progress command start n s) : Bounded command start n s := by
  obtain ⟨calls, hcalls, hcount, hlives⟩ := h
  refine ⟨calls, hcalls, hcount, ?_⟩
  split at hlives
  · obtain ⟨b, on, hon, hlived⟩ := hlives
    exact forall_sees hlived (List.forall_mem_singleton.2 (sees_of_carries hon List.nil_prefix))
  · exact forall_sees hlives (List.forall_mem_nil _)

/-- A connection that is opened is one more. -/
theorem Progress.connect (h : Progress command start n s)
    (hlink : s.connection.link.socket? = none) :
    Ends Session.connect s (fun _ => Progress command start (n + 1))
      fun _ => Progress command start (n + 1) := by
  obtain ⟨calls, hcalls, hcount, hlives⟩ := h
  have hunconnected : Lived (GivenUp command) [] (calls ++ opening start.connection.link) := by
    split at hlives
    · rename_i hup
      rw [hup] at hlink
      cases hlink
    · exact hlives
  refine (ends_connect_opens hlink).mono ?_ ?_
  · rintro _ s' ⟨peer, pending, hup, later, hlater, b, payload, offset, hreaches, hread⟩
    obtain ⟨on, hon, hlived⟩ := hreaches.lived hunconnected fun _ _ _ => givenUp_of_carries
    refine ⟨later ++ calls, by rw [hlater, hcalls, List.append_assoc], ?_, ?_⟩
    · rw [resolutions_append, hreaches.resolutions_eq]
      omega
    · rw [hup, List.append_assoc]
      exact ⟨b, on, hon, hlived⟩
  · rintro failure s' ⟨⟨reason, hdown, -⟩, later, hlater, hfails⟩
    refine ⟨later ++ calls, by rw [hlater, hcalls, List.append_assoc], ?_, ?_⟩
    · rw [resolutions_append, hfails.resolutions_eq]
      omega
    · rw [hdown, List.append_assoc]
      exact hfails.lived hunconnected fun _ _ _ => givenUp_of_carries

/-- The open socket sees the command's frame; if that is given up, the socket is closed. -/
theorem Progress.roundTrip (h : Progress command start n s) (hvalid : command.Valid) :
    Ends (Session.roundTrip command) s (fun _ => Bounded command start n)
      fun _ => Progress command start n := by
  cases hlink : s.connection.link with
  | idle => exact (ends_roundTrip_idle hlink).2 h
  | down reason => exact (ends_roundTrip_down hlink).2 h
  | up peer pending =>
    obtain ⟨calls, hcalls, hcount, hlives⟩ := h
    rw [hlink] at hlives
    obtain ⟨b, on, hon, hlived⟩ := hlives
    refine (ends_roundTrip_completes hvalid hlink).mono ?_ ?_
    · rintro r s' ⟨-, peer', rest, hup, hsame, later, hlater, hcompletes⟩
      obtain ⟨written, read, f, offset, rfl, hwritten, hread, -⟩ := hcompletes
      have hpassed := hwritten.append hread
      refine ⟨(read ++ written) ++ calls, by rw [hlater, hcalls, ← List.append_assoc], ?_, ?_⟩
      · rw [resolutions_append, hpassed.resolutions_eq]
        omega
      · rw [List.append_assoc]
        refine forall_sees (hlived.carry hpassed) (List.forall_mem_singleton.2 ?_)
        refine sees_of_carries (hon.append hpassed) ?_
        rw [List.nil_append, List.append_nil]
    · rintro failure s' ⟨⟨reason, hdown, -⟩, _, hlater, later, rfl, habandons, -⟩
      obtain ⟨written, read, w, f, rfl, hwritten, hread, -⟩ := id habandons
      have hpassed := hwritten.append hread
      refine ⟨.close peer.descriptor :: ((read ++ written) ++ calls), ?_, ?_, ?_⟩
      · rw [hlater, hcalls, ← List.append_assoc, List.cons_append]
      · have hclose : resolutions (.close peer.descriptor :: ((read ++ written) ++ calls)) =
          resolutions ((read ++ written) ++ calls) := rfl
        rw [hclose, resolutions_append, hpassed.resolutions_eq]
        omega
      · rw [hdown, List.cons_append, List.append_assoc]
        exact (hlived.carry hpassed).close ⟨_, on, b, rfl, hon, habandons⟩

/-- How many connections an attempt opens at most. -/
def connectionsFor (isRepeated : Bool) : Link → Nat
  | .up _ _ => 0
  | .idle => 1
  | .down _ => if isRepeated then 1 else 0

theorem connectionsFor_le (isRepeated : Bool) (link : Link) :
    connectionsFor isRepeated link ≤ 1 := by
  cases link <;> cases isRepeated <;> simp [connectionsFor]

theorem Progress.attempt (h : Progress command start n s) (hvalid : command.Valid)
    (isRepeated : Bool) :
    Ends (Client.attempt command isRepeated) s
      (fun _ => Bounded command start (n + connectionsFor isRepeated s.connection.link))
      fun _ => Progress command start (n + connectionsFor isRepeated s.connection.link) := by
  have hopened (hlink : s.connection.link.socket? = none) :
      Ends (Session.connect >>= fun _ => Session.roundTrip command) s
        (fun _ => Bounded command start (n + 1)) fun _ => Progress command start (n + 1) :=
    (h.connect hlink).bind fun _ _ hconnected => hconnected.roundTrip hvalid
  unfold Client.attempt
  rw [ends_get]
  cases hlink : s.connection.link with
  | up peer pending => exact h.roundTrip hvalid
  | idle =>
    rw [hlink] at hopened
    exact hopened rfl
  | down reason =>
    rw [hlink] at hopened
    cases isRepeated with
    | true => exact hopened rfl
    | false => exact h.roundTrip hvalid

theorem Progress.addNote (h : Progress command start n s) (level : Level) (message : Bytes) :
    Progress command start n (s.addNote level message) := by
  unfold Progress
  rw [addNote_network, addNote_connection]
  exact h

/-- Every repetition opens one connection at most. -/
theorem Progress.attempts (h : Progress command start n s) (hvalid : command.Valid) (left : Nat)
    (isRepeated : Bool) :
    Ends (client.attempts command isRepeated left) s
      (fun _ => Bounded command start (n + connectionsFor isRepeated s.connection.link + left))
      fun _ => Bounded command start
        (n + connectionsFor isRepeated s.connection.link + left) := by
  induction left generalizing s n isRepeated with
  | zero => exact (h.attempt hvalid isRepeated).mono (fun _ _ h => h) fun _ _ h => h.bounded
  | succ left ih =>
    refine ends_attempts_succ.2 ((h.attempt hvalid isRepeated).mono ?_ ?_)
    · intro r s' hanswered
      exact hanswered.mono (Nat.le_add_right _ _)
    · intro failure s' hfailed
      split
      · have hone := connectionsFor_le true s'.connection.link
        refine (ih (hfailed.addNote _ _) true).mono (fun r s'' h => ?_) fun failure s'' h => ?_
        all_goals
          rw [addNote_connection] at h
          exact h.mono (by omega)
      · exact hfailed.bounded.mono (Nat.le_add_right _ _)

/-- A command that cannot be sent is not tried. Any other is tried in rounds, one more at most than
the client may connect again, and the last of them decides: in all others the transport failed,
without a refusal and without a response. As many connections are opened at most as the client may
connect again, and one more if it was not connected before; and each socket sees a frame of the
command or a beginning of it, and nothing else, and gave no response if it was closed. -/
theorem rounds_bounded (client : Client) (command : Command) (s : Session) :
    (∀ fault, command.check = .error fault →
      client.execute command s = .error (.argument command.name fault) s) ∧
    (command.Valid →
      (∃ others, Rounds client command 0 s (others ++ [client.execute command s]) ∧
        (others.length : Int) ≤ max client.reconnects 0 ∧ ∀ round ∈ others, IsTransient round) ∧
      ∃ calls, (after (client.execute command) s).network.calls = calls ++ s.network.calls ∧
        (resolutions calls : Int) ≤
          max client.reconnects 0 + (if s.connection.link.state = .disconnected then 1 else 0) ∧
        ∀ life ∈ lives (calls ++ opening s.connection.link), Sees command life) := by
  refine ⟨fun fault => execute_of_check, fun hvalid => ?_⟩
  rw [execute_eq hvalid]
  refine ⟨?_, ?_⟩
  · obtain ⟨others, hrounds, hlength, htransient⟩ :=
      exists_rounds (s := s) hvalid (Nat.zero_add client.reconnects.toNat)
    exact ⟨others, hrounds, by omega, htransient⟩
  · obtain ⟨calls, hcalls, hcount, hlives⟩ :=
      ((Progress.refl command s).attempts hvalid client.reconnects.toNat false).after
    refine ⟨calls, hcalls, ?_, hlives⟩
    cases hlink : s.connection.link <;> rw [hlink] at hcount <;>
      simp [connectionsFor, Link.state] at hcount ⊢ <;> omega

/-- A request on a connection that is down: the first round finds it so, the second one is refused
a connection, and the third one is answered. -/
theorem rounds_bounded_faulted :
    ∃ s : Session, s.connection.link.state = .faulted ∧
      (∃ others, Rounds { reconnects := 2 } (.get [107]) 0 s
        (others ++ [execute { reconnects := 2 } (.get [107]) s]) ∧ (others.length : Int) ≤ 2 ∧
        ∀ round ∈ others, IsTransient round) ∧
      resolutions (after (execute { reconnects := 2 } (.get [107])) s).network.calls = 2 ∧
      execute { reconnects := 2 } (.get []) s =
        .error (.argument (Bytes.ascii "GET") .emptyKey) s := by
  let s : Session :=
    { connection := { endpoint := {}, link := .down .closed },
      network := { attempts := [.refusing,
        { arrivals := some [⟨[], .segment [0x21]⟩, ⟨[], .segment [0x3F, 0, 1]⟩] }] } }
  have hvalid : (Command.get [107]).Valid := by decide
  exact ⟨s, rfl, ((rounds_bounded _ _ s).2 hvalid).1, by decide +kernel,
    (rounds_bounded _ _ s).1 .emptyKey rfl⟩

end RemoteCache.Client
