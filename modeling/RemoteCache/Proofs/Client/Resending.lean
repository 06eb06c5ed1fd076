import RemoteCache.Proofs.Client.Retries
import RemoteCache.Proofs.Session.Hosted

/-!
# A command that is sent again

A client that finds no response in what it reads sends its command again, and cannot know whether
the server has acted on it already. With a server that misbehaves once, that shows in one case
only: a key that was deleted is gone when the command comes for the second time, and the program is
told that it was not there.

## Main definitions

* `Client.inject` — a server is told to misbehave
* `Client.Futile` — why an attempt to put a command to a server was in vain
* `Client.Heard` — a response that is read when a command is sent until there is one

## Main results

* `Client.ends_attempts_heard` — the response to a command, if the server misbehaves once
* `Client.ends_attempts_said` — the response to a command, if it does not
* `Client.Heard.exists_read` — the response comes from the first copy that the server acts on, or
  from the second if a reply was garbled
* `Client.resent_eq_iff` — a question that is answered in spite of a fault is answered as without
  it, unless a key is deleted and the reply is garbled
-/

namespace RemoteCache.Client

open Session Network Wire

variable {client : Client} {command : Command} {s s' : Session} {server server' : Server}
  {m : Server.Mischief} {c : Cache} {now : Instant} {r : Response} {failure : Failure}

/-- A server is told how to misbehave when it answers the next command. -/
def inject (s : Session) (m : Server.Mischief) : Session :=
  { s with network := { s.network with
      service := s.network.service.map fun service =>
        { service with server := { service.server with mischief := m } } } }

theorem facing_inject (h : s.Facing server) (m : Server.Mischief) :
    (inject s m).Facing { server with mischief := m } := by
  cases h with
  | up hcalm hlink hleads hservice hready =>
    refine .up hcalm hlink hleads ?_ hready
    simp only [Client.inject, hservice, Option.map_some]
  | @apart service hcalm hlink hservice hserver hquiet =>
    subst hserver
    have hinjected : (Client.inject s m).network.service =
        some { service with server := { service.server with mischief := m } } := by
      simp only [Client.inject, hservice, Option.map_some]
    exact .apart hcalm hlink hinjected rfl hquiet

/-! ### Attempts -/

/-- The connection is down, no time has passed, and the attempt may be repeated. -/
structure Retriable (s : Session) (failure : Failure) (s' : Session) : Prop where
  clock_eq : s'.network.clock = s.network.clock
  state_eq : s'.connection.link.state = .faulted
  isRepeatable_eq : isRepeatable failure s'.connection.link = true

/-- Why an attempt to put a command to a server was in vain: the connection was down before, or the
server refused a new one, or there was no response in what the server said, which it left as
described. -/
inductive Futile (shape : Shape) (isRepeated : Bool) (server : Server) (b : Bytes)
    (P : Server → Prop) (s : Session) (failure : Failure) (s' : Session) : Prop
  | unmet (hlink : s.connection.link.state = .faulted) (hfirst : isRepeated = false)
      (hretriable : Retriable s failure s') (hfacing : s'.Facing server)
  | rejected (hrejects : server.rejects = true) (hlink : s.connection.link.state ≠ .connected)
      (hfinal : isRepeatable failure s'.connection.link = false)
  | unheard {server' : Server} (hnone : ∀ r k, Reply.read shape (.start b) ≠ .done r k)
      (hretriable : Retriable s failure s') (hserver : P server') (hfacing : s'.Facing server')

/-- Whatever was counted of a server, and whatever the pieces in which it reads, this is what it
says to a command, and how that leaves it. -/
def Replies (server : Server) (now : Instant) (command : Command) (b : Bytes) (P : Server → Prop) :
    Prop :=
  ∀ connectionsAccepted lengths,
    let t := { server with connectionsAccepted }.attend {} now (Request.encode command) lengths
    t.Writes now b ∧ P t.server

variable {b : Bytes} {P : Server → Prop}

theorem ends_roundTrip_facing {connectionsAccepted : Nat}
    (h : s.Facing { server with connectionsAccepted }) (hup : s.connection.link.state = .connected)
    (hvalid : command.Valid) (hreplies : Replies server s.network.clock command b P) :
    Ends (roundTrip command) s (fun r _ => ∃ k, Reply.read command.shape (.start b) = .done r k)
      fun failure s' => (∀ r k, Reply.read command.shape (.start b) ≠ .done r k) ∧
        Retriable s failure s' ∧ ∃ server', P server' ∧ s'.Facing server' := by
  obtain ⟨hturn, hserver⟩ := hreplies connectionsAccepted (s.network.transits.headD {}).requests
  refine (h.roundTrip hup hvalid rfl hturn).mono ?_ ?_
  · rintro r s' ⟨k, hread, -⟩
    exact ⟨k, hread⟩
  · rintro failure s' ⟨hnone, hclock, hfacing, reason, hdown, rfl⟩
    refine ⟨hnone, ⟨hclock, ?_, ?_⟩, _, hserver, hfacing⟩ <;> rw [hdown] <;> rfl

/-- What becomes of a command on a connection that is opened for it. -/
theorem ends_connect_roundTrip_facing (h : s.Facing server)
    (hlink : s.connection.link.socket? = none) (hvalid : command.Valid) (isRepeated : Bool)
    (hreplies : Replies server s.network.clock command b P) :
    Ends (Session.connect >>= fun _ => roundTrip command) s
      (fun r _ => (∃ k, Reply.read command.shape (.start b) = .done r k) ∧
        (server.rejects = true → s.connection.link.state = .connected))
      (Futile command.shape isRepeated server b P s) := by
  cases hrejects : server.rejects with
  | true =>
    refine ((h.connect_rejected hlink hrejects).mono (fun _ _ h => h) ?_).bind fun _ _ h => h.elim
    rintro failure s' ⟨operation, refusal, rfl⟩
    refine .rejected hrejects ?_ rfl
    intro hup
    obtain ⟨peer, pending, hlink'⟩ := Link.exists_up_of_connected hup
    rw [hlink'] at hlink
    cases hlink
  | false =>
    refine ((h.connect hlink hrejects).mono (fun _ _ h => h) fun _ _ h => h.elim).bind ?_
    rintro _ opened ⟨hfacing, hup, hclock⟩
    rw [← hclock] at hreplies
    refine (ends_roundTrip_facing hfacing hup hvalid hreplies).mono ?_ ?_
    · intro r s' hread
      exact ⟨hread, nofun⟩
    · rintro failure s' ⟨hnone, hretriable, server', hserver, hfacing'⟩
      have hretriable' : Retriable s failure s' :=
        { hretriable with clock_eq := hretriable.clock_eq.trans hclock }
      exact .unheard hnone hretriable' hserver hfacing'

/-- What becomes of an attempt. -/
theorem ends_attempt_facing (h : s.Facing server) (hvalid : command.Valid) (isRepeated : Bool)
    (hreplies : Replies server s.network.clock command b P) :
    Ends (attempt command isRepeated) s
      (fun r _ => (∃ k, Reply.read command.shape (.start b) = .done r k) ∧
        (server.rejects = true → s.connection.link.state = .connected))
      (Futile command.shape isRepeated server b P s) := by
  have hopened (hlink : s.connection.link.socket? = none) :=
    ends_connect_roundTrip_facing h hlink hvalid isRepeated hreplies
  unfold attempt
  rw [ends_get]
  cases hlink : s.connection.link with
  | up peer pending =>
    refine (ends_roundTrip_facing h (by rw [hlink]; rfl) hvalid hreplies).mono ?_ ?_
    · intro r s' hread
      exact ⟨hread, fun _ => rfl⟩
    · rintro failure s' ⟨hnone, hretriable, server', hserver, hfacing'⟩
      exact .unheard hnone hretriable hserver hfacing'
  | idle =>
    rw [hlink] at hopened
    exact hopened rfl
  | down reason =>
    rw [hlink] at hopened
    cases isRepeated with
    | true => exact hopened rfl
    | false =>
      refine (ends_roundTrip_down hlink).2 (.unmet (by rw [hlink]; rfl) rfl ⟨rfl, ?_, ?_⟩ h) <;>
        rw [hlink] <;> rfl

/-- Another attempt follows one that was in vain, on a connection that is down and at the same time,
unless the server refuses connections. -/
theorem ends_attempts_of_futile {shape : Shape} {done : Response → Session → Prop} {left : Nat}
    {isRepeated : Bool}
    (hattempt : Ends (attempt command isRepeated) s done (Futile shape isRepeated server b P s))
    (hagain : ∀ (s' : Session) (server' : Server), s'.network.clock = s.network.clock →
      s'.connection.link.state = .faulted → s'.Facing server' →
      (server' = server ∨ (∀ r k, Reply.read shape (.start b) ≠ .done r k) ∧ P server') →
      Ends (client.attempts command true left) s' done fun _ _ => True) :
    Ends (client.attempts command isRepeated (left + 1)) s done fun _ _ => True := by
  have hnoted {failure : Failure} {s' : Session} (hretriable : Retriable s failure s')
      (level : Level) (message : Bytes) :
      (s'.addNote level message).network.clock = s.network.clock ∧
        (s'.addNote level message).connection.link.state = .faulted := by
    rw [addNote_network, addNote_connection]
    exact ⟨hretriable.clock_eq, hretriable.state_eq⟩
  refine ends_attempts_succ.2 (hattempt.mono (fun _ _ h => h) ?_)
  intro failure s' hfutile
  cases hfutile with
  | unmet hlink hfirst hretriable hfacing =>
    obtain ⟨hclock, hdown⟩ := hnoted hretriable .warn
      (retryNote command failure (client.reconnects - left) client.reconnects)
    rw [if_pos hretriable.isRepeatable_eq]
    exact hagain _ server hclock hdown (hfacing.addNote _ _) (.inl rfl)
  | rejected hrejects hlink hfinal =>
    rw [hfinal]
    trivial
  | @unheard server' hnone hretriable hserver hfacing =>
    obtain ⟨hclock, hdown⟩ := hnoted hretriable .warn
      (retryNote command failure (client.reconnects - left) client.reconnects)
    rw [if_pos hretriable.isRepeatable_eq]
    exact hagain _ server' hclock hdown (hfacing.addNote _ _) (.inr ⟨hnone, hserver⟩)

/-! ### Repetitions -/

/-- A response that is read when a command is sent again and again, until there is a response in
what the server says. The server misbehaves at the first copy at most. -/
inductive Heard (now : Instant) (command : Command) : Server.Mischief → Cache → Response → Prop
  | once {m : Server.Mischief} {c : Cache} {r : Response} {k : Cursor}
    (hread : Reply.read command.shape
      (.start (m.spoil (Reply.frame (c.handle now command).2))) = .done r k) :
    Heard now command m c r
  | again {m : Server.Mischief} {c : Cache} {r : Response}
    (hnone : ∀ r k, Reply.read command.shape
      (.start (m.spoil (Reply.frame (c.handle now command).2))) ≠ .done r k)
    (h : Heard now command .none (m.leave c (c.handle now command).1) r) :
    Heard now command m c r

/-- What a server that misbehaves once says to a command that is read as another one. -/
theorem replies_of_reads (server : Server) (now : Instant) {received : Command}
    (hreads : Reader.Reads Request.read (Request.encode command) received)
    (hpassing : server.mischief.IsPassing) :
    Replies server now command
      (server.mischief.spoil (Reply.frame (server.cache.handle now received).2)) fun server' =>
        server'.cache = server.mischief.leave server.cache (server.cache.handle now received).1 ∧
        server'.mischief = .none ∧ server'.rejects = server.rejects := by
  intro connectionsAccepted lengths
  dsimp only
  rw [Server.attend_of_reads hreads (List.cons_ne_nil _ _), ← Server.reply_eq]
  exact Server.writes_answerAll _ now received hpassing

/-- The response to a command that is sent again and again. -/
theorem ends_attempts_heard {received : Command} (hvalid : command.Valid)
    (hreads : Reader.Reads Request.read (Request.encode command) received)
    (hshape : received.shape = command.shape) (left : Nat) (isRepeated : Bool)
    (h : s.Facing server) (hpassing : server.mischief.IsPassing) :
    Ends (client.attempts command isRepeated left) s
      (fun r _ => Heard s.network.clock received server.mischief server.cache r ∧
        (server.rejects = true → s.connection.link.state = .connected))
      fun _ _ => True := by
  have hattempt (isRepeated : Bool) (s : Session) (server : Server) (h : s.Facing server)
      (hpassing : server.mischief.IsPassing) := ends_attempt_facing h hvalid isRepeated
    (replies_of_reads server s.network.clock hreads hpassing)
  simp only [← hshape] at hattempt
  induction left generalizing s server isRepeated with
  | zero =>
    refine (hattempt isRepeated s server h hpassing).mono ?_ fun _ _ _ => trivial
    rintro r s' ⟨⟨k, hread⟩, hrejects⟩
    exact ⟨.once hread, hrejects⟩
  | succ left ih =>
    refine ends_attempts_of_futile ((hattempt isRepeated s server h hpassing).mono ?_
      fun _ _ h => h) ?_
    · rintro r s' ⟨⟨k, hread⟩, hrejects⟩
      exact ⟨.once hread, hrejects⟩
    · intro s' server' hclock hdown hfacing hcase
      have hpassing' : server'.mischief.IsPassing := by
        rcases hcase with rfl | ⟨-, -, hmischief, -⟩
        · exact hpassing
        · rw [hmischief]
          exact ⟨nofun, nofun⟩
      refine (ih true hfacing hpassing').mono ?_ fun _ _ h => h
      rintro r s'' ⟨hheard, hrejects⟩
      -- The connection was down, so that a server that refuses connections is not heard.
      rw [hdown] at hrejects
      rw [hclock] at hheard
      rcases hcase with rfl | ⟨hnone, hcache, hmischief, hsame⟩
      · exact ⟨hheard, fun hrefused => nomatch hrejects hrefused⟩
      · rw [hcache, hmischief] at hheard
        exact ⟨.again hnone hheard, fun hrefused => nomatch hrejects (hsame.trans hrefused)⟩

section Said

variable {k : Cursor} (hvalid : command.Valid)
  (hread : Reply.read command.shape (.start b) = .done r k)

include hvalid hread

/-- Where the server can be reached and says a response, an attempt is in vain only if the
connection was down before. -/
theorem ends_attempt_said (h : s.Facing server)
    (hreplies : Replies server s.network.clock command b P)
    (hrejects : server.rejects = true → s.connection.link.state = .connected) (isRepeated : Bool) :
    Ends (attempt command isRepeated) s (fun r' _ => r' = r) fun failure s' =>
      s.connection.link.state = .faulted ∧ isRepeated = false ∧ Retriable s failure s' ∧
        s'.Facing server := by
  refine (ends_attempt_facing h hvalid isRepeated hreplies).mono ?_ ?_
  · rintro r' s' ⟨⟨k', hread'⟩, -⟩
    rw [hread] at hread'
    cases hread'
    rfl
  · intro failure s' hfutile
    cases hfutile with
    | unmet hlink hfirst hretriable hfacing => exact ⟨hlink, hfirst, hretriable, hfacing⟩
    | rejected hrefused hlink => exact absurd (hrejects hrefused) hlink
    | unheard hnone => exact absurd hread (hnone _ _)

/-- An attempt that opens the connection if it is down is answered. -/
theorem ends_attempts_repeated (h : s.Facing server)
    (hreplies : Replies server s.network.clock command b P)
    (hrejects : server.rejects = true → s.connection.link.state = .connected) (left : Nat) :
    Ends (client.attempts command true left) s (fun r' _ => r' = r) fun _ _ => False := by
  obtain ⟨r', s', hround, hr⟩ := ((ends_attempt_said hvalid hread h hreplies hrejects true).mono
    (fun _ _ h => h) fun failure s' hdown => nomatch hdown.2.1).exists_ok
  unfold Ends
  rw [attempts_of_ok hround]
  exact hr

/-- Where there may be another attempt, it does not matter whether the connection was down. -/
theorem ends_attempts_said (client : Client) (h : s.Facing server)
    (hreplies : Replies server s.network.clock command b P)
    (hrejects : server.rejects = true → s.connection.link.state = .connected) (left : Nat) :
    Ends (client.attempts command false (left + 1)) s (fun r' _ => r' = r) fun _ _ => False := by
  refine ends_attempts_succ.2 ((ends_attempt_said hvalid hread h hreplies hrejects false).mono
    (fun _ _ h => h) ?_)
  rintro failure s' ⟨hlink, -, hretriable, hfacing⟩
  rw [if_pos hretriable.isRepeatable_eq]
  rw [← hretriable.clock_eq] at hreplies
  refine ends_attempts_repeated (P := P) hvalid hread (hfacing.addNote _ _) ?_ ?_ left
  · rwa [addNote_network]
  · intro hrefused
    rw [hlink] at hrejects
    exact nomatch hrejects hrefused

end Said

/-- A command whose frame is none is never answered. -/
theorem ends_attempts_malformed (hvalid : command.Valid) {fault : Fault}
    (hmalformed : Request.read (.start (Request.encode command)) = .malformed fault) (left : Nat)
    (isRepeated : Bool) (h : s.Facing server) :
    Ends (client.attempts command isRepeated left) s (fun _ _ => False) fun _ _ => True := by
  have hreplies (server : Server) (now : Instant) :
      Replies server now command [] fun _ => True := by
    intro connectionsAccepted lengths
    exact ⟨Server.writes_of_malformed hmalformed, trivial⟩
  have hattempt (s : Session) (server : Server) (h : s.Facing server) (isRepeated : Bool) :
      Ends (attempt command isRepeated) s (fun _ _ => False)
        (Futile command.shape isRepeated server [] (fun _ => True) s) := by
    refine (ends_attempt_facing h hvalid isRepeated (hreplies server _)).mono ?_ fun _ _ h => h
    rintro r s' ⟨⟨k, hread⟩, -⟩
    cases hread
  induction left generalizing s server isRepeated with
  | zero => exact (hattempt s server h isRepeated).mono (fun _ _ h => h) fun _ _ _ => trivial
  | succ left ih =>
    refine ends_attempts_of_futile (hattempt s server h isRepeated) ?_
    intro s' server' hclock hdown hfacing hcase
    exact ih true hfacing

/-! ### The response that is read -/

/-- The cache that the response comes from, once there is one. -/
def actingCache (m : Server.Mischief) (now : Instant) (command : Command) (c : Cache) : Cache :=
  if m = .garbage then (c.handle now command).1 else c

/-- An acknowledgement is read back. -/
theorem read_acknowledged (h : (c.handle now command).2 = .ok .ack) :
    Reply.read command.shape (.start (Reply.frame (c.handle now command).2)) =
      .done (.ok .ack) ⟨1, []⟩ := by
  have hshape := Cache.hasShape_handle c now command
  rw [h] at hshape ⊢
  rw [← show Shape.ack = command.shape from hshape]
  rfl

/-- What half of a reply is read as, all of it is. -/
theorem read_of_firstHalf {shape : Shape} {reply : Bytes} {k : Cursor}
    (h : Reply.read shape (.start (Server.firstHalf reply)) = .done r k) :
    ∃ k', Reply.read shape (.start reply) = .done r k' := by
  have hwhole := (Reply.stable_read shape).done_extend h (reply.drop (max 1 (reply.length / 2)))
  rw [Cursor.extend_start, Server.firstHalf, List.take_append_drop] at hwhole
  exact ⟨_, hwhole⟩

/-- A server that behaves itself is heard at the first copy. -/
theorem Heard.of_none (h : Heard now command .none c r) :
    ∃ k, Reply.read command.shape (.start (Reply.frame (c.handle now command).2)) = .done r k := by
  generalize hm : Server.Mischief.none = m at h
  induction h with
  | once hread =>
    subst hm
    exact ⟨_, hread⟩
  | again hnone h ih =>
    rename_i m c r
    subst hm
    obtain ⟨k, hread⟩ := ih rfl
    rcases c.handle_again now command with hsame | ⟨hack, -⟩
    · exact absurd (hsame ▸ hread) (hnone _ _)
    · exact absurd (read_acknowledged hack) (hnone _ _)

/-- The response comes from the first copy that the server acts on, or from the second if the reply
to the first was garbled. -/
theorem Heard.exists_read (h : Heard now command m c r)
    (hm : m = .closeBeforeResponse ∨ m = .closeMidResponse ∨ m = .garbage) :
    ∃ k, Reply.read command.shape
      (.start (Reply.frame ((actingCache m now command c).handle now command).2)) = .done r k := by
  rcases hm with rfl | rfl | rfl
  · cases h with
    | once hread => cases hread
    | again hnone h => exact h.of_none
  · cases h with
    | once hread => exact read_of_firstHalf hread
    | again hnone h =>
      obtain ⟨k, hread⟩ := h.of_none
      rcases c.handle_again now command with hsame | ⟨hack, -⟩
      · exact ⟨k, hsame ▸ hread⟩
      · -- Half of an acknowledgement is all of it.
        have hhalf : Server.Mischief.spoil .closeMidResponse
            (Reply.frame (c.handle now command).2) = Reply.frame (c.handle now command).2 := by
          rw [hack]
          rfl
        rw [hhalf] at hnone
        exact absurd (read_acknowledged hack) (hnone _ _)
  · cases h with
    | once hread => cases hread
    | again hnone h => exact h.of_none

/-! ### Questions -/

/-- A command that can be sent is read back or is no frame at all. -/
theorem intelligible_or_malformed (hvalid : command.Valid)
    (hcapacity : ∀ capacity, command = .resize capacity → capacity < 2 ^ 63) :
    command.Intelligible ∨
      ∃ fault, Request.read (.start (Request.encode command)) = .malformed fault := by
  by_cases hunreadable : command.Unreadable
  · exact .inr hunreadable.malformed
  · exact .inl (Command.intelligible_of_not_unreadable hvalid hcapacity hunreadable)

variable {α : Type} {q : Question α}

/-- A question that is answered was sent as a command, and the response answers it. -/
theorem Question.exists_response_of_ask {a : α} (h : q.ask client s = .ok a s') :
    ∃ r, client.execute q.command s = .ok r s' ∧ q.answer r = .ok a := by
  rw [q.ask_apply] at h
  split at h
  · rename_i r s₁ hexecute
    cases htold : q.answer r with
    | ok b =>
      rw [htold] at h
      cases h
      exact ⟨r, hexecute, htold⟩
    | error failure =>
      rw [htold] at h
      cases h
  · cases h

theorem Question.ask_of_response {a : α} (hexecute : client.execute q.command s = .ok r s')
    (hanswer : q.answer r = .ok a) : q.ask client s = .ok a s' := by
  rw [q.ask_apply, hexecute]
  dsimp only
  rw [hanswer]
  rfl

/-- A response that answers a question in spite of a fault answers it like the one that would have
come without, unless a key is deleted that is there and the reply is garbled. -/
theorem Heard.exists_answer {a : α} (h : Heard now q.command.received m c r)
    (hm : m = .closeBeforeResponse ∨ m = .closeMidResponse ∨ m = .garbage)
    (hanswer : q.answer r = .ok a) :
    ∃ r₁ k b, Reply.read q.command.received.shape
        (.start (Reply.frame (c.handle now q.command.received).2)) = .done r₁ k ∧
      q.answer r₁ = .ok b ∧
      (a = b ↔ ¬ (m = .garbage ∧ ∃ key, q.command = .del key ∧
        (c.store.live? now key).isSome = true)) := by
  obtain ⟨k, hread⟩ := h.exists_read hm
  by_cases hsame : ((actingCache m now q.command.received c).handle now q.command.received).2 =
      (c.handle now q.command.received).2
  · rw [hsame] at hread
    refine ⟨r, k, a, hread, hanswer, iff_of_true rfl ?_⟩
    rintro ⟨rfl, key, hkey, hlive⟩
    -- The second copy of a deletion does not find the key.
    rw [hkey, actingCache, if_pos rfl] at hsame
    change ((c.handle now (.del key)).1.handle now (.del key)).2 =
      (c.handle now (.del key)).2 at hsame
    rw [Cache.handle_del_again, Cache.handle_del_eq_ack_iff.2 hlive] at hsame
    cases hsame
  · -- Only a second copy is answered in another way.
    obtain rfl : m = .garbage := by
      by_contra hother
      exact hsame (by rw [actingCache, if_neg hother])
    rw [actingCache, if_pos rfl] at hread hsame
    rcases c.handle_again now q.command.received with heq | ⟨hack, hgone, hwhich⟩
    · exact absurd heq hsame
    · have hread₁ := read_acknowledged hack
      rw [hgone] at hread
      cases hread
      rcases hwhich with ⟨key, hkey⟩ | ⟨key, ttl, hkey⟩
      · have hdel := Command.received_eq_del hkey
        cases q with
        | del _ =>
          cases hdel
          cases hanswer
          refine ⟨_, _, true, hread₁, rfl, iff_of_false nofun (not_not.2 ⟨rfl, key, rfl, ?_⟩)⟩
          exact Cache.handle_del_eq_ack_iff.1 hack
        | _ => cases hdel
      · -- A key that has no lifetime to be set is a refusal.
        obtain ⟨given, hset⟩ := Command.received_eq_setTtl hkey
        cases q with
        | setTtl _ _ => cases hanswer
        | _ => cases hset

/-- A question to a server that behaves itself is answered at the first copy of its command. -/
theorem Question.ask_unspoilt (client : Client) (h : s.Facing server)
    (hmischief : server.mischief = .none) (hreconnects : 1 ≤ client.reconnects)
    (hcommand : q.command.Intelligible) {k : Cursor}
    (hread : Reply.read q.command.received.shape (.start (Reply.frame
      (server.cache.handle s.network.clock q.command.received).2)) = .done r k)
    (hrejects : server.rejects = true → s.connection.link.state = .connected) {a : α}
    (hanswer : q.answer r = .ok a) : ∃ s', q.ask client s = .ok a s' := by
  have hreplies := replies_of_reads server s.network.clock hcommand.reads
    (by rw [hmischief]; exact ⟨nofun, nofun⟩)
  rw [hmischief] at hreplies
  rw [q.command.received_shape] at hread
  obtain ⟨left, hleft⟩ : ∃ left, client.reconnects.toNat = left + 1 :=
    Nat.exists_eq_succ_of_ne_zero (by omega)
  obtain ⟨_, s', hexecute, rfl⟩ :=
    (ends_attempts_said hcommand.valid hread client h hreplies hrejects left).exists_ok
  rw [← hleft, ← execute_eq hcommand.valid] at hexecute
  exact ⟨s', ask_of_response hexecute hanswer⟩

/-- A question that is answered although the server misbehaved at its command is also answered if
the server behaves itself. The answers are the same, unless a key is deleted that is there and the
reply is garbled: the second copy of the command does not find the key any more. -/
theorem resent_eq_iff (q : Question α) (hreconnects : 1 ≤ client.reconnects)
    (h : s.Facing server)
    (hm : m = .closeBeforeResponse ∨ m = .closeMidResponse ∨ m = .garbage)
    (hvalid : q.command.Valid)
    (hcapacity : ∀ capacity, q.command = .resize capacity → capacity < 2 ^ 63) {a : α}
    (hask : q.ask client (inject s m) = .ok a s') :
    ∃ b s'', q.ask client (inject s .none) = .ok b s'' ∧
      (a = b ↔ ¬ (m = .garbage ∧ ∃ key, q.command = .del key ∧
        (server.cache.store.live? s.network.clock key).isSome = true)) := by
  obtain ⟨r, hexecute, hanswer⟩ := Question.exists_response_of_ask hask
  rw [execute_eq hvalid] at hexecute
  rcases intelligible_or_malformed hvalid hcapacity with hcommand | ⟨fault, hmalformed⟩
  · have hpassing : m.IsPassing := by
      rcases hm with rfl | rfl | rfl <;> exact ⟨nofun, nofun⟩
    have hshape := q.command.received_shape
    obtain ⟨hheard, hrejects⟩ := (ends_attempts_heard hvalid hcommand.reads hshape _ false
      (facing_inject h m) hpassing).of_eq_ok hexecute
    obtain ⟨r₁, k, b, hread, hanswer₁, heq⟩ := hheard.exists_answer hm hanswer
    obtain ⟨s'', hask₁⟩ := Question.ask_unspoilt client (facing_inject h .none) rfl
      hreconnects hcommand hread hrejects hanswer₁
    exact ⟨b, s'', hask₁, heq⟩
  · exact ((ends_attempts_malformed hvalid hmalformed _ false (facing_inject h m)).of_eq_ok
      hexecute).elim

/-- What a program is told, if anything. -/
def answered? : EStateM.Result Failure Session α → Option α
  | .ok a _ => some a
  | .error _ _ => none

theorem exists_eq_ok_of_answered {result : EStateM.Result Failure Session α} {a : α}
    (h : answered? result = some a) : ∃ s', result = .ok a s' := by
  cases result with
  | ok b s' =>
    cases h
    exact ⟨s', rfl⟩
  | error failure s' => cases h

/-- A session that is not connected, and a server with one key. -/
def withKey (key value : Bytes) : Session :=
  { connection := { endpoint := {} },
    network := { service := some { server := { cache := { store := [(key, ⟨value, none⟩)] } } } } }

theorem facing_withKey (key value : Bytes) :
    (withKey key value).Facing { cache := { store := [(key, ⟨value, none⟩)] } } :=
  .apart (List.forall_mem_nil _) rfl rfl rfl (Service.quiet_of_closed _)

/-- A value is read in spite of a garbled reply. -/
theorem resent_eq_iff_get :
    ∃ b s'', (Question.get [107]).ask { reconnects := 1 } (inject (withKey [107] [118]) .none) =
        .ok b s'' ∧
      (some [118] = b ↔ ¬ (Server.Mischief.garbage = .garbage ∧
        ∃ key, (Question.get [107]).command = .del key ∧
          (Store.live? [([107], ⟨[118], none⟩)] 0 key).isSome = true)) := by
  have hanswered : answered? ((Question.get [107]).ask { reconnects := 1 }
      (inject (withKey [107] [118]) .garbage)) = some (some [118]) := by
    decide +kernel
  obtain ⟨s', hask⟩ := exists_eq_ok_of_answered hanswered
  exact resent_eq_iff (.get [107]) (le_refl 1) (facing_withKey [107] [118]) (.inr (.inr rfl))
    (by decide) nofun hask

/-- A key that is there is deleted, and the program is told that it was not there. -/
theorem resent_del_garbled :
    (Store.live? [([107], ⟨[118], none⟩)] 0 [107]).isSome = true ∧
      (∃ s', (Question.del [107]).ask { reconnects := 1 } (inject (withKey [107] [118]) .garbage) =
        .ok false s') ∧
      ∃ s', (Question.del [107]).ask { reconnects := 1 } (inject (withKey [107] [118]) .none) =
        .ok true s' := by
  refine ⟨rfl, exists_eq_ok_of_answered ?_, exists_eq_ok_of_answered ?_⟩
  · decide +kernel
  · decide +kernel

end RemoteCache.Client
