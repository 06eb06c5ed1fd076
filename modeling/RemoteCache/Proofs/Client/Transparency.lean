import RemoteCache.Proofs.Client.Retries
import RemoteCache.Proofs.Session.Hosted

/-!
# What lies between a client and a cache

A client of a server that behaves itself tells a program what the cache itself would have answered:
neither the frames nor the segments that they travel in show, and neither do short writes, signals
and the pauses between the questions. One connection is made, for the first question, and one
request for each.

## Main definitions

* `Client.Errand` — a question, some time after the one before
* `Client.Attuned` — a session within reach of a server whose cache is as good as another one
* `Client.Mirrors` — a client tells what the other cache answers

## Main results

* `Client.Attuned.execute` — a command is answered as by the other cache, which stays as good
* `Client.exists_mirrors` — so it is with any number of questions
-/

namespace RemoteCache.Client

open Session Network Wire

variable {client : Client} {command : Command} {s s' : Session} {server : Server} {c : Cache}

/-- A session some nanoseconds later. -/
def later (s : Session) (pause : Nat) : Session :=
  { s with network := { s.network with clock := s.network.clock + pause } }

/-- A question that is put some nanoseconds after the answer to the one before. -/
structure Errand : Type 1 where
  {α : Type}
  pause : Nat
  question : Question α

/-- A client tells of some questions what a cache answers, to whom the same commands are given
directly, in the same order and at the same times. Of the policies in a report, it tells those
that agree. -/
inductive Mirrors (client : Client) : List Errand → Session → Cache → Session → Cache → Prop
  | nil {s : Session} {c : Cache} : Mirrors client [] s c s c
  | cons {e : Errand} {more : List Errand} {s s₁ s' : Session} {c c' : Cache} {r : Response}
      (hagrees : (c.handle (later s e.pause).network.clock e.question.command).2.Agrees r)
      (hask : e.question.ask client (later s e.pause) =
        Question.tell (e.question.answer r) s₁)
      (h : Mirrors client more s₁
        (c.handle (later s e.pause).network.clock e.question.command).1 s' c') :
      Mirrors client (e :: more) s c s' c'

/-- A session within reach of a server that behaves itself and takes connections, and whose cache
agrees with another one that can be told of. -/
structure Attuned (s : Session) (server : Server) (c : Cache) : Prop where
  facing : s.Facing server
  rejects_eq : server.rejects = false
  mischief_eq : server.mischief = .none
  clock_ge : (-2 ^ 63 : Int) ≤ s.network.clock
  agrees : c.Agrees server.cache
  presentable : c.Presentable s.network.clock

theorem Attuned.later (h : Attuned s server c) (pause : Nat) :
    Attuned (later s pause) server c := by
  have hle : s.network.clock ≤ s.network.clock + pause :=
    Int.le_add_of_nonneg_right pause.cast_nonneg
  refine { h with
    facing := ?_, clock_ge := h.clock_ge.trans hle, presentable := h.presentable.mono hle }
  cases h.facing with
  | up hcalm hlink hleads hservice hready =>
    exact .up hcalm hlink hleads hservice fun time htime => (hready time htime).trans hle
  | apart hcalm hlink hservice hserver hquiet => exact .apart hcalm hlink hservice hserver hquiet

/-- A command over a connection is answered as by the other cache. -/
theorem Attuned.roundTrip (h : Attuned s server c) (hup : s.connection.link.state = .connected)
    (hcommand : command.Intelligible) :
    Ends (Session.roundTrip command) s
      (fun r s' => r = (c.handle s.network.clock command).2.essence ∧
        s'.connection.link.state = .connected ∧
        ∃ server', Attuned s' server' (c.handle s.network.clock command).1 ∧
          server'.connectionsAccepted = server.connectionsAccepted ∧
          server'.requestsReceived = server.requestsReceived + 1)
      fun _ _ => False := by
  obtain ⟨hagrees, hessence⟩ := h.agrees.handle s.network.clock command
  have hpresentable := h.agrees.presentable h.presentable
  let received : Server :=
    { server with bytesReceived := server.bytesReceived + (Request.encode command).length }
  have hturn : server.attend {} s.network.clock (Request.encode command)
      (s.network.transits.headD {}).requests =
        { server := received.served s.network.clock command.received, visit := some {},
          writes := [⟨s.network.clock, received.reply s.network.clock command.received⟩],
          time := s.network.clock } :=
    (Server.attend_of_reads hcommand.reads (List.cons_ne_nil _ _)).trans
      (Server.answerAll_of_none h.mischief_eq)
  -- What is read is the response to what was received, which is told like the other one.
  have hread : Reply.read command.shape (.start (received.reply s.network.clock command.received)) =
      .done (c.handle s.network.clock command).2.essence
        ⟨(received.reply s.network.clock command.received).length, []⟩ := by
    have hshape := Cache.hasShape_handle server.cache s.network.clock command.received
    rw [command.received_shape] at hshape
    have hreads := (Reply.reads_frame hshape (hpresentable.readable command.received)).start []
    rw [List.append_nil, hessence] at hreads
    rw [Server.reply_eq]
    exact hreads
  refine (h.facing.roundTrip hup hcommand.valid hturn
    (.mk' (Server.reply_ne_nil _ _ _) (.inl rfl))).mono ?_ ?_
  · rintro r s' ⟨k, hdone, hclock, hup', hfacing⟩
    rw [hread] at hdone
    cases hdone
    refine ⟨rfl, hup', _, ⟨hfacing rfl rfl, h.rejects_eq, rfl, ?_, hagrees, ?_⟩, rfl, rfl⟩
    · rw [hclock]
      exact h.clock_ge
    · rw [hclock]
      exact h.presentable.handle h.clock_ge hcommand
  · rintro failure s' ⟨hnone, -⟩
    exact hnone _ _ hread

/-- The server takes a connection. -/
theorem Attuned.connect (h : Attuned s server c) (hlink : s.connection.link.socket? = none) :
    Ends Session.connect s
      (fun _ s' => s'.connection.link.state = .connected ∧
        s'.network.clock = s.network.clock ∧
        Attuned s' { server with connectionsAccepted := server.connectionsAccepted + 1 } c)
      fun _ _ => False := by
  refine (h.facing.connect hlink h.rejects_eq).mono ?_ fun _ _ h => h
  rintro _ s' ⟨hfacing, hup, hclock⟩
  refine ⟨hup, hclock, hfacing, h.rejects_eq, h.mischief_eq, ?_, h.agrees, ?_⟩
  · rw [hclock]
    exact h.clock_ge
  · rw [hclock]
    exact h.presentable

/-- How many connections a command needs, on a link that is not down. -/
def connectionsNeeded (s : Session) : Nat :=
  if s.connection.link.state = .connected then 0 else 1

/-- A command is answered at the first attempt as by the other cache, and the connection stays
up. -/
theorem Attuned.execute (client : Client) (h : Attuned s server c)
    (hlink : s.connection.link.state ≠ .faulted) (hcommand : command.Intelligible) :
    ∃ s' server', client.execute command s =
        .ok (c.handle s.network.clock command).2.essence s' ∧
      s'.connection.link.state = .connected ∧
      Attuned s' server' (c.handle s.network.clock command).1 ∧
      server'.connectionsAccepted = server.connectionsAccepted + connectionsNeeded s ∧
      server'.requestsReceived = server.requestsReceived + 1 := by
  have hattempt : Ends (attempt command false) s
      (fun r s' => r = (c.handle s.network.clock command).2.essence ∧
        s'.connection.link.state = .connected ∧
        ∃ server', Attuned s' server' (c.handle s.network.clock command).1 ∧
          server'.connectionsAccepted = server.connectionsAccepted + connectionsNeeded s ∧
          server'.requestsReceived = server.requestsReceived + 1)
      fun _ _ => False := by
    unfold attempt connectionsNeeded
    rw [ends_get]
    cases hup : s.connection.link with
    | up peer pending => exact h.roundTrip (by rw [hup]; rfl) hcommand
    | idle =>
      refine (h.connect (by rw [hup]; rfl)).bind ?_
      rintro _ opened ⟨hopened, hclock, hattuned⟩
      rw [← hclock]
      exact hattuned.roundTrip hopened hcommand
    | down reason =>
      rw [hup] at hlink
      exact absurd rfl hlink
  obtain ⟨r, s', hround, rfl, hup, server', hattuned, hcounts⟩ := hattempt.exists_ok
  refine ⟨s', server', ?_, hup, hattuned, hcounts⟩
  rw [execute_eq hcommand.valid]
  exact attempts_of_ok hround

/-- A question is answered as by the other cache. -/
theorem Attuned.ask {α : Type} (client : Client) (q : Question α) (h : Attuned s server c)
    (hlink : s.connection.link.state ≠ .faulted) (hcommand : q.command.Intelligible) :
    ∃ s' server', q.ask client s =
        Question.tell (q.answer (c.handle s.network.clock q.command).2.essence) s' ∧
      s'.connection.link.state = .connected ∧
      Attuned s' server' (c.handle s.network.clock q.command).1 ∧
      server'.connectionsAccepted = server.connectionsAccepted + connectionsNeeded s ∧
      server'.requestsReceived = server.requestsReceived + 1 := by
  obtain ⟨s', server', hexecute, hrest⟩ := h.execute client hlink hcommand
  refine ⟨s', server', ?_, hrest⟩
  rw [q.ask_apply, hexecute]

/-- Every question is one request, and the first one makes the connection if there is none. -/
theorem Attuned.mirrored (client : Client) {errands : List Errand} (h : Attuned s server c)
    (hlink : s.connection.link.state ≠ .faulted)
    (hcommands : ∀ e ∈ errands, e.question.command.Intelligible) :
    ∃ s' c' server', Mirrors client errands s c s' c' ∧ Attuned s' server' c' ∧
      server'.connectionsAccepted =
        server.connectionsAccepted + (if errands = [] then 0 else connectionsNeeded s) ∧
      server'.requestsReceived = server.requestsReceived + errands.length := by
  induction errands generalizing s server c with
  | nil => exact ⟨s, c, server, .nil, h, rfl, rfl⟩
  | cons e more ih =>
    obtain ⟨hcommand, hmore⟩ := List.forall_mem_cons.1 hcommands
    obtain ⟨s₁, server₁, hask, hup, hattuned, haccepted, hreceived⟩ :=
      (h.later e.pause).ask client e.question hlink hcommand
    obtain ⟨s', c', server', hmirrors, hattuned', haccepted', hreceived'⟩ :=
      ih hattuned (by rw [hup]; exact nofun) hmore
    -- From now on the connection is up.
    have hnone : connectionsNeeded s₁ = 0 := if_pos hup
    refine ⟨s', c', server', .cons ((h.later e.pause).presentable.agrees_essence _) hask hmirrors,
      hattuned', ?_, ?_⟩
    · rw [haccepted', haccepted, hnone, ite_self, if_neg (List.cons_ne_nil _ _)]
      rfl
    · rw [hreceived', hreceived, List.length_cons, Nat.add_assoc, Nat.add_comm 1]

/-- A client that is not connected puts any questions to a server that behaves itself and takes
connections, with any pauses between them. It is told what the cache itself would have answered,
however the frames are cut on their way, and however often calls fall short or are interrupted. In
the end the server's cache is the other one, up to policies that agree; and there was one
connection, made for the first question, and one request for each. -/
theorem exists_mirrors (client : Client) (errands : List Errand) {s : Session} {server : Server}
    (hlink : s.connection.link = .idle) (hcalm : ∀ a ∈ s.network.attempts, a.Calm)
    (hservice : s.network.service = some { server }) (hrejects : server.rejects = false)
    (hmischief : server.mischief = .none) (hclock : (-2 ^ 63 : Int) ≤ s.network.clock)
    (hpresentable : server.cache.Presentable s.network.clock)
    (hcommands : ∀ e ∈ errands, e.question.command.Intelligible) :
    ∃ s' c' server', Mirrors client errands s server.cache s' c' ∧
      s'.network.service.map Service.server = some server' ∧ c'.Agrees server'.cache ∧
      server'.connectionsAccepted =
        server.connectionsAccepted + (if errands = [] then 0 else 1) ∧
      server'.requestsReceived = server.requestsReceived + errands.length := by
  have hfacing : s.Facing server :=
    .apart hcalm (by rw [hlink]; rfl) hservice rfl (Service.quiet_of_closed server)
  have hattuned : Attuned s server server.cache :=
    ⟨hfacing, hrejects, hmischief, hclock, .refl _, hpresentable⟩
  obtain ⟨s', c', server', hmirrors, hattuned', haccepted, hreceived⟩ :=
    hattuned.mirrored client (by rw [hlink]; exact nofun) hcommands
  have hneeded : connectionsNeeded s = 1 := by
    unfold connectionsNeeded
    rw [hlink]
    rfl
  rw [hneeded] at haccepted
  obtain ⟨service, hservice', hserver'⟩ := hattuned'.facing.exists_service
  refine ⟨s', c', server', hmirrors, ?_, hattuned'.agrees, haccepted, hreceived⟩
  rw [hservice', Option.map_some, hserver']

/-- A request that is written byte by byte and interrupted, and read in two pieces: a key is stored,
found a second later, and deleted once but not twice. -/
theorem exists_mirrors_interrupted :
    ∃ (s : Session) (server : Server) (errands : List Errand), errands.length = 4 ∧
      s.connection.link = .idle ∧ (∀ a ∈ s.network.attempts, a.Calm) ∧
      s.network.service = some { server } ∧
      ∃ s' c' server', Mirrors {} errands s server.cache s' c' ∧
        s'.network.service.map Service.server = some server' ∧ c'.Agrees server'.cache ∧
        server'.connectionsAccepted = 1 ∧ server'.requestsReceived = 4 := by
  let server : Server := { cache := ({ } : Cache).withPolicies [{ kind := .lru }] }
  let departures : Script Departure :=
    [⟨[], .accept (some 1)⟩, ⟨[], .failed .interrupted⟩, ⟨[], .accept (some 2)⟩]
  let s : Session :=
    { connection := { endpoint := {} },
      network := { service := some { server }, transits := [⟨[], [some 1]⟩, ⟨[3], [none, some 1]⟩],
                   attempts := [{ resolution := .ok [.reachable], departures }] } }
  let errands : List Errand :=
    [⟨0, .set [107] [118] none⟩, ⟨1000000000, .get [107]⟩, ⟨0, .del [107]⟩, ⟨5, .del [107]⟩]
  have hcalm : ∀ a ∈ s.network.attempts, a.Calm := by
    refine List.forall_mem_singleton.2 ⟨rfl, ⟨[], rfl⟩, rfl, ?_⟩
    refine List.forall_mem_cons.2 ⟨⟨rfl, .inr (.inl ⟨1, by decide, rfl⟩)⟩, ?_⟩
    refine List.forall_mem_cons.2 ⟨⟨rfl, .inr (.inr rfl)⟩, ?_⟩
    exact List.forall_mem_singleton.2 ⟨rfl, .inr (.inl ⟨2, by decide, rfl⟩)⟩
  have hnames : ∀ p ∈ [({ kind := .lru } : Policy)], p.NamesItself :=
    List.forall_mem_singleton.2 trivial
  have hpresentable : server.cache.Presentable s.network.clock :=
    Cache.presentable_withPolicies (by decide) hnames _
  have hcommands : ∀ e ∈ errands, e.question.command.Intelligible := by
    intro e he
    simp only [errands, List.mem_cons, List.not_mem_nil, or_false] at he
    rcases he with rfl | rfl | rfl | rfl <;> exact ⟨by decide, nofun, nofun⟩
  exact ⟨s, server, errands, rfl, rfl, hcalm, rfl,
    exists_mirrors {} errands rfl hcalm rfl rfl rfl (by decide) hpresentable hcommands⟩

end RemoteCache.Client
