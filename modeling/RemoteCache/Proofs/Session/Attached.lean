import RemoteCache.Proofs.Network.Setbacks
import RemoteCache.Proofs.Session.Hosted

/-!
# Calls on a server, over a line that may fail

What is known of a server before a call on a connection to it is known after the call, up to the
command that the call may have brought to the server. A response is returned only if the server has
done what the command says; a call that fails leaves the server at most one more command to hear,
and that when the next connection comes at the latest. Where nothing fails on the line, it is one
command exactly.

## Main definitions

* `Attempt.Serves` — an attempt to connect that can lead to the server only
* `Session.Linked` — a session that is connected to a server of which this is known
* `Session.Attached` — a session that is connected to such a server, or is not and may be

## Main results

* `Session.Attached.connect` — opening a connection brings no command to the server
* `Session.Attached.connect_calm` — on a calm line a connection is opened
* `Session.Linked.roundTrip` — a command is heard once at most, and done if it is answered
* `Session.Linked.roundTrip_calm` — on a calm line it is heard
-/

namespace RemoteCache

/-- An attempt that leads to the server if to any peer, and does so at once on a calm line. -/
structure Attempt.Serves (calm : Prop) (a : Attempt) : Prop where
  arrivals_eq : a.arrivals = none
  toCalm : calm → a.Calm

namespace Session

open Network Wire

variable {calm : Prop} {s s' : Session} {E : Outlook} {deadline : Deadline} {peer : Socket}
  {server : Server} {caller : Option Service.Caller} {command : Command} {limit : Instant}
  {f : Bytes}

/-- A session that is connected to a server of which this is known. Nothing is left to read of what
the server has written, and these bytes are what the server has not looked at, if it has not closed
the connection. -/
structure Linked (calm : Prop) (E : Outlook) (f : Bytes) (peer : Socket) (server : Server)
    (caller : Option Service.Caller) (s : Session) : Prop where
  attempts : ∀ a ∈ s.network.attempts, a.Serves calm
  link_eq : s.connection.link = .up peer []
  isHosted_eq : peer.isHosted = true
  carried_eq : peer.arrivals.carried = []
  departures : calm → peer.departures.Gentle
  service_eq : s.network.service = some ⟨server, caller⟩
  visits : ∀ c ∈ caller, c.visit = some {} ∧ c.unread = f
  holds : E.Holds s.network.clock server.gist

/-- A session that leads to a server of which this is known: it is connected, with nothing left to
read on one side or the other, or it is not, and then this is known when the next connection
comes. -/
inductive Attached (calm : Prop) (E : Outlook) (s : Session) : Prop
  | up {peer : Socket} {server : Server} {caller : Option Service.Caller}
      (h : s.Linked calm E [] peer server caller)
  | apart (hattempts : ∀ a ∈ s.network.attempts, a.Serves calm)
      (hlink : s.connection.link.socket? = none) (hawaits : s.network.Awaits E)

theorem Attached.mono {E' : Outlook} (h : s.Attached calm E)
    (hE : ∀ instant server, E.Holds instant server → E'.Holds instant server) :
    s.Attached calm E' := by
  cases h with
  | up h => exact .up { h with holds := hE _ _ h.holds }
  | apart hattempts hlink hawaits =>
    obtain ⟨service, hservice, hawaits⟩ := hawaits
    exact .apart hattempts hlink ⟨service, hservice, hawaits.mono hE⟩

theorem Attached.attempts (h : s.Attached calm E) : ∀ a ∈ s.network.attempts, a.Serves calm := by
  cases h with
  | up h => exact h.attempts
  | apart hattempts => exact hattempts

/-- Connected or not, this is known when the next connection comes. -/
theorem Attached.awaits (h : s.Attached calm E) : s.network.Awaits E := by
  cases h with
  | up h => exact ⟨_, h.service_eq, Service.awaits_of_quiet h.holds fun c hc => (h.visits c hc).2⟩
  | apart hattempts hlink hawaits => exact hawaits

theorem Linked.compact (h : s.Linked calm E f peer server caller) : server.cache.Compact :=
  (E.compact h.holds :)

theorem Linked.addNote (h : s.Linked calm E f peer server caller) (level : Level)
    (message : Bytes) : (s.addNote level message).Linked calm E f peer server caller := by
  obtain ⟨hattempts, hlink, hhosted, hcarried, hgentle, hservice, hvisits, hholds⟩ := h
  have hnetwork := addNote_network s level message
  rw [← hnetwork] at hattempts hservice hholds
  exact ⟨hattempts, addNote_connection s level message ▸ hlink, hhosted, hcarried, hgentle,
    hservice, hvisits, hholds⟩

theorem Attached.addNote (h : s.Attached calm E) (level : Level) (message : Bytes) :
    (s.addNote level message).Attached calm E := by
  cases h with
  | up h => exact .up (h.addNote level message)
  | apart hattempts hlink hawaits =>
    rw [← addNote_network s level message] at hattempts hawaits
    exact .apart hattempts (addNote_connection s level message ▸ hlink) hawaits

theorem idles_dropSocket (s : Session) : s.network.Idles s.dropSocket.network := by
  unfold dropSocket
  split
  · exact (Idles.refl _).record _
  · exact .refl _

/-- A connection that breaks leaves the server as it is. -/
theorem Attached.breakWith (hattempts : ∀ a ∈ s.network.attempts, a.Serves calm)
    (hawaits : s.network.Awaits E) (reason : Breakdown) : (s.breakWith reason).Attached calm E := by
  have hidles : s.network.Idles (s.breakWith reason).network := by
    rw [Session.breakWith, addNote_network]
    exact idles_dropSocket s
  refine .apart ?_ ?_ (hawaits.idles hidles)
  · rw [hidles.attempts_eq]
    exact hattempts
  · rw [breakWith_link]
    rfl

/-- A connection that breaks some time later, before which nobody has tried to connect again. -/
theorem Attached.breakWith_follows {broken : Session}
    (hattempts : ∀ a ∈ s.network.attempts, a.Serves calm)
    (hfollows : s.network.Follows broken.network) (hawaits : broken.network.Awaits E)
    (reason : Breakdown) : (broken.breakWith reason).Attached calm E := by
  refine .breakWith ?_ hawaits reason
  rw [hfollows.attempts_eq]
  exact hattempts

/-- A connection that is closed leaves the server as it is. -/
theorem Attached.hangUp (h : s.Attached calm E) : s.hangUp.Attached calm E := by
  have hidles : s.network.Idles s.hangUp.network := by
    have hdrop := idles_dropSocket s
    unfold Session.hangUp
    dsimp only [setLink]
    split
    · rwa [addNote_network]
    · exact hdrop
  refine .apart ?_ rfl (h.awaits.idles hidles)
  rw [hidles.attempts_eq]
  exact h.attempts

/-! ### Waiting for the server -/

/-- A response is read from what the server writes in its turn. Where none is read, the server has
had its turn, or not. -/
theorem ends_awaitResponse_turn {shape : Shape} {caller : Service.Caller}
    (hlink : s.connection.link = .up peer []) (hhosted : peer.isHosted = true)
    (harrivals : peer.arrivals.carried = [])
    (hservice : s.network.service = some ⟨server, some caller⟩) :
    Ends (awaitResponse shape deadline) s
      (fun r s' => ∃ instant lengths peer' pending p c,
        Turned server caller instant lengths s.network s'.network ∧
        s'.connection.link = .up peer' pending ∧ peer'.isHosted = true ∧
        peer'.departures = peer.departures ∧
        p ++ peer'.arrivals.carried = (caller.turn server instant lengths).written ∧
        Reply.read shape (.start p) = .done r c ∧ c.rest = pending)
      fun _ s' => ∃ reason : Breakdown, ∃ broken : Session, s' = broken.breakWith reason ∧
        (s.network.Idles broken.network ∨
          ∃ instant lengths, Turned server caller instant lengths s.network broken.network) := by
  rw [ends_awaitResponse hlink]
  rcases settle_cases deadline hhosted harrivals hservice with
    ⟨script, hsettle, hcarried⟩ | ⟨instant, lengths, script, n, hsettle, hcarried, hturned⟩
  · -- Without a turn of the server there is nothing to read.
    rw [hsettle]
    dsimp only
    obtain ⟨hidles, hresponse⟩ :=
      receive_carried deadline shape peer.descriptor script [] s.network
    rcases hreceive : s.network.receive deadline shape peer.descriptor script [] with
      ⟨result, network⟩
    rw [hreceive] at hidles hresponse
    cases result with
    | error reason => exact ⟨reason, { s with network }, rfl, .inl hidles⟩
    | ok received =>
      obtain ⟨p, c, hp, hread, -⟩ := hresponse received rfl
      rw [hcarried, List.append_nil, List.append_eq_nil_iff] at hp
      exact absurd hread (Reply.read_ne_done_of_prefix (hp.1 ▸ List.nil_prefix) _ _)
  · rw [hsettle]
    dsimp only
    obtain ⟨hidles, hresponse⟩ := receive_carried deadline shape peer.descriptor script [] n
    rcases hreceive : n.receive deadline shape peer.descriptor script [] with ⟨result, network⟩
    rw [hreceive] at hidles hresponse
    cases result with
    | error reason =>
      exact ⟨reason, { s with network }, rfl, .inr ⟨instant, lengths, hturned.idles hidles⟩⟩
    | ok received =>
      obtain ⟨p, c, hp, hread, hrest⟩ := hresponse received rfl
      rw [List.nil_append, hcarried] at hp
      exact ⟨instant, lengths, _, received.pending, p, c, hturned.idles hidles, rfl, hhosted, rfl,
        hp, hread, hrest⟩

/-! ### Opening a connection -/

/-- A connection over which nothing was sent yet is greeted, and nothing is left to read behind the
greeting. -/
theorem ends_greeting_attached (hattempts : ∀ a ∈ s.network.attempts, a.Serves calm)
    (hlink : s.connection.link = .up peer []) (hmeets : s.network.Meets E peer)
    (hgentle : calm → peer.departures.Gentle) :
    Ends (awaitResponse .ack deadline) s
      (fun r s' => (∀ a ∈ s'.network.attempts, a.Serves calm) ∧ s'.network.Awaits E ∧
        ∀ payload, r = .ok payload →
          ∃ peer server, s'.Linked calm E [] peer server (some { visit := some {} }))
      fun _ s' => s'.Attached calm E := by
  obtain ⟨hhosted, harrivals, server, hservice, hserver⟩ := hmeets
  have hawaits {n : Network} {instant : Instant} {lengths : List Nat}
      (h : Turned server {} instant lengths s.network n) : n.Awaits E := by
    refine ⟨_, h.greeted, Service.awaits_of_quiet (E.later hserver h.clock_le) ?_⟩
    intro caller hcaller
    dsimp only at hcaller
    split at hcaller <;> cases hcaller
    rfl
  refine (ends_awaitResponse_turn hlink hhosted (by rw [harrivals]; rfl) hservice).mono ?_ ?_
  · rintro r s' ⟨instant, lengths, peer', pending, p, c, hturned, hlink', hhosted', hdepartures, hp,
      hread, hrest⟩
    have hattempts' : ∀ a ∈ s'.network.attempts, a.Serves calm := by
      rw [hturned.attempts_eq]
      exact hattempts
    refine ⟨hattempts', hawaits hturned, ?_⟩
    -- The greeting is all that was written.
    rw [Turned.written_greeting] at hp
    obtain ⟨rfl, hnone⟩ := server.exhausts_greeting.eq_of_prefix (Reply.stable_read .ack)
      ⟨_, hp⟩ hread
    rintro payload rfl
    have haccepts : server.rejects = false := by
      by_contra hrejects
      rw [Bool.not_eq_false] at hrejects
      rw [Server.greeting, if_pos hrejects] at hread
      cases hread
    have hservice' := hturned.greeted
    rw [if_neg (ne_true_of_eq_false haccepts)] at hservice'
    refine ⟨peer', _, hattempts', hnone ▸ hrest ▸ hlink', hhosted', List.append_right_eq_self.1 hp,
      ?_, hservice', ?_, E.later hserver hturned.clock_le⟩
    · rwa [hdepartures]
    · rintro _ ⟨⟩
      exact ⟨rfl, rfl⟩
  · rintro failure _ ⟨reason, broken, rfl, hidles | ⟨instant, lengths, hturned⟩⟩
    · have hmeets : s.network.Meets E peer := ⟨hhosted, harrivals, server, hservice, hserver⟩
      exact .breakWith_follows hattempts hidles.toFollows (hmeets.awaits.idles hidles) reason
    · exact .breakWith_follows hattempts hturned.toFollows (hawaits hturned) reason

/-- Opening a connection brings no command to the server. -/
theorem Attached.connect (h : s.Attached calm E) (hlink : s.connection.link.socket? = none) :
    Ends Session.connect s
      (fun _ s' => ∃ peer server, s'.Linked calm E [] peer server (some { visit := some {} }))
      fun _ s' => s'.Attached calm E := by
  rw [ends_connect_greeting hlink, ends_bind, ends_openSocket, addNote_network]
  rcases hopen : s.network.openSocket (Deadline.after s.network.clock s.connection.connectTimeout)
    (s.addNote .debug (Bytes.ascii "connecting to " ++
      s.connection.endpoint.text)).connection.endpoint with ⟨result, network⟩
  obtain ⟨-, hattempts, hresult⟩ := openSocket_awaits (fun a ha => (h.attempts a ha).arrivals_eq)
    h.awaits hopen
  have hattempts' : ∀ a ∈ network.attempts, a.Serves calm := by
    rw [hattempts]
    exact fun a ha => h.attempts a (List.mem_of_mem_tail ha)
  cases result with
  | error reason => exact .breakWith hattempts' hresult reason
  | ok peer =>
    obtain ⟨hmeets, a, ha, hdepartures⟩ := hresult
    have hgentle (hcalm : calm) : peer.departures.Gentle := by
      rw [hdepartures]
      rcases ha with hmem | rfl
      · exact ((h.attempts a hmem).toCalm hcalm).departures
      · exact Attempt.calm_default.departures
    refine (ends_greeting_attached hattempts' rfl hmeets hgentle).mono ?_ fun _ _ h => h
    rintro r greeted ⟨hattempts'', hawaits, hgreeted⟩
    cases r with
    | refused refusal => exact ends_breakDown.2 (.breakWith hattempts'' hawaits _)
    | ok payload =>
      obtain ⟨peer', server, hlinked⟩ := hgreeted payload rfl
      exact ends_note.2 ⟨peer', server, hlinked.addNote _ _⟩

/-- However writing ends, the server has not looked at what was written, and it is all of it if
writing succeeds. No part of it is a frame. -/
theorem Linked.sendRequest (h : s.Linked calm E [] peer server caller) (hne : f ≠ [])
    (hparts : ∀ w, w <+: f → w.length < f.length → ∃ ending, Request.frames w = ([], ending)) :
    Ends (Session.sendRequest f deadline) s
      (fun _ s' => ∃ peer' busyUntil, (∀ time ∈ busyUntil, ∃ c ∈ caller, time ∈ c.busyUntil) ∧
        s'.Linked calm E f peer' server (some ⟨some {}, f, busyUntil⟩))
      fun _ s' => s'.Attached calm E := by
  rw [ends_sendRequest h.link_eq]
  cases caller with
  | none =>
    -- The server has closed the connection.
    obtain ⟨hidles, reason, hfailed⟩ := sendAll_closed deadline h.isHosted_eq peer.departures hne
      h.service_eq rfl
    rcases hsend : s.network.sendAll deadline peer peer.departures f with ⟨result, network⟩
    rw [hsend] at hidles hfailed
    obtain rfl : result = .error reason := hfailed
    exact .breakWith_follows h.attempts hidles.toFollows ((Attached.up h).awaits.idles hidles)
      reason
  | some caller =>
    obtain ⟨visit, unread, busyUntil⟩ := caller
    obtain ⟨hvisit, hunread⟩ := h.visits _ rfl
    obtain rfl : visit = some {} := hvisit
    obtain rfl : unread = [] := hunread
    obtain ⟨w, hw, hfollows, hservice, hresult⟩ := sendAll_open deadline h.isHosted_eq
      peer.departures f h.service_eq rfl
    rcases hsend : s.network.sendAll deadline peer peer.departures f with ⟨result, network⟩
    rw [hsend] at hfollows hservice hresult
    have hholds := E.later h.holds hfollows.clock_le
    cases result with
    | ok departures =>
      obtain ⟨rfl, hrest⟩ := hresult
      refine ⟨_, busyUntil, fun time htime => ⟨_, rfl, htime⟩, ?_, rfl, h.isHosted_eq,
        h.carried_eq, ?_, hservice, ?_, hholds⟩
      · exact fun a ha => h.attempts a (hfollows.attempts_eq ▸ ha)
      · exact fun hcalm met hmet => h.departures hcalm met (hrest.subset hmet)
      · rintro _ ⟨⟩
        exact ⟨rfl, rfl⟩
    | error reason =>
      obtain ⟨ending, hframes⟩ := hparts w hw hresult
      exact .breakWith_follows h.attempts hfollows
        ⟨_, hservice, Service.awaits_unheard hholds hframes⟩ reason

/-- The server hears a command that has come whole, if not at once then when the next connection
comes; and it has done what the command says if a response is read. -/
theorem Linked.awaitResponse_heard {busyUntil : Option Instant}
    (h : s.Linked calm E f peer server (some ⟨some {}, f, busyUntil⟩)) (hvalid : command.Valid)
    (hreads : Reader.Reads Request.read f command.received) (hne : f ≠ [])
    (hlimit : ∀ time ∈ busyUntil, time ≤ limit) :
    Ends (awaitResponse command.shape deadline) s
      (fun _ s' => s'.Attached calm (E.acted limit hvalid))
      fun _ s' => s'.Attached calm (E.heard limit hvalid) := by
  refine (ends_awaitResponse_turn h.link_eq h.isHosted_eq h.carried_eq h.service_eq).mono ?_ ?_
  · rintro r s' ⟨instant, lengths, peer', pending, p, c, hturned, hlink, hhosted, hdepartures, hp,
      hread, hrest⟩
    obtain ⟨hignores, hcarried, hnone, hvisit⟩ :=
      Server.acts_of_read h.compact hreads hne hp hread
    obtain ⟨hclock, hearlier, hinstant, hgist⟩ := hturned.hears hlimit hreads hne
    refine .up ⟨?_, hnone ▸ hrest ▸ hlink, hhosted, hcarried, ?_, hturned.service_eq, ?_,
      _, instant, server.gist, ⟨h.holds, hignores⟩, hclock, hearlier, hinstant, hgist⟩
    · rw [hturned.attempts_eq]
      exact h.attempts
    · rw [hdepartures]
      exact h.departures
    · intro caller hcaller
      obtain ⟨⟨visit, hopen, hvisits⟩, hunread⟩ := Service.visit_ofTurn hcaller
      refine ⟨?_, hunread⟩
      rcases hvisit with hvisit | hvisit <;> cases hvisit.symm.trans hopen
      exact hvisits
  · rintro failure _ ⟨reason, broken, rfl, hidles | ⟨instant, lengths, hturned⟩⟩
    · -- The server has not looked at the frame, and will when the next connection comes.
      refine .breakWith_follows h.attempts hidles.toFollows
        ⟨_, hidles.service_eq.trans h.service_eq, ?_⟩ reason
      exact Service.awaits_heard (E.later h.holds hidles.clock_le) limit hvalid hreads hne
    · refine .breakWith_follows h.attempts hturned.toFollows ⟨_, hturned.service_eq, ?_⟩ reason
      exact Service.awaits_ofTurn
        ⟨_, instant, server.gist, h.holds, hturned.hears hlimit hreads hne⟩

/-- A server to which bytes have come that are no frame does nothing, and closes. -/
theorem Linked.awaitResponse_malformed {busyUntil : Option Instant} {shape : Shape}
    (h : s.Linked calm E f peer server (some ⟨some {}, f, busyUntil⟩)) {fault : Fault}
    (hmalformed : Request.read (.start f) = .malformed fault) :
    Ends (awaitResponse shape deadline) s (fun _ _ => False) fun _ s' => s'.Attached calm E := by
  have hframes := Request.frames_of_malformed hmalformed
  refine (ends_awaitResponse_turn h.link_eq h.isHosted_eq h.carried_eq h.service_eq).mono ?_ ?_
  · rintro r s' ⟨instant, lengths, peer', pending, p, c, hturned, -, -, -, hp, hread, -⟩
    have hnothing : (server.attend {} instant f lengths).written = [] :=
      (Server.attend_unheard hframes).2
    obtain ⟨rfl, -⟩ := List.append_eq_nil_iff.1 (hp.trans hnothing)
    exact Reply.read_ne_done_of_prefix List.nil_prefix _ _ hread
  · rintro failure _ ⟨reason, broken, rfl, hidles | ⟨instant, lengths, hturned⟩⟩
    · refine .breakWith_follows h.attempts hidles.toFollows
        ⟨_, hidles.service_eq.trans h.service_eq, ?_⟩ reason
      exact Service.awaits_unheard (E.later h.holds hidles.clock_le) hframes
    · refine .breakWith_follows h.attempts hturned.toFollows ⟨_, hturned.service_eq, ?_⟩ reason
      · have hgist : (server.attend {} instant f lengths).server.gist = server.gist :=
          (Server.attend_unheard hframes).1
        exact Service.awaits_ofTurn (hgist ▸ E.later h.holds hturned.clock_le)

section RoundTrip

variable (hvalid : command.Valid)

theorem Attached.next (h : s.Attached calm E) (limit : Instant) :
    s.Attached calm (E.next limit hvalid) :=
  h.mono fun _ _ => Or.inl

theorem Attached.next_of_heard (h : s.Attached calm (E.heard limit hvalid)) :
    s.Attached calm (E.next limit hvalid) :=
  h.mono fun _ _ => Or.inr

include hvalid

/-- However a call ends, the server hears the command once at most; and it has done what the command
says if there is a response. -/
theorem Linked.roundTrip (h : s.Linked calm E [] peer server caller)
    (hform : Reader.Reads Request.read (Request.encode command) command.received ∨
      ∃ fault, Request.read (.start (Request.encode command)) = .malformed fault)
    (hlimit : ∀ c ∈ caller, ∀ time ∈ c.busyUntil, time ≤ limit) :
    Ends (Session.roundTrip command) s (fun _ s' => s'.Attached calm (E.acted limit hvalid))
      fun _ s' => s'.Attached calm (E.next limit hvalid) := by
  have hne : Request.encode command ≠ [] := List.cons_ne_nil _ _
  rw [ends_roundTrip_up hvalid h.link_eq]
  refine (((h.addNote _ _).sendRequest hne fun w hw hlength =>
    Server.exists_frames_of_prefix hw hlength hform).mono (fun _ _ h => h)
      fun _ _ hfailed => hfailed.next hvalid limit).bind ?_
  rintro _ sent ⟨peer', busyUntil, hbusy, hlinked⟩
  have hlimit' : ∀ time ∈ busyUntil, time ≤ limit := by
    intro time htime
    obtain ⟨c, hc, htime'⟩ := hbusy time htime
    exact hlimit c hc time htime'
  -- Only a frame that is read can be answered.
  rcases hform with hreads | ⟨fault, hmalformed⟩
  · exact (hlinked.awaitResponse_heard hvalid hreads hne hlimit').mono (fun _ _ h => h)
      fun _ _ hfailed => hfailed.next_of_heard hvalid
  · exact (hlinked.awaitResponse_malformed hmalformed).mono (fun _ _ h => h.elim)
      fun _ _ hfailed => hfailed.next hvalid limit

end RoundTrip

end Session

end RemoteCache
