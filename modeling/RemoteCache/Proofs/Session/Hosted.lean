import RemoteCache.Proofs.Network.Hosted
import RemoteCache.Proofs.Session.Outcomes

/-!
# Calls on a server

Where a connection leads to the in-memory server and nothing else fails, what the server writes in
its turn decides what becomes of a call: it returns the response that the bytes begin with, or it
fails and breaks the connection. Either way the server stays within reach.

## Main definitions

* `Session.Facing` — a session within reach of a server

## Main results

* `Session.Facing.connect` — the server takes a connection
* `Session.Facing.roundTrip` — what the server says to a command is what becomes of it
-/

namespace RemoteCache

namespace Session

open Network Wire

variable {s s' : Session} {server : Server} {deadline : Deadline} {peer : Socket}
  {service : Service} {command : Command} {t : Server.Turn} {b : Bytes}

/-- A session within reach of a server: it is connected to the server, with nothing left over and
nothing unread, or it is not and will find the server as it is. -/
inductive Facing (s : Session) (server : Server) : Prop
  | up {peer : Socket} {busyUntil : Option Instant} (hcalm : ∀ a ∈ s.network.attempts, a.Calm)
      (hlink : s.connection.link = .up peer []) (hleads : Leads peer)
      (hservice : s.network.service = some ⟨server, some ⟨some {}, [], busyUntil⟩⟩)
      (hready : ∀ time ∈ busyUntil, time ≤ s.network.clock)
  | apart {service : Service} (hcalm : ∀ a ∈ s.network.attempts, a.Calm)
      (hlink : s.connection.link.socket? = none) (hservice : s.network.service = some service)
      (hserver : service.server = server) (hquiet : service.Quiet)

theorem scene_dropSocket (s : Session) : s.dropSocket.network.scene = s.network.scene := by
  unfold dropSocket
  split <;> rfl

theorem scene_breakWith (s : Session) (reason : Breakdown) :
    (s.breakWith reason).network.scene = s.network.scene := by
  rw [breakWith, addNote_network]
  exact scene_dropSocket s

/-! ### Parts of calls -/

/-- What the server says in its turn is received. -/
theorem ends_awaitResponse_writes {shape : Shape} {caller : Service.Caller}
    (hlink : s.connection.link = .up peer []) (hleads : Leads peer)
    (hservice : s.network.service = some service) (hcaller : service.caller = some caller)
    (hready : ∀ time ∈ caller.busyUntil, time ≤ s.network.clock)
    (hturn : caller.turn service.server s.network.clock (s.network.transits.headD {}).requests = t)
    (hwrites : t.Writes s.network.clock b) :
    Ends (awaitResponse shape deadline) s
      (fun r s' => ∃ c, Reply.read shape (.start b) = .done r c ∧
        s'.network.scene = (s.network.afterTurn t).scene ∧
        ∃ peer' pending, s'.connection.link = .up peer' pending ∧
          (c.rest = [] → t.visit = some {} → pending = [] ∧ Leads peer'))
      fun failure s' => (∀ r c, Reply.read shape (.start b) ≠ .done r c) ∧
        s'.network.scene = (s.network.afterTurn t).scene ∧
        ∃ reason, s'.connection.link = .down reason ∧ failure = .lost reason := by
  obtain ⟨script, hsettle, hscript⟩ := settle_hosted deadline hleads.isHosted_eq
    hleads.arrivals_eq hservice hcaller hready hturn hwrites
  have htail : lastArrivals t.visit = [] ∨ lastArrivals t.visit = [⟨[], .close⟩] := by
    unfold lastArrivals
    split
    · exact .inr rfl
    · exact .inl rfl
  have hboth : Receives shape b (lastArrivals t.visit) ((s.network.afterTurn t).receive deadline
        shape peer.descriptor (script ++ lastArrivals t.visit) []).1 ∧
      ((s.network.afterTurn t).receive deadline shape peer.descriptor
        (script ++ lastArrivals t.visit) []).2.scene = (s.network.afterTurn t).scene := by
    rcases hscript with ⟨rfl, rfl⟩ | ⟨hbrings, hprompt⟩
    · exact receive_tail htail
    · rw [← List.nil_append b]
      exact receive_brings hbrings hprompt htail
  rw [ends_awaitResponse hlink, hsettle]
  dsimp only
  rcases hreceive : (s.network.afterTurn t).receive deadline shape peer.descriptor
    (script ++ lastArrivals t.visit) [] with ⟨result, network⟩
  rw [hreceive] at hboth
  obtain ⟨hreceives, hscene⟩ := hboth
  unfold Receives at hreceives
  cases hread : Reply.read shape (.start b) with
  | done r c =>
    rw [hread] at hreceives
    obtain ⟨received, rfl, rfl, hrest⟩ := hreceives
    refine ⟨c, rfl, hscene, _, _, rfl, fun hnone hvisit => ?_⟩
    obtain ⟨hpending, harrivals⟩ := hrest hnone
    refine ⟨hpending, hleads.isHosted_eq, ?_, hleads.departures⟩
    rw [harrivals, lastArrivals, hvisit]
    rfl
  | short missing c | malformed fault =>
    rw [hread] at hreceives
    obtain ⟨reason, rfl, hlost⟩ := hreceives
    refine ⟨nofun, ?_, reason, breakWith_link _ _, hlost⟩
    rw [scene_breakWith]
    exact hscene

/-- After a turn of the server the session faces the server as the turn left it: connected if the
response was all there was to read, or not connected if there was none. -/
theorem ends_awaitResponse_facing (deadline : Deadline) {shape : Shape} {caller : Service.Caller}
    (hcalm : ∀ a ∈ s.network.attempts, a.Calm) (hlink : s.connection.link = .up peer [])
    (hleads : Leads peer) (hservice : s.network.service = some service)
    (hcaller : service.caller = some caller)
    (hready : ∀ time ∈ caller.busyUntil, time ≤ s.network.clock)
    (hturn : caller.turn service.server s.network.clock (s.network.transits.headD {}).requests = t)
    (hwrites : t.Writes s.network.clock b) :
    Ends (awaitResponse shape deadline) s
      (fun r s' => ∃ c, Reply.read shape (.start b) = .done r c ∧
        s'.network.clock = s.network.clock ∧ s'.connection.link.state = .connected ∧
        (c.rest = [] → t.visit = some {} → s'.Facing t.server))
      fun failure s' => (∀ r c, Reply.read shape (.start b) ≠ .done r c) ∧
        s'.network.clock = s.network.clock ∧ s'.Facing t.server ∧
        ∃ reason, s'.connection.link = .down reason ∧ failure = .lost reason := by
  have hcalm' {s' : Session} (hscene : s'.network.scene = (s.network.afterTurn t).scene) :
      ∀ a ∈ s'.network.attempts, a.Calm := by
    rw [attempts_of_scene hscene]
    exact hcalm
  have hservice' {s' : Session} (hscene : s'.network.scene = (s.network.afterTurn t).scene) :
      s'.network.service = some (Service.ofTurn s.network.clock t).1 := service_of_scene hscene
  refine (ends_awaitResponse_writes hlink hleads hservice hcaller hready hturn hwrites).mono ?_ ?_
  · rintro r s' ⟨c, hread, hscene, peer', pending, hup, hrest⟩
    refine ⟨c, hread, (clock_of_scene hscene :), by rw [hup]; rfl, fun hnone hvisit => ?_⟩
    obtain ⟨rfl, hleads'⟩ := hrest hnone hvisit
    refine .up (hcalm' hscene) hup hleads' ((hservice' hscene).trans ?_)
      (fun time htime => absurd htime (Option.not_mem_none time))
    rw [Service.ofTurn_of_writes hwrites, hvisit]
    rfl
  · rintro failure s' ⟨hnone, hscene, reason, hdown, hfailure⟩
    refine ⟨hnone, (clock_of_scene hscene :), ?_, reason, hdown, hfailure⟩
    refine .apart (hcalm' hscene) (by rw [hdown]; rfl) (hservice' hscene) ?_
      (Service.quiet_ofTurn hwrites)
    rw [Service.ofTurn_of_writes hwrites]

/-- The server hears the whole request. -/
theorem ends_sendRequest_hosted {frame pending : Bytes}
    (hlink : s.connection.link = .up peer pending) (hleads : Leads peer)
    (hservice : s.network.service = some service) (hopen : service.hasClosed = false) :
    Ends (sendRequest frame deadline) s
      (fun _ s' => ∃ peer', Leads peer' ∧
        s'.connection = { s.connection with link := .up peer' pending } ∧
        s'.network.scene = { s.network.scene with service := some (service.hear frame) })
      fun _ _ => False := by
  obtain ⟨departures, network, hsend, hgentle, hscene⟩ := sendAll_hosted deadline (b := frame)
    hleads.isHosted_eq hleads.departures hservice hopen
  rw [ends_sendRequest hlink, hsend]
  exact ⟨{ peer with departures }, ⟨hleads.isHosted_eq, hleads.arrivals_eq, hgentle⟩, rfl, hscene⟩

/-! ### Calls -/

theorem Facing.exists_service (h : s.Facing server) :
    ∃ service, s.network.service = some service ∧ service.server = server := by
  cases h with
  | up hcalm hlink hleads hservice => exact ⟨_, hservice, rfl⟩
  | apart hcalm hlink hservice hserver => exact ⟨_, hservice, hserver⟩

theorem Facing.addNote (h : s.Facing server) (level : Level) (message : Bytes) :
    (s.addNote level message).Facing server := by
  have hnetwork := addNote_network s level message
  have hconnection := addNote_connection s level message
  cases h with
  | up hcalm hlink hleads hservice hready =>
    rw [← hnetwork] at hcalm hservice hready
    exact .up hcalm (hconnection ▸ hlink) hleads hservice hready
  | apart hcalm hlink hservice hserver hquiet =>
    rw [← hnetwork] at hcalm hservice
    exact .apart hcalm (hconnection ▸ hlink) hservice hserver hquiet

/-- A new connection is greeted. -/
theorem Facing.ends_greeting (h : s.Facing server) (hlink : s.connection.link.socket? = none) :
    Ends (openSocket deadline >>= fun _ => awaitResponse .ack deadline) s
      (fun r s' => r = server.greeting ∧ s'.network.clock = s.network.clock ∧
        s'.connection.link.state = .connected ∧ (server.rejects = false →
          s'.Facing { server with connectionsAccepted := server.connectionsAccepted + 1 }))
      fun _ _ => False := by
  cases h with
  | up hcalm hup =>
    rw [hup] at hlink
    cases hlink
  | @apart service hcalm _ hservice hserver hquiet =>
    subst hserver
    obtain ⟨peer, network, hopen, hleads, hscene⟩ := openSocket_calm deadline hcalm
      hservice s.connection.endpoint
    have hcalm' : ∀ a ∈ network.attempts, a.Calm := by
      rw [attempts_of_scene hscene]
      exact fun a ha => hcalm a (List.mem_of_mem_tail ha)
    have hservice' : network.service = some ⟨service.server, some {}⟩ :=
      (service_of_scene hscene).trans (congrArg some (hquiet.connect_eq _))
    have hclock : network.clock = s.network.clock := by
      rw [clock_of_scene hscene]
      rfl
    have hgreeted := service.server.read_greeting
    have hturn : Service.Caller.turn {} service.server network.clock
        (network.transits.headD {}).requests = service.server.greet network.clock :=
      Server.accept_nil _ _ _
    rw [← hclock, ends_bind, ends_openSocket, hopen]
    refine (ends_awaitResponse_facing deadline hcalm' rfl hleads hservice' rfl
      (fun time htime => absurd htime (Option.not_mem_none time)) hturn
      (Server.writes_greet _ _)).mono ?_ fun failure s' h => h.1 _ _ hgreeted
    rintro r s' ⟨c, hread, hsame, hup, hfacing⟩
    rw [hgreeted] at hread
    cases hread
    refine ⟨rfl, hsame, hup, fun hrejects => ?_⟩
    have hturned := hfacing rfl
    rw [Server.greet_eq, hrejects] at hturned
    rw [hrejects]
    exact hturned rfl

/-- To open a connection is to be greeted over a new socket. -/
theorem ends_connect_greeting {done : Unit → Session → Prop} {failed : Failure → Session → Prop}
    (hlink : s.connection.link.socket? = none) :
    Ends connect s done failed ↔
      Ends (openSocket (Deadline.after s.network.clock s.connection.connectTimeout) >>= fun _ =>
          awaitResponse .ack (Deadline.after s.network.clock s.connection.connectTimeout))
        (s.addNote .debug (Bytes.ascii "connecting to " ++ s.connection.endpoint.text))
        (fun r greeted => Ends (match r with
          | .refused refusal => breakDown (.rejected refusal)
          | .ok _ => note .info (Bytes.ascii "connected to " ++ s.connection.endpoint.text))
            greeted done failed)
        failed := by
  unfold connect
  rw [ends_get]
  split
  · rename_i hup
    rw [hup] at hlink
    cases hlink
  · dsimp only
    rw [ends_bind, ends_note, ← bind_assoc]
    exact ends_bind

/-- The server takes a connection. -/
theorem Facing.connect (h : s.Facing server) (hlink : s.connection.link.socket? = none)
    (hrejects : server.rejects = false) :
    Ends Session.connect s
      (fun _ s' => s'.Facing { server with connectionsAccepted := server.connectionsAccepted + 1 } ∧
        s'.connection.link.state = .connected ∧ s'.network.clock = s.network.clock)
      fun _ _ => False := by
  rw [ends_connect_greeting hlink]
  refine ((h.addNote _ _).ends_greeting (by rwa [addNote_connection])).mono ?_ fun _ _ h => h
  rintro r greeted ⟨hr, hclock, hup, hfacing⟩
  have hgreeting : server.greeting = .ok .ack := if_neg (by rw [hrejects]; exact nofun)
  rw [hr, hgreeting]
  refine ends_note.2 ⟨(hfacing hrejects).addNote _ _, ?_, ?_⟩
  · rwa [addNote_connection]
  · rw [addNote_network, hclock, addNote_network]

/-- The server refuses a connection. -/
theorem Facing.connect_rejected (h : s.Facing server) (hlink : s.connection.link.socket? = none)
    (hrejects : server.rejects = true) :
    Ends Session.connect s (fun _ _ => False) fun failure _ =>
      ∃ operation refusal, failure = .refused operation refusal := by
  rw [ends_connect_greeting hlink]
  refine ((h.addNote _ _).ends_greeting (by rwa [addNote_connection])).mono ?_
    fun _ _ h => h.elim
  rintro r greeted ⟨hr, -⟩
  have hgreeting : server.greeting = .refused (.ofServer .maxConnectionsExceeded) :=
    if_pos hrejects
  rw [hr, hgreeting]
  exact ends_breakDown.2 ⟨_, _, rfl⟩

/-- What becomes of a command is what the server says to it: its response is returned, or there is
none and the connection breaks. -/
theorem Facing.roundTrip (h : s.Facing server) (hup : s.connection.link.state = .connected)
    (hvalid : command.Valid)
    (hturn : server.attend {} s.network.clock (Request.encode command)
      (s.network.transits.headD {}).requests = t) (hwrites : t.Writes s.network.clock b) :
    Ends (Session.roundTrip command) s
      (fun r s' => ∃ c, Reply.read command.shape (.start b) = .done r c ∧
        s'.network.clock = s.network.clock ∧ s'.connection.link.state = .connected ∧
        (c.rest = [] → t.visit = some {} → s'.Facing t.server))
      fun failure s' => (∀ r c, Reply.read command.shape (.start b) ≠ .done r c) ∧
        s'.network.clock = s.network.clock ∧ s'.Facing t.server ∧
        ∃ reason, s'.connection.link = .down reason ∧ failure = .lost reason := by
  cases h with
  | apart hcalm hlink =>
    obtain ⟨peer, pending, hlink'⟩ := Link.exists_up_of_connected hup
    rw [hlink'] at hlink
    cases hlink
  | @up peer busyUntil hcalm hlink hleads hservice hready =>
    rw [ends_roundTrip_up hvalid hlink]
    refine ((ends_sendRequest_hosted (s := noteRequest command s) (by rwa [noteRequest_connection])
      hleads (by rwa [noteRequest_network]) rfl).mono (fun _ _ h => h)
        fun _ _ h => h.elim).bind ?_
    rintro _ sent ⟨peer', hleads', hsent, hscene⟩
    rw [noteRequest_network] at hscene
    have hlink' : sent.connection.link = .up peer' [] := by rw [hsent]
    have hclock : sent.network.clock = s.network.clock := (clock_of_scene hscene :)
    have htransits : sent.network.transits = s.network.transits := (transits_of_scene hscene :)
    have hcalm' : ∀ a ∈ sent.network.attempts, a.Calm := by
      rw [attempts_of_scene hscene]
      exact hcalm
    rw [← hclock] at hwrites hready hturn ⊢
    rw [← htransits] at hturn
    exact ends_awaitResponse_facing _ hcalm' hlink' hleads' (service_of_scene hscene) rfl hready
      hturn hwrites

end Session

end RemoteCache
