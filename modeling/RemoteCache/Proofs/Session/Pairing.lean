import RemoteCache.Proofs.Network.Delivery
import RemoteCache.Proofs.Session.Outcomes

/-!
# Every response answers its own command

Responses carry no mark of the command that they answer: the first one that comes is taken for the
answer. That this is right rests on nothing being left over when a command is sent. As long as the
peer sends one frame for each command, every command gets its own response; a byte too many breaks
the connection at the next command, before that is sent; and what was read over one socket is
never part of an answer over another.

## Main definitions

* `Exchange` — a command and its response
* `Exchange.Passes` — what a socket meets while a command is answered
* `Conversation` — what a socket meets while commands are answered one after another
* `Session.InStep` — calls that return their own responses, on a connection that stays up

## Main results

* `Session.roundTrip_of_passes` — a command gets its own response
* `Session.inStep_of_conversation` — so does every command of a conversation
* `Session.roundTrip_of_pending` — bytes too many break the connection, and nothing is sent
* `Session.answers_of_roundTrip` — a response comes over the socket that its request was sent over
* `Session.responses_pair` — all of this together
-/

namespace RemoteCache

open Network Wire

/-- A command and the response to it. -/
structure Exchange where
  command : Command
  response : Response
deriving DecidableEq

/-- What the socket of a peer in its own right meets while a command is answered: the request is
taken, a frame of the response comes whole, perhaps with bytes beyond it, and no wait lasts
longer than the timeout allows. -/
inductive Exchange.Passes (timeout : Int) (e : Exchange) (extra : Bytes) : Socket → Socket → Prop
  | mk {d : Nat} {arrivals tail : Script Arrival} {departures rest : Script Departure}
      {pauses : List Pause} {frame : Bytes} (hvalid : e.command.Valid)
      (htakes : Script.Takes (Request.encode e.command) departures pauses rest)
      (hframe : Reply.IsFrame e.command.shape e.response frame)
      (hbrings : Script.Brings frame extra arrivals)
      (htime : Pause.Within timeout (pauses ++ arrivals.flatMap Timed.pauses)) :
    Passes timeout e extra ⟨d, arrivals ++ tail, departures, false⟩ ⟨d, tail, rest, false⟩

/-- What a socket meets while commands are answered one after another, with nothing beyond the
frames of the responses. -/
inductive Conversation (timeout : Int) : List Exchange → Socket → Socket → Prop
  | nil (socket : Socket) : Conversation timeout [] socket socket
  | cons {e : Exchange} {more : List Exchange} {socket socket' socket'' : Socket}
      (h : e.Passes timeout [] socket socket')
      (hmore : Conversation timeout more socket' socket'') :
    Conversation timeout (e :: more) socket socket''

namespace Session

variable {s s' : Session} {command : Command} {r : Response} {socket socket' : Socket}
  {extra : Bytes} {e : Exchange} {exchanges : List Exchange}

/-- Calls one after another, each of which returns its own response and leaves the connection up
with nothing left over. -/
inductive InStep : List Exchange → Session → Session → Prop
  | nil (s : Session) : InStep [] s s
  | cons {e : Exchange} {more : List Exchange} {s s' s'' : Session} {socket : Socket}
      (hcall : roundTrip e.command s = .ok e.response s')
      (hup : s'.connection.link = .up socket []) (hmore : InStep more s' s'') :
    InStep (e :: more) s s''

/-! ### Calls -/

/-- The whole request is written, and time is left to read the response. -/
theorem ends_sendRequest_of_takes {b pending : Bytes} {rest : Script Departure}
    {pauses more : List Pause} {deadline : Deadline}
    (hlink : s.connection.link = .up socket pending) (hpeer : socket.isHosted = false)
    (htakes : Script.Takes b socket.departures pauses rest)
    (htime : s.network.InTime deadline (pauses ++ more)) :
    Ends (sendRequest b deadline) s
      (fun _ s' => s'.connection =
          { s.connection with link := .up { socket with departures := rest } pending } ∧
        s'.network.InTime deadline more)
      fun _ _ => False := by
  obtain ⟨written, hsend, hlater⟩ := sendAll_of_takes htakes hpeer htime
  rw [ends_sendRequest hlink, hsend]
  exact ⟨rfl, hlater⟩

/-- The response of the frame is read, and what came beyond it is left over. -/
theorem ends_awaitResponse_of_brings {frame : Bytes} {script tail : Script Arrival}
    {deadline : Deadline} (hlink : s.connection.link = .up socket [])
    (hpeer : socket.isHosted = false) (harrivals : socket.arrivals = script ++ tail)
    (hbrings : Script.Brings frame extra script) (hframe : Reply.IsFrame command.shape r frame)
    (htime : s.network.InTime deadline (script.flatMap Timed.pauses)) :
    Ends (awaitResponse command.shape deadline) s
      (fun r' s' => r' = r ∧ s'.connection =
        { s.connection with link := .up { socket with arrivals := tail } extra })
      fun _ _ => False := by
  have hwhole : Reply.IsFrame command.shape r ([] ++ frame) := hframe
  obtain ⟨network, hreceive⟩ :=
    receive_of_brings hbrings hwhole htime socket.descriptor tail
  rw [ends_awaitResponse hlink, settle_of_not_hosted hpeer, harrivals]
  dsimp only
  rw [hreceive]
  exact ⟨rfl, rfl⟩

/-- A command gets its own response, and what came beyond it is left over. -/
theorem roundTrip_of_passes (hlink : s.connection.link = .up socket [])
    (h : e.Passes s.connection.timeout extra socket socket') :
    ∃ s', roundTrip e.command s = .ok e.response s' ∧
      s'.connection = { s.connection with link := .up socket' extra } := by
  cases h with
  | @mk d arrivals tail departures rest pauses frame hvalid htakes hframe hbrings htime =>
    have hnoted := hlink
    rw [← noteRequest_connection e.command s] at hnoted
    -- One deadline covers writing and reading.
    have hboth : (noteRequest e.command s).network.InTime
        (Deadline.after s.network.clock s.connection.timeout)
        (pauses ++ arrivals.flatMap Timed.pauses) := by
      rw [noteRequest_network]
      exact inTime_of_within htime
    have hends : Ends (roundTrip e.command) s
        (fun r s' => r = e.response ∧
          s'.connection = { s.connection with link := .up ⟨d, tail, rest, false⟩ extra })
        fun _ _ => False := by
      refine (ends_roundTrip_up hvalid hlink).2 ?_
      refine (ends_sendRequest_of_takes hnoted rfl htakes hboth).bind ?_
      rintro _ sent ⟨hsent, hlater⟩
      rw [noteRequest_connection] at hsent
      have hup : sent.connection.link = .up ⟨d, arrivals ++ tail, rest, false⟩ [] := by
        rw [hsent]
      refine (ends_awaitResponse_of_brings hup rfl rfl hbrings hframe hlater).mono ?_
        fun _ _ hfailed => hfailed
      rintro r s' ⟨hr, hread⟩
      rw [hsent] at hread
      exact ⟨hr, hread⟩
    obtain ⟨r, s', hcall, rfl, hconnection⟩ := hends.exists_ok
    exact ⟨s', hcall, hconnection⟩

/-- Every command of a conversation gets its own response. -/
theorem inStep_of_conversation (hlink : s.connection.link = .up socket [])
    (h : Conversation s.connection.timeout exchanges socket socket') :
    ∃ s', InStep exchanges s s' ∧
      s'.connection = { s.connection with link := .up socket' [] } := by
  generalize htimeout : s.connection.timeout = timeout at h
  induction h generalizing s with
  | nil socket => exact ⟨s, .nil s, by rw [← hlink]⟩
  | @cons e more socket socket₁ socket₂ h hmore ih =>
    subst htimeout
    obtain ⟨s₁, hcall, hconnection⟩ := roundTrip_of_passes hlink h
    have hup : s₁.connection.link = .up socket₁ [] := by rw [hconnection]
    -- The timeout stays the same, so that what follows passes in time too.
    have htimeout : s₁.connection.timeout = s.connection.timeout := by rw [hconnection]
    obtain ⟨s₂, hlater, hconnection'⟩ := ih hup htimeout
    rw [hconnection] at hconnection'
    exact ⟨s₂, .cons hcall hup hlater, hconnection'⟩

/-- Bytes too many break the connection at the next command, and nothing is sent. -/
theorem roundTrip_of_pending (hvalid : command.Valid)
    (hlink : s.connection.link = .up socket extra) (hextra : extra ≠ []) :
    roundTrip command s = .error (.lost .unsolicited) (s.breakWith .unsolicited) ∧
      (s.breakWith .unsolicited).connection.link = .down .unsolicited ∧
      (s.breakWith .unsolicited).network.calls = .close socket.descriptor :: s.network.calls := by
  refine ⟨?_, breakWith_link s _, breakWith_calls _ hlink⟩
  apply Ends.eq_error
  exact (ends_roundTrip_pending hvalid hlink hextra).2 ⟨rfl, rfl⟩

/-- A response comes over the socket that its request was sent over, in the same call. -/
theorem answers_of_roundTrip (h : roundTrip command s = .ok r s') : Answers command s r s' := by
  have hends : Ends (roundTrip command) s (Answers command s) fun _ _ => True := by
    cases hlink : s.connection.link with
    | idle => exact (ends_roundTrip_idle hlink).2 trivial
    | down reason => exact (ends_roundTrip_down hlink).2 trivial
    | up socket pending =>
      have hup : s.connection.link.state = .connected := by
        rw [hlink]
        rfl
      cases hcheck : command.check with
      | ok u => exact (ends_roundTrip hcheck hup).mono (fun _ _ hr => hr) fun _ _ _ => trivial
      | error fault => exact (ends_roundTrip_of_check hlink hcheck).2 trivial
  exact hends.of_eq_ok h

/-- On a connection that is up, every command gets its own response as long as the peer sends one
frame for each, in whatever pieces, and the connection stays up with nothing left over. When bytes
come beyond a frame, its response is still returned, but the next command that could be sent
breaks the connection, and nothing of it is sent. And whatever was before, a response is read from
bytes that came in the same call and over the same socket as its request was sent. -/
theorem responses_pair :
    (∀ {s : Session} {socket socket₁ : Socket} {exchanges : List Exchange},
      s.connection.link = .up socket [] →
      Conversation s.connection.timeout exchanges socket socket₁ →
      ∃ s₁, InStep exchanges s s₁ ∧ s₁.connection.link = .up socket₁ [] ∧
        ∀ {e : Exchange} {extra : Bytes} {socket₂ : Socket},
          e.Passes s.connection.timeout extra socket₁ socket₂ → extra ≠ [] →
          ∃ s₂, roundTrip e.command s₁ = .ok e.response s₂ ∧
            s₂.connection.link = .up socket₂ extra ∧
            ∀ {next : Command}, next.Valid →
              ∃ s₃, roundTrip next s₂ = .error (.lost .unsolicited) s₃ ∧
                (Failure.lost .unsolicited).kind = .codec ∧
                s₃.connection.link = .down .unsolicited ∧
                s₃.network.calls = .close socket₂.descriptor :: s₂.network.calls) ∧
    ∀ {s s' : Session} {command : Command} {r : Response},
      roundTrip command s = .ok r s' → Answers command s r s' := by
  refine ⟨?_, answers_of_roundTrip⟩
  intro s socket socket₁ exchanges hlink hconversation
  obtain ⟨s₁, hstep, hconnection⟩ := inStep_of_conversation hlink hconversation
  have hup : s₁.connection.link = .up socket₁ [] := by rw [hconnection]
  have htimeout : s₁.connection.timeout = s.connection.timeout := by rw [hconnection]
  refine ⟨s₁, hstep, hup, ?_⟩
  intro e extra socket₂ hpasses hextra
  rw [← htimeout] at hpasses
  obtain ⟨s₂, hcall, hconnection'⟩ := roundTrip_of_passes hup hpasses
  have hup' : s₂.connection.link = .up socket₂ extra := by rw [hconnection']
  refine ⟨s₂, hcall, hup', ?_⟩
  intro next hnext
  obtain ⟨hlost, hdown, hcalls⟩ := roundTrip_of_pending hnext hup' hextra
  exact ⟨_, hlost, rfl, hdown, hcalls⟩

/-- A ping that is answered in two parts with signals in between, a request for a value that is
written in two parts and refused with a byte too many behind it, and one more ping. -/
theorem responses_pair_ping_get :
    ∃ s socket socket₁ socket₂, s.connection.link = .up socket [] ∧ 0 < s.connection.timeout ∧
      Conversation s.connection.timeout
        [⟨.ping, .ok (.value (Bytes.ascii "pong"))⟩] socket socket₁ ∧
      Exchange.Passes s.connection.timeout
        ⟨.get [107], .refused (.ofCache .keyNotFound)⟩ [0x21] socket₁ socket₂ ∧
      ∃ s₁ s₂ s₃, InStep [⟨.ping, .ok (.value (Bytes.ascii "pong"))⟩] s s₁ ∧
        roundTrip (.get [107]) s₁ = .ok (.refused (.ofCache .keyNotFound)) s₂ ∧
        Answers (.get [107]) s₁ (.refused (.ofCache .keyNotFound)) s₂ ∧
        roundTrip .ping s₂ = .error (.lost .unsolicited) s₃ := by
  let pong : Script Arrival := [⟨[.failed .interrupted], .segment [0x21, 4]⟩,
    ⟨[], .failed .interrupted⟩, ⟨[.delay 20], .segment [0, 0, 0, 112, 111, 110, 103]⟩]
  let missing : Script Arrival := [⟨[], .segment [0x3F, 0, 1, 0x21]⟩]
  let socket : Socket := ⟨3, pong ++ missing,
    [⟨[], .failed .interrupted⟩, ⟨[], .accept (some 1)⟩, ⟨[], .accept (some 2)⟩], false⟩
  let socket₁ : Socket := ⟨3, missing ++ [], [⟨[], .accept (some 2)⟩], false⟩
  have hping : Exchange.Passes 50 ⟨.ping, .ok (.value (Bytes.ascii "pong"))⟩ [] socket socket₁ := by
    have hbrings : Script.Brings ([0x21, 4] ++ [0, 0, 0, 112, 111, 110, 103]) [] pong :=
      .segment _ (by decide) (.signal _ (.last _ (by decide) []))
    have htakes : Script.Takes [0] socket.departures ([] ++ ([] ++ [])) socket₁.departures :=
      .signal _ (by decide) (.part _ one_ne_zero (by decide) (.nil _))
    have hframe : Reply.IsFrame .value (.ok (.value (Bytes.ascii "pong")))
        ([0x21, 4] ++ [0, 0, 0, 112, 111, 110, 103]) :=
      Reply.isFrame_of_encode (r := .ok (.value _)) rfl ⟨trivial, show 4 < 2 ^ 32 by decide⟩ rfl
    exact .mk rfl htakes hframe hbrings fun _ => ⟨_, .signal (.delay 20 (by decide) (.nil _))⟩
  have hget : Exchange.Passes 50 ⟨.get [107], .refused (.ofCache .keyNotFound)⟩ [0x21] socket₁
      ⟨3, [], [], false⟩ := by
    have hbrings : Script.Brings [0x3F, 0, 1] [0x21] missing := .last _ (by decide) _
    have htakes : Script.Takes (Request.encode (.get [107])) socket₁.departures ([] ++ []) [] :=
      .part _ two_ne_zero (by decide) (.dry _)
    have hframe : Reply.IsFrame .value (.refused (.ofCache .keyNotFound)) [0x3F, 0, 1] := rfl
    exact .mk rfl htakes hframe hbrings fun _ => ⟨0, .nil _⟩
  let s : Session := { connection := { endpoint := {}, timeout := 50, link := .up socket [] } }
  have hconversation : Conversation s.connection.timeout _ socket socket₁ := .cons hping (.nil _)
  obtain ⟨s₁, hstep, -, hmore⟩ := responses_pair.1 rfl hconversation
  obtain ⟨s₂, hcall, -, hnext⟩ := hmore hget (by decide)
  obtain ⟨s₃, hlost, -⟩ := hnext (show Command.ping.Valid from rfl)
  exact ⟨s, socket, socket₁, _, rfl, by decide, hconversation, hget, s₁, s₂, s₃, hstep, hcall,
    responses_pair.2 hcall, hlost⟩

end Session

end RemoteCache
