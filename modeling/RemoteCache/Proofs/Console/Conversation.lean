import RemoteCache.Console.Program
import RemoteCache.Proofs.Client.Verdicts
import RemoteCache.Proofs.Console.Errands

/-!
# A conversation with the console

Once the program is connected, no line ends it but one that quits. A failure is said, and the
prompt stands there again. While the connection is down and may not be opened by itself, every
question leaves it as it is and is met with the same complaint, until it is opened anew.

The complaint is meant to be a line of its own. For the questions that are called good before they
are put, it stands behind that word.

## Main definitions

* `Console.heard` — the lines that are read, up to the first that quits
* `Console.follow` — the session after some lines
* `Console.Errand.IsVain` — a line that asks nothing of the cache, or nothing that can be sent
* `Console.Reopened` — one of some lines has opened the connection anew
* `Console.lostText` — the complaint about a question on a connection that is down

## Main results

* `Console.ends_exchange` — a line, with what is said about its failure, and the prompt
* `Console.converse_eq` — a conversation goes on to the first line that quits, whatever fails
* `Console.exchange_of_isVain` — a line in vain leaves connection and network alone
* `Console.exchange_of_down`, `Console.follow_of_down` — a question on a connection that is down,
  and any lines on one
* `Console.conversation_of_start` — what holds of every conversation of the program
-/

namespace RemoteCache.Console

open Session Client

/-- The lines that are read: all of them, or those up to the first that quits. -/
def heard : List Bytes → List Bytes
  | [] => []
  | line :: more => if quits line then [line] else line :: heard more

/-- The session after some lines were entered, each with the prompt for the next. -/
def follow (client : Client) : List Bytes → Session → Session
  | [], s => s
  | line :: more, s => follow client more (after (exchange client line) s)

/-- A line that asks nothing of the cache, or nothing that can be sent: it is empty, names no
command, lacks an argument or has no number where one belongs, names no policy, or carries a
command with a fault. -/
def Errand.IsVain : Errand → Prop
  | nothing | unknown _ | misused _ | unknownPolicy _ => True
  | question q _ => ¬ q.command.Valid
  | reconnect | help | quit => False

/-- One of some lines has opened the connection anew. -/
def Reopened (client : Client) (lines : List Bytes) (s : Session) : Prop :=
  ∃ earlier line later, lines = earlier ++ line :: later ∧ errand line = .reconnect ∧
    ∃ s', Client.reconnect (follow client earlier s) = .ok () s'

/-- The complaint about a question on a connection that is down, and the prompt. -/
def lostText (endpoint : Endpoint) (reason : Breakdown) : Bytes :=
  Bytes.ascii "ERROR " ++ (Failure.broken endpoint reason).message ++ [10] ++
    (Bytes.ascii "connection lost, use RECONNECT" ++ [10]) ++ prompt

/-- What was said on the standard output since an earlier state of the session. -/
def saidSince (s earlier : Session) : Bytes := Utterance.on .output (shownSince s earlier)

/-- Nothing has changed but what was shown. -/
def OnlyShows (s s' : Session) : Prop := s'.network = s.network ∧ s'.connection = s.connection

/-- A session in which a text was said. -/
def said (b : Bytes) (s : Session) : Session := { s with shown := ⟨.output, b⟩ :: s.shown }

/-- A session in which a failure was said. -/
def lamented (failure : Failure) (s : Session) : Session :=
  let named := said (Bytes.ascii "ERROR " ++ failure.message ++ [10]) s
  if s.connection.link.state = .faulted then
    said (Bytes.ascii "connection lost, use RECONNECT" ++ [10]) named
  else named

variable {α : Type} {q : Question α} {client : Client} {line : Bytes} {lines : List Bytes}
variable {s s' : Session}

/-! ### One line -/

theorem sayFailure_eq (failure : Failure) (s : Session) :
    sayFailure failure s = .ok () (lamented failure s) := by
  unfold lamented
  change (if s.connection.link.state = .faulted then sayLine _ else pure ()) (said _ s) = _
  split <;> rfl

@[simp] theorem lamented_network (failure : Failure) (s : Session) :
    (lamented failure s).network = s.network := by
  unfold lamented
  dsimp only
  split <;> rfl

@[simp] theorem lamented_connection (failure : Failure) (s : Session) :
    (lamented failure s).connection = s.connection := by
  unfold lamented
  dsimp only
  split <;> rfl

/-- To obey a line ends as doing what it comes to does. -/
theorem ends_obey (hline : line.isEmpty = false) {done : Bool → Session → Prop}
    {failed : Failure → Session → Prop} :
    Ends (obey client line) s done failed ↔
      Ends ((errand line).carryOut client) s (fun _ s' => done (!quits line) s') failed := by
  rw [obey_eq hline, ends_bind]
  exact Iff.rfl

/-- A line is read and then obeyed, and a failure is said. -/
theorem ends_enter {done : Bool → Session → Prop} {failed : Failure → Session → Prop} :
    Ends (enter client line) s done failed ↔
      Ends ((errand line).carryOut client) s (fun _ s' => done (!quits line) s')
        fun failure s' => done true (lamented failure s') := by
  cases hline : line.isEmpty with
  | true =>
    obtain rfl := List.isEmpty_iff.1 hline
    exact Iff.rfl
  | false =>
    have henter : enter client line = _ := if_neg (ne_true_of_eq_false hline)
    rw [← ends_obey hline, henter]
    unfold Ends
    cases hobey : obey client line s with
    | ok goesOn s' =>
      dsimp only
      rw [hobey]
    | error failure s' =>
      dsimp only
      rw [hobey]
      dsimp only
      rw [sayFailure_eq]

/-- A line is read and obeyed, with what is said about a failure, and the prompt stands behind it
unless the line quits. -/
theorem ends_exchange {done : Bool → Session → Prop} {failed : Failure → Session → Prop} :
    Ends (exchange client line) s done failed ↔
      Ends ((errand line).carryOut client) s
        (fun _ s' => if quits line then done false s' else done true (said prompt s'))
        fun failure s' => done true (said prompt (lamented failure s')) := by
  unfold exchange
  rw [ends_bind, ends_enter]
  cases quits line <;> exact Iff.rfl

/-- Whatever fails, a line is answered, and there is a next one unless it quits. -/
theorem exchange_eq (client : Client) (line : Bytes) (s : Session) :
    exchange client line s = .ok (!quits line) (after (exchange client line) s) := by
  have hends : Ends (exchange client line) s (fun goesOn _ => goesOn = !quits line)
      fun _ _ => False := by
    rw [ends_exchange]
    cases hquits : quits line with
    | false =>
      unfold Ends
      split <;> rfl
    | true =>
      rw [errand_of_quits hquits]
      rfl
  obtain ⟨goesOn, s', heq, rfl⟩ := hends.exists_ok
  rw [after, heq]

/-- A conversation goes on to the first line that quits, or to the last, whatever fails. -/
theorem converse_eq (client : Client) (lines : List Bytes) (s : Session) :
    converse client lines s = .ok () (follow client (heard lines) s) := by
  induction lines generalizing s with
  | nil => rfl
  | cons line more ih =>
    have hstep : converse client (line :: more) s =
        (if quits line then pure () else converse client more)
          (after (exchange client line) s) := by
      change EStateM.bind _ _ s = _
      unfold EStateM.bind
      rw [exchange_eq]
      cases quits line <;> rfl
    rw [hstep]
    unfold heard
    cases quits line with
    | true => rfl
    | false => exact ih _

/-! ### Questions that fail at once -/

theorem OnlyShows.lamented (h : OnlyShows s s') (failure : Failure) :
    OnlyShows s (lamented failure s') :=
  ⟨(lamented_network _ _).trans h.1, (lamented_connection _ _).trans h.2⟩

/-- A session in which a command was called good before it was sent, if it is such a command. -/
def hastened (command : Command) (s : Session) : Session :=
  if isHasty command then said (Bytes.ascii "OK ") s else s

theorem onlyShows_hastened (command : Command) (s : Session) :
    OnlyShows s (hastened command s) := by
  unfold hastened
  split <;> exact ⟨rfl, rfl⟩

/-- A question that fails whatever was shown before, and changes nothing, shows nothing but that
it was called good, if it was. -/
theorem carryOut_question {failure : Failure}
    (hask : ∀ s', OnlyShows s s' → q.ask client s' = .error failure s') (wording : α → Bytes) :
    (Errand.question q wording).carryOut client s = .error failure (hastened q.command s) := by
  have hfails := hask _ (onlyShows_hastened q.command s)
  have hbind : (q.ask client >>= fun a => say (wording a)) (hastened q.command s) =
      .error failure (hastened q.command s) := by
    change EStateM.bind _ _ _ = _
    unfold EStateM.bind
    rw [hfails]
  unfold hastened at hbind ⊢
  change (if isHasty q.command = true then
      say (Bytes.ascii "OK ") >>= fun _ => q.ask client >>= fun a => say (wording a)
    else q.ask client >>= fun a => say (wording a)) s = _
  cases hhasty : isHasty q.command <;> rw [hhasty] at hbind <;> exact hbind

/-- A question that cannot be sent changes nothing. -/
theorem carryOut_of_check {fault : Command.Fault} (h : q.command.check = .error fault)
    (wording : α → Bytes) :
    (Errand.question q wording).carryOut client s =
      .error (.argument q.command.name fault) (hastened q.command s) :=
  carryOut_question (fun _ _ => Question.ask_of_check h) wording

/-- Nor does any question on a connection that is down and stays so. -/
theorem carryOut_of_down {reason : Breakdown} (hreconnects : client.reconnects ≤ 0)
    (hvalid : q.command.Valid) (hlink : s.connection.link = .down reason) (wording : α → Bytes) :
    (Errand.question q wording).carryOut client s =
      .error (.broken s.connection.endpoint reason) (hastened q.command s) := by
  refine carryOut_question (fun s' hshows => ?_) wording
  rw [← hshows.2] at hlink ⊢
  exact Question.ask_down hreconnects hvalid hlink

/-! ### Lines in vain -/

/-- A line that only shows something leaves it at that, with the failure and the prompt. -/
theorem onlyShows_exchange
    (h : Ends ((errand line).carryOut client) s (fun _ => OnlyShows s) fun _ => OnlyShows s) :
    OnlyShows s (after (exchange client line) s) := by
  refine Ends.after (ends_exchange.2 (h.mono ?_ fun failure s' hshows => ?_))
  · intro _ s' hshows
    split <;> exact hshows
  · exact hshows.lamented failure

/-- A line in vain makes no call on the network, and leaves the client as it is. -/
theorem exchange_of_isVain (h : (errand line).IsVain) :
    OnlyShows s (after (exchange client line) s) := by
  apply onlyShows_exchange
  cases herrand : errand line with
  | nothing | unknown | misused | unknownPolicy => exact ⟨rfl, rfl⟩
  | question q wording =>
    rw [herrand] at h
    cases hcheck : q.command.check with
    | ok u => exact absurd hcheck h
    | error fault =>
      unfold Ends
      rw [carryOut_of_check hcheck]
      exact onlyShows_hastened _ _
  | reconnect | help | quit =>
    rw [herrand] at h
    exact h.elim

/-! ### Lines on a connection that is down -/

/-- What was said since an earlier state of the session, if it was shown on top of it. -/
theorem saidSince_of_append (more : List Utterance) (h : s'.shown = more ++ s.shown) :
    saidSince s' s = Utterance.on .output more.reverse := by
  have hlength : s'.shown.length - s.shown.length = more.length := by
    rw [h, List.length_append, Nat.add_sub_cancel]
  unfold saidSince shownSince
  rw [hlength, h, List.take_left]

/-- What is said about a question on a connection that is down. -/
theorem saidSince_lost {reason : Breakdown} (hlink : s.connection.link = .down reason)
    (command : Command) :
    saidSince (said prompt (lamented (.broken s.connection.endpoint reason)
        (hastened command s))) s =
      (if isHasty command then Bytes.ascii "OK " else []) ++
        lostText s.connection.endpoint reason := by
  have hfaulted : (hastened command s).connection.link.state = .faulted := by
    rw [(onlyShows_hastened command s).2, hlink]
    rfl
  unfold lamented lostText
  rw [if_pos hfaulted]
  unfold hastened
  cases isHasty command with
  | false =>
    rw [saidSince_of_append [⟨.output, prompt⟩, ⟨.output, _⟩, ⟨.output, _⟩] rfl]
    simp [Utterance.on]
  | true =>
    rw [saidSince_of_append [⟨.output, prompt⟩, ⟨.output, _⟩, ⟨.output, _⟩, ⟨.output, _⟩] rfl]
    simp [Utterance.on]

/-- A question on a connection that is down and stays so makes no call on the network, and is met
with the complaint. -/
theorem exchange_of_down {reason : Breakdown} {wording : α → Bytes}
    (hreconnects : client.reconnects ≤ 0) (herrand : errand line = .question q wording)
    (hvalid : q.command.Valid) (hlink : s.connection.link = .down reason) :
    OnlyShows s (after (exchange client line) s) ∧
      saidSince (after (exchange client line) s) s =
        (if isHasty q.command then Bytes.ascii "OK " else []) ++
          lostText s.connection.endpoint reason := by
  have hend : Ends (exchange client line) s
      (fun _ s' => s' = said prompt (lamented (.broken s.connection.endpoint reason)
        (hastened q.command s))) fun _ _ => False := by
    rw [ends_exchange, herrand]
    unfold Ends
    rw [carryOut_of_down hreconnects hvalid hlink]
  have hafter := Ends.after (hend.mono (fun _ _ h => h) fun _ _ h => h.elim)
  rw [hafter]
  exact ⟨(onlyShows_hastened _ _).lamented _, saidSince_lost hlink _⟩

theorem exists_down_of_faulted (h : s.connection.link.state = .faulted) :
    ∃ reason, s.connection.link = .down reason := by
  cases hlink : s.connection.link with
  | down reason => exact ⟨reason, rfl⟩
  | idle | up =>
    rw [hlink] at h
    cases h

theorem ends_reconnect :
    Ends Client.reconnect s (fun _ s' => s'.connection.link.state = .connected) Broke := by
  unfold Client.reconnect Session.disconnect
  rw [ends_bind]
  exact Session.ends_connect

/-- A line leaves a connection down, unless it opens it anew. -/
theorem exchange_faulted (hreconnects : client.reconnects ≤ 0)
    (hdown : s.connection.link.state = .faulted)
    (hfails : errand line = .reconnect → ∀ s', Client.reconnect s ≠ .ok () s') :
    (after (exchange client line) s).connection.link.state = .faulted := by
  have hshows (h : Ends ((errand line).carryOut client) s (fun _ => OnlyShows s)
      fun _ => OnlyShows s) :
      (after (exchange client line) s).connection.link.state = .faulted := by
    rwa [(onlyShows_exchange h).2]
  cases herrand : errand line with
  | nothing | unknown | misused | unknownPolicy | help | quit =>
    exact hshows (by rw [herrand]; exact ⟨rfl, rfl⟩)
  | question q wording =>
    by_cases hvalid : q.command.Valid
    · obtain ⟨reason, hlink⟩ := exists_down_of_faulted hdown
      rwa [(exchange_of_down hreconnects herrand hvalid hlink).1.2]
    · have hvain : (errand line).IsVain := by rwa [herrand]
      rwa [(exchange_of_isVain hvain).2]
  | reconnect =>
    -- A new attempt that fails leaves the connection down, for a reason of its own.
    have hbroke : Ends Client.reconnect s (fun _ _ => False) Broke := by
      unfold Ends
      have hends := ends_reconnect (s := s)
      unfold Ends at hends
      cases hresult : Client.reconnect s with
      | ok u s' => exact hfails herrand s' hresult
      | error failure s' => rwa [hresult] at hends
    refine Ends.after (P := fun s' => s'.connection.link.state = .faulted) (ends_exchange.2 ?_)
    rw [herrand]
    refine Ends.bind (hbroke.mono (fun _ _ h => h) ?_) fun _ _ h => h.elim
    rintro failure s' ⟨reason, hlink, -⟩
    change (lamented failure s').connection.link.state = .faulted
    rw [lamented_connection, hlink]
    rfl

/-- Lines leave a connection down, unless one of them opens it anew. -/
theorem follow_of_down (hreconnects : client.reconnects ≤ 0)
    (hdown : s.connection.link.state = .faulted) (hnone : ¬ Reopened client lines s) :
    (follow client lines s).connection.link.state = .faulted := by
  induction lines generalizing s with
  | nil => exact hdown
  | cons line more ih =>
    apply ih
    · refine exchange_faulted hreconnects hdown fun herrand s' hopened => hnone ?_
      exact ⟨[], line, more, rfl, herrand, s', hopened⟩
    · rintro ⟨earlier, other, later, rfl, herrand, s', hopened⟩
      exact hnone ⟨line :: earlier, other, later, rfl, herrand, s', hopened⟩

/-! ### The program -/

/-- Once the first connection has succeeded, the program reads on to a line that quits or to the
end of its input, and ends without a failure; and of what it has read, a line in vain changes
nothing but what is shown. While a connection that broke may not be opened by itself and no line
has opened it anew, a question makes no call on the network; and it is met with the complaint and
nothing else, unless it is one of those that are called good before they are put. -/
theorem conversation_of_start {words : List Bytes} {readContents : Bytes → Option Bytes}
    {network : Network} {session : Session}
    (hstart : start words readContents network = .connected client session) :
    (∀ input,
      let left := (follow client (heard (Bytes.lines input)) session).hangUp
      run words readContents input network =
        { exit := 0, network := left.network, shown := left.shown.reverse }) ∧
    ∀ earlier,
      let s := follow client earlier session
      (∀ line, (errand line).IsVain → OnlyShows s (after (exchange client line) s)) ∧
      (client.reconnects ≤ 0 → s.connection.link.state = .faulted →
        ∀ later, ¬ Reopened client later s →
          let t := follow client later s
          ∃ reason, t.connection.link = .down reason ∧
            ∀ {α : Type} (line : Bytes) (q : Question α) (wording : α → Bytes),
              errand line = .question q wording → q.command.Valid →
              let t' := after (exchange client line) t
              OnlyShows t t' ∧
                (saidSince t' t = lostText t.connection.endpoint reason ↔
                  isHasty q.command = false) ∧
                (isHasty q.command = true →
                  saidSince t' t =
                    Bytes.ascii "OK " ++ lostText t.connection.endpoint reason)) := by
  refine ⟨fun input => ?_, fun earlier => ⟨fun line => exchange_of_isVain, ?_⟩⟩
  · unfold run
    rw [hstart]
    dsimp only
    rw [converse_eq]
  · intro hreconnects hdown later hnone
    obtain ⟨reason, hlink⟩ := exists_down_of_faulted (follow_of_down hreconnects hdown hnone)
    refine ⟨reason, hlink, fun line q wording herrand hvalid => ?_⟩
    obtain ⟨hshows, hsaid⟩ := exchange_of_down hreconnects herrand hvalid hlink
    refine ⟨hshows, ?_, fun hhasty => ?_⟩
    · rw [hsaid, List.append_left_eq_self]
      cases isHasty q.command <;> simp [Bytes.ascii]
    · rw [hsaid, if_pos hhasty]

/-- The peer greets the program, and closes. -/
def oneGreeting : Network := { attempts := [{ arrivals := some [⟨[], .segment [33]⟩] }] }

/-- It comes to light over the first question. -/
theorem follow_oneGreeting :
    ∃ session, start [] (fun _ => none) oneGreeting = .connected {} session ∧
      (follow {} [Bytes.ascii "GET k"] session).connection.link = .down .closed :=
  ⟨_, rfl, by decide +kernel⟩

/-- The peer closes once the program is connected. After the first question, another one is met
with the complaint, and nothing is tried. -/
theorem conversation_of_start_closed :
    ∃ client session, start [] (fun _ => none) oneGreeting = .connected client session ∧
      (∀ input, (run [] (fun _ => none) input oneGreeting).exit = 0) ∧
      let s := follow client [Bytes.ascii "GET k"] session
      let s' := after (exchange client (Bytes.ascii "get k")) s
      OnlyShows s s' ∧ saidSince s' s = lostText s.connection.endpoint .closed := by
  obtain ⟨session, hstart, hdown⟩ := follow_oneGreeting
  obtain ⟨hrun, hconversation⟩ := conversation_of_start hstart
  refine ⟨{}, session, hstart, fun input => by rw [hrun input], ?_⟩
  obtain ⟨reason, hlink, hquestions⟩ := (hconversation [Bytes.ascii "GET k"]).2 (le_refl 0)
    (by rw [hdown]; rfl) [] fun ⟨_, _, _, hnil, _⟩ => by simp at hnil
  obtain rfl : .closed = reason := Link.down.inj (hdown.symm.trans hlink)
  obtain ⟨hshows, hsaid, -⟩ := hquestions (Bytes.ascii "get k") (.get [107]) foundText rfl rfl
  exact ⟨hshows, hsaid.2 rfl⟩

/-- A question that is called good before it is put is not met with the complaint alone. -/
theorem follow_ping_not_lostText :
    ∃ client session, start [] (fun _ => none) oneGreeting = .connected client session ∧
      client.reconnects ≤ 0 ∧
      let s := follow client [Bytes.ascii "GET k"] session
      let text := saidSince (after (exchange client (Bytes.ascii "PING")) s) s
      s.connection.link = .down .closed ∧
        text = Bytes.ascii "OK " ++ lostText s.connection.endpoint .closed ∧
        text ≠ lostText s.connection.endpoint .closed := by
  obtain ⟨session, hstart, hdown⟩ := follow_oneGreeting
  have herrand : errand (Bytes.ascii "PING") = .question .ping fun text => text ++ [10] := rfl
  have htext := (exchange_of_down (le_refl 0) herrand rfl hdown).2
  refine ⟨{}, session, hstart, le_refl 0, hdown, htext, ?_⟩
  rw [htext, Ne, List.append_left_eq_self]
  simp [isHasty, Question.command, Bytes.ascii]

end RemoteCache.Console
