import RemoteCache.Proofs.Client.Verdicts
import RemoteCache.Proofs.Session.Pairing

/-!
# What a reply tells a program

A reply is read by the shape that its command calls for, and what a program is told is taken from
the payload that this shape has. So a payload never turns out to be of the wrong kind: a program is
told what the payload says, that a key is not there, or why its command was refused.

Five questions take it for an answer that a key is not there, and it is the cache that says so. A
server's refusal may carry the same code, and is never taken for that.

## Main definitions

* `Client.Question.Reports` — what a question is answered with by a payload
* `Client.Question.Lacks` — what a question is answered with when its key is not there
* `Client.Question.Tells` — what a program is told by a reply
* `Client.Returned` — a reply that was read in return for a command

## Main results

* `Client.Question.tells_answer` — a reply of the right shape tells a program what it says
* `Client.ends_execute_returned` — every response was read in return for the command
* `Client.Question.ask_tells` — no payload is foreign, and every reply is told as it was read
-/

namespace RemoteCache.Client

open Session Wire

variable {α : Type} {client : Client} {command : Command} {s : Session}

namespace Question

/-! ### What a reply says -/

/-- What a question is answered with by a payload. -/
inductive Reports : {α : Type} → Question α → Payload → α → Prop
  | ping (data : Bytes) : Reports .ping (.value data) data
  | version (data : Bytes) : Reports .version (.value data) data
  | get (key data : Bytes) : Reports (.get key) (.value data) (some data)
  | peek (key data : Bytes) : Reports (.peek key) (.value data) (some data)
  | set (key value : Bytes) (ttl : Option Int) : Reports (.set key value ttl) .ack ()
  | del (key : Bytes) : Reports (.del key) .ack true
  | has (key : Bytes) (isSet : Bool) : Reports (.has key) (.flag isSet) isSet
  | lasting (key : Bytes) : Reports (.ttl key) (.expiry 0) none
  | expiring (key : Bytes) {seconds : Int} (h : seconds ≠ 0) :
    Reports (.ttl key) (.expiry seconds) (some seconds)
  | setTtl (key : Bytes) (ttl : Option Int) : Reports (.setTtl key ttl) .ack ()
  | valueSize (key : Bytes) (bytes : UInt32) : Reports (.valueSize key) (.size bytes) (some bytes)
  | status (report : Status) : Reports .status (.status report) report
  | size (report : Status) : Reports .size (.status report)
    ⟨report.maxSize, report.usedSize, report.numObjects⟩
  | policy (report : Status) : Reports .policy (.status report)
    ⟨report.policy, report.policies, report.isAutoPolicy⟩
  | setPolicy (policy : Policy) : Reports (.setPolicy policy) .ack ()
  | resize (capacity : Int) : Reports (.resize capacity) .ack ()
  | wipe : Reports .wipe .ack ()

/-- What a question is answered with when its key is not there, if that is an answer to it. -/
inductive Lacks : {α : Type} → Question α → α → Prop
  | get (key : Bytes) : Lacks (.get key) none
  | peek (key : Bytes) : Lacks (.peek key) none
  | del (key : Bytes) : Lacks (.del key) false
  | ttl (key : Bytes) : Lacks (.ttl key) none
  | valueSize (key : Bytes) : Lacks (.valueSize key) none

/-- What a program is told by a reply: what the payload says, that its key is not there, or why its
command was refused. -/
inductive Tells (q : Question α) : Response → Except Failure α → Prop
  | reports {payload : Payload} {a : α} (h : q.Reports payload a) : Tells q (.ok payload) (.ok a)
  | lacks {refusal : Refusal} {a : α} (h : q.Lacks a) (horigin : refusal.origin = .cache)
    (hcode : refusal.code = 1) : Tells q (.refused refusal) (.ok a)
  | refuses {refusal : Refusal}
    (h : ∀ a, q.Lacks a → ¬(refusal.origin = .cache ∧ refusal.code = 1)) :
    Tells q (.refused refusal) (.error (.refused q.command.name refusal))

theorem reports_answerOk {q : Question α} {payload : Payload}
    (h : payload.shape = q.command.shape) :
    ∃ a, q.Reports payload a ∧ q.answerOk payload = .ok a := by
  cases q with
  | ttl key =>
    cases payload with
    | expiry seconds =>
      by_cases hlasting : seconds = 0
      · subst hlasting
        exact ⟨none, .lasting key, rfl⟩
      · exact ⟨some seconds, .expiring key hlasting, by simp [answerOk, hlasting]⟩
    | _ => cases h
  | _ => cases payload <;> first | exact ⟨_, by constructor, rfl⟩ | cases h

theorem lacks_iff {q : Question α} {a : α} : q.Lacks a ↔ q.absence = some a := by
  constructor
  · intro h
    cases h <;> rfl
  · intro h
    cases q <;> cases h <;> constructor

/-- A refusal is the cache's for a key that is not there if origin and code say so. -/
theorem isCache_keyNotFound_iff (refusal : Refusal) :
    refusal.isCache .keyNotFound = true ↔ refusal.origin = .cache ∧ refusal.code = 1 := by
  simp [Refusal.isCache, CacheCode.byte]

/-- A reply of the right shape tells a program what it says. -/
theorem tells_answer {q : Question α} {r : Response} (h : r.HasShape q.command.shape) :
    q.Tells r (q.answer r) := by
  cases r with
  | ok payload =>
    obtain ⟨a, hreports, hanswer⟩ := reports_answerOk h
    rw [show q.answer (.ok payload) = .ok a from hanswer]
    exact .reports hreports
  | refused refusal =>
    change q.Tells _ (q.answerRefused refusal)
    unfold answerRefused
    cases habsence : q.absence with
    | none =>
      refine .refuses fun a hlacks => ?_
      rw [lacks_iff, habsence] at hlacks
      cases hlacks
    | some a =>
      dsimp only
      split
      · rename_i hmissing
        obtain ⟨horigin, hcode⟩ := (isCache_keyNotFound_iff refusal).1 hmissing
        exact .lacks (lacks_iff.2 habsence) horigin hcode
      · rename_i hother
        exact .refuses fun _ _ hmissing => hother ((isCache_keyNotFound_iff refusal).2 hmissing)

theorem Reports.answerOk_eq {q : Question α} {payload : Payload} {a : α}
    (h : q.Reports payload a) : q.answerOk payload = .ok a := by
  cases h with
  | expiring key h => exact congrArg Except.ok (if_neg h)
  | _ => rfl

theorem Reports.unique {q : Question α} {payload : Payload} {a b : α} (h : q.Reports payload a)
    (h' : q.Reports payload b) : a = b :=
  Except.ok.inj (h.answerOk_eq.symm.trans h'.answerOk_eq)

theorem Lacks.unique {q : Question α} {a b : α} (h : q.Lacks a) (h' : q.Lacks b) : a = b :=
  Option.some.inj ((lacks_iff.1 h).symm.trans (lacks_iff.1 h'))

/-- No reply tells a program two things. -/
theorem Tells.unique {q : Question α} {r : Response} {told told' : Except Failure α}
    (h : q.Tells r told) (h' : q.Tells r told') : told = told' := by
  cases h with
  | reports h =>
    cases h' with
    | reports h' => rw [h.unique h']
  | lacks h horigin hcode =>
    cases h' with
    | lacks h' => rw [h.unique h']
    | refuses h' => exact absurd ⟨horigin, hcode⟩ (h' _ h)
  | refuses h =>
    cases h' with
    | lacks h' horigin hcode => exact absurd ⟨horigin, hcode⟩ (h _ h')
    | refuses h' => rfl

theorem Tells.ne_foreignPayload {q : Question α} {r : Response} {operation : Bytes} :
    ¬q.Tells r (.error (.foreignPayload operation)) := by
  intro h
  cases h

end Question

/-! ### What is heard -/

/-- A reply that was read in return for a command, over the socket that the command was written to
and from its first byte on. -/
def Returned (command : Command) (r : Response) (s' : Session) : Prop :=
  ∃ s, Answers command s r s'

theorem Returned.hasShape {r : Response} {s' : Session} (h : Returned command r s') :
    r.HasShape command.shape :=
  h.elim fun _ hanswers => hanswers.hasShape

theorem ends_roundTrip_returned (hvalid : command.Valid) (s : Session) :
    Ends (roundTrip command) s (Returned command) fun _ _ => True := by
  cases hlink : s.connection.link with
  | up socket pending =>
    refine (ends_roundTrip hvalid ?_).mono (fun r s' h => ⟨s, h⟩) fun _ _ _ => trivial
    rw [hlink]
    rfl
  | idle => exact (ends_roundTrip_idle hlink).2 trivial
  | down reason => exact (ends_roundTrip_down hlink).2 trivial

theorem ends_attempt_returned (hvalid : command.Valid) (isRepeated : Bool) (s : Session) :
    Ends (attempt command isRepeated) s (Returned command) fun _ _ => True := by
  have hconnected : Ends Session.connect s (fun _ _ => True) fun _ _ => True :=
    Session.ends_connect.mono (fun _ _ _ => trivial) fun _ _ _ => trivial
  have hconnect : Ends (Session.connect >>= fun _ => roundTrip command) s (Returned command)
      fun _ _ => True :=
    hconnected.bind fun _ s' _ => ends_roundTrip_returned hvalid s'
  unfold attempt
  rw [ends_get]
  cases s.connection.link with
  | up socket pending => exact ends_roundTrip_returned hvalid s
  | idle => exact hconnect
  | down reason =>
    cases isRepeated with
    | true => exact hconnect
    | false => exact ends_roundTrip_returned hvalid s

/-- Every response was read in return for the command, however often that is repeated. -/
theorem ends_execute_returned (hvalid : command.Valid) (s : Session) :
    Ends (client.execute command) s (Returned command) fun _ _ => True := by
  rw [execute_eq hvalid]
  generalize client.reconnects.toNat = left
  generalize false = isRepeated
  -- By induction on the attempts that are left: the last one decides.
  induction left generalizing s isRepeated with
  | zero => exact ends_attempt_returned hvalid isRepeated s
  | succ left ih =>
    refine ends_attempts_succ.2
      ((ends_attempt_returned hvalid isRepeated s).mono (fun _ _ h => h) ?_)
    intro failure s' _
    split
    · exact ih _ true
    · trivial

/-! ### Frames -/

theorem isFrame_ofCache (shape : Shape) (code : UInt8) :
    Reply.IsFrame shape (.refused (.ofCode .cache code)) [0x3F, 0, code] := by
  have hannounced : Refusal.Announced ⟨.cache, code, []⟩ := by
    rintro ⟨hserver, -⟩
    cases hserver
  exact (Reply.reads_encodeRefusal hannounced).start []

theorem isFrame_ofServer (shape : Shape) {code : UInt8} (h : code ≠ 0) :
    Reply.IsFrame shape (.refused (.ofCode .server code)) [0x3F, code] := by
  have hannounced : Refusal.Announced ⟨.server, code, []⟩ := fun hzero => h hzero.2
  exact (Reply.reads_encodeRefusal hannounced).start []

/-- A command that is answered at once needs no other attempt. -/
theorem execute_of_roundTrip {socket : Socket} {pending : Bytes} {r : Response} {s' : Session}
    (hvalid : command.Valid) (hlink : s.connection.link = .up socket pending)
    (h : roundTrip command s = .ok r s') : client.execute command s = .ok r s' := by
  have hattempt : attempt command false s = .ok r s' := by
    unfold attempt
    rw [get_bind, hlink]
    exact h
  rw [execute_eq hvalid]
  cases client.reconnects.toNat with
  | zero => exact hattempt
  | succ left =>
    rw [attempts]
    dsimp only
    rw [hattempt]

/-! ### What a program is told -/

namespace Question

/-- The end of a call by which a program is told something. -/
def endOf (told : Except Failure α) (s' : Session) : EStateM.Result Failure Session α :=
  match told with
  | .ok a => .ok a s'
  | .error failure => .error failure s'

/-- A program is told what the reply to its question says. -/
theorem ask_of_execute {q : Question α} {r : Response} {s' : Session}
    (hvalid : q.command.Valid) (hexecute : client.execute q.command s = .ok r s') :
    ∃ told, q.Tells r told ∧ q.ask client s = endOf told s' := by
  have hreturned := (ends_execute_returned hvalid s).of_eq_ok hexecute
  refine ⟨_, tells_answer hreturned.hasShape, ?_⟩
  rw [q.ask_apply, hexecute]
  change tell (q.answer r) s' = _
  cases q.answer r <;> rfl

/-- No question fails because a payload is of the wrong kind. -/
theorem ask_ne_foreignPayload (q : Question α) (hvalid : q.command.Valid) (client : Client)
    (s s' : Session) (operation : Bytes) :
    q.ask client s ≠ .error (.foreignPayload operation) s' := by
  intro hforeign
  cases hexecute : client.execute q.command s with
  | ok r heard =>
    obtain ⟨told, htells, hask⟩ := ask_of_execute hvalid hexecute
    cases told with
    | ok a => cases hask.symm.trans hforeign
    | error failure =>
      cases hask.symm.trans hforeign
      exact htells.ne_foreignPayload
  | error failure broken =>
    rw [q.ask_apply, hexecute] at hforeign
    cases hforeign
    have hunusable : Ends (client.execute q.command) s _ _ := ends_execute hvalid
    unfold Ends at hunusable
    rw [hexecute] at hunusable
    rcases hunusable with ⟨reason, -, hreason⟩ | ⟨endpoint, reason, -, hbroken⟩
    · cases reason <;> cases hreason
    · cases hbroken

/-- A question whose command can be sent never fails because the payload of its reply is of the
wrong kind. If a reply was read, it was read in return for the command, and the program is told what
it says and nothing else; and a frame that comes in return is read, in whatever pieces it comes. In
the two sorts of frames that refuse a command, the code is the cache's or the server's. -/
theorem ask_tells (q : Question α) (hvalid : q.command.Valid) (client : Client) (s : Session) :
    (∀ operation s', q.ask client s ≠ .error (.foreignPayload operation) s') ∧
    (∀ r s', client.execute q.command s = .ok r s' → Returned q.command r s' ∧
      ∃ told, (∀ told', q.Tells r told' ↔ told' = told) ∧ q.ask client s = endOf told s') ∧
    (∀ {r : Response} {socket socket' : Socket} {extra : Bytes},
      s.connection.link = .up socket [] →
      Exchange.Passes s.connection.timeout ⟨q.command, r⟩ extra socket socket' →
      ∃ told s', q.Tells r told ∧ q.ask client s = endOf told s' ∧
        s'.connection.link = .up socket' extra) ∧
    ∀ code, Reply.IsFrame q.command.shape (.refused (.ofCode .cache code)) [0x3F, 0, code] ∧
      (code ≠ 0 →
        Reply.IsFrame q.command.shape (.refused (.ofCode .server code)) [0x3F, code]) := by
  refine ⟨fun operation s' => q.ask_ne_foreignPayload hvalid client s s' operation, ?_, ?_, ?_⟩
  · intro r s' hexecute
    have hreturned := (ends_execute_returned hvalid s).of_eq_ok hexecute
    obtain ⟨told, htells, hask⟩ := ask_of_execute hvalid hexecute
    exact ⟨hreturned, told, fun told' => ⟨fun h => h.unique htells, fun h => h ▸ htells⟩, hask⟩
  · intro r socket socket' extra hlink hpasses
    obtain ⟨s', hcall, hconnection⟩ := roundTrip_of_passes hlink hpasses
    have hexecute : client.execute q.command s = .ok r s' := execute_of_roundTrip hvalid hlink hcall
    obtain ⟨told, htells, hask⟩ := ask_of_execute hvalid hexecute
    exact ⟨told, s', htells, hask, congrArg Connection.link hconnection⟩
  · exact fun code => ⟨isFrame_ofCache _ code, isFrame_ofServer _⟩

/-- The codes of a cache that lacks the key and of a server with a fault of its own are the same:
of the former a program is told that there is no value, of the latter that its command was
refused. -/
theorem ask_tells_one :
    ∃ s t s' t' : Session, (Question.get [107]).ask {} s = .ok none s' ∧
      (Question.get [107]).ask {} t =
        .error (.refused (Bytes.ascii "GET") (.ofServer .internal)) t' := by
  let talking (arrivals : Script Arrival) : Session :=
    { connection := { endpoint := {}, link := .up ⟨3, arrivals ++ [], [], false⟩ [] } }
  let q : Question (Option Bytes) := .get [107]
  have hvalid : q.command.Valid := by decide
  have hpasses {r : Response} {frame : Bytes} {arrivals : Script Arrival}
      (hframe : Reply.IsFrame q.command.shape r frame) (hbrings : Script.Brings frame [] arrivals) :
      Exchange.Passes 0 ⟨q.command, r⟩ [] ⟨3, arrivals ++ [], [], false⟩ ⟨3, [], [], false⟩ :=
    .mk hvalid (.dry _) hframe hbrings fun hpos => absurd hpos (lt_irrefl 0)
  have hcache : Script.Brings [0x3F, 0, 1] []
      [⟨[], .segment [0x3F, 0]⟩, ⟨[], .failed .interrupted⟩, ⟨[], .segment [1]⟩] :=
    .segment [] (b := [0x3F, 0]) (by decide) (.signal [] (.last [] (b := [1]) (by decide) []))
  have hserver : Script.Brings [0x3F, 1] [] [⟨[], .segment [0x3F, 1]⟩] :=
    .last [] (b := [0x3F, 1]) (by decide) []
  obtain ⟨-, -, hread, hframes⟩ := q.ask_tells hvalid {} (talking _)
  obtain ⟨-, -, hread', -⟩ := q.ask_tells hvalid {} (talking _)
  obtain ⟨told, s', htells, hask, -⟩ := hread rfl (hpasses (hframes 1).1 hcache)
  obtain ⟨told', t', htells', hask', -⟩ :=
    hread' rfl (hpasses ((hframes 1).2 (by decide)) hserver)
  obtain rfl : told = .ok none := htells.unique (.lacks (.get _) rfl rfl)
  obtain rfl : told' = .error (.refused (Bytes.ascii "GET") (.ofServer .internal)) :=
    htells'.unique (.refuses fun _ _ h => nomatch h.1)
  exact ⟨_, _, s', t', hask, hask'⟩

end Question

end RemoteCache.Client
