import Mathlib.Logic.ExistsUnique
import RemoteCache.Proofs.Client.Questions
import RemoteCache.Proofs.Session.Outcomes

/-!
# How the calls of a program end

A call on a client ends in one of five ways, and the way tells what became of the connection. It
is up after an answer and after a refusal of the command; it is down after a refused greeting and
after any fault of the transport; and a command that cannot be sent leaves everything as it was.
Repetitions do not blur this: each of them starts from a connection that the one before left down.

## Main definitions

* `Client.Unusable` — a failure that leaves the connection down
* `Client.Verdict` — the five ways in which a call ends
* `Client.Verdict.Holds` — a call that ended in this way

## Main results

* `Client.ends_attempt`, `Client.ends_attempts`, `Client.ends_execute` — a command is answered on a
  connection that is up, or fails on one that is down, however often it is repeated
* `Client.existsUnique_verdict` — every call ends in exactly one of the five ways
-/

namespace RemoteCache.Client

open Session

variable {client : Client} {command : Command} {s : Session}

/-- A failure that leaves the connection down: for the reason that it broke for during the call,
or because it was down before. -/
def Unusable (failure : Failure) (s : Session) : Prop :=
  Broke failure s ∨
    ∃ endpoint reason, s.connection.link = .down reason ∧ failure = .broken endpoint reason

/-- A response that can answer the command, on a connection that is up. -/
def Answered (command : Command) (r : Response) (s : Session) : Prop :=
  s.connection.link.state = .connected ∧ r.HasShape command.shape

/-! ### Attempts -/

/-- A command on a connection that is up. -/
theorem ends_roundTrip_answered (hvalid : command.Valid)
    (hup : s.connection.link.state = .connected) :
    Ends (roundTrip command) s (Answered command) Unusable :=
  (ends_roundTrip hvalid hup).mono (fun _ _ h => ⟨h.connected, h.hasShape⟩)
    fun _ _ hbroke => .inl hbroke

/-- A command on a connection that is opened for it. -/
theorem ends_connect_roundTrip (hvalid : command.Valid) :
    Ends (Session.connect >>= fun _ => roundTrip command) s (Answered command) Unusable :=
  (Session.ends_connect.mono (fun _ _ hup => hup) fun _ _ hbroke => .inl hbroke).bind
    fun _ _ hup => ends_roundTrip_answered hvalid hup

theorem ends_attempt (hvalid : command.Valid) (isRepeated : Bool) :
    Ends (attempt command isRepeated) s (Answered command) Unusable := by
  unfold attempt
  rw [ends_get]
  cases hlink : s.connection.link with
  | up socket pending =>
    apply ends_roundTrip_answered hvalid
    rw [hlink]
    rfl
  | idle => exact ends_connect_roundTrip hvalid
  | down reason =>
    cases isRepeated with
    | true => exact ends_connect_roundTrip hvalid
    | false =>
      -- The first attempt finds the connection down, and leaves it so.
      exact (ends_roundTrip_down hlink).2 (.inr ⟨_, reason, hlink, rfl⟩)

/-- An attempt may be followed by others, if it failed and left the connection down. -/
theorem ends_attempts_succ {isRepeated : Bool} {left : Nat} {done : Response → Session → Prop}
    {failed : Failure → Session → Prop} :
    Ends (client.attempts command isRepeated (left + 1)) s done failed ↔
      Ends (attempt command isRepeated) s done fun failure s' =>
        if isRepeatable failure s'.connection.link then
          Ends (client.attempts command true left)
            (s'.addNote .warn (retryNote command failure (client.reconnects - left)
              client.reconnects)) done failed
        else failed failure s' := by
  unfold Ends
  rw [attempts]
  dsimp only
  cases attempt command isRepeated s with
  | ok r s' => exact Iff.rfl
  | error failure s' =>
    dsimp only
    by_cases hrepeat : isRepeatable failure s'.connection.link = true
    · rw [if_pos hrepeat, if_pos hrepeat]
    · rw [if_neg hrepeat, if_neg hrepeat]

/-- However many attempts there are, the last one decides. -/
theorem ends_attempts (hvalid : command.Valid) (left : Nat) (isRepeated : Bool) :
    Ends (client.attempts command isRepeated left) s (Answered command) Unusable := by
  induction left generalizing s isRepeated with
  | zero => exact ends_attempt hvalid isRepeated
  | succ left ih =>
    refine ends_attempts_succ.2 ((ends_attempt hvalid isRepeated).mono (fun _ _ h => h) ?_)
    intro failure s' hfailed
    split
    · exact ih true
    · exact hfailed

/-- A command that can be sent is tried once, and then as often as the client may connect again. -/
theorem execute_eq (hvalid : command.Valid) :
    client.execute command = client.attempts command false client.reconnects.toNat := by
  unfold execute
  rw [show command.check = .ok () from hvalid]

theorem ends_execute (hvalid : command.Valid) :
    Ends (client.execute command) s (Answered command) Unusable := by
  rw [execute_eq hvalid]
  exact ends_attempts hvalid _ false

/-- A command that cannot be sent fails at once, and leaves everything as it was. -/
theorem execute_of_check {fault : Command.Fault} (h : command.check = .error fault) :
    client.execute command s = .error (.argument command.name fault) s := by
  unfold execute
  rw [h]
  rfl

/-- Without repetitions a connection that is down stays as it is. -/
theorem execute_down {reason : Breakdown} (hreconnects : client.reconnects ≤ 0)
    (hvalid : command.Valid) (hlink : s.connection.link = .down reason) :
    client.execute command s = .error (.broken s.connection.endpoint reason) s := by
  have hnone : client.reconnects.toNat = 0 := Int.toNat_of_nonpos hreconnects
  have hend : Ends (roundTrip command) s (fun _ _ => False)
      (fun failure s' => failure = .broken s.connection.endpoint reason ∧ s' = s) :=
    (ends_roundTrip_down hlink).2 ⟨rfl, rfl⟩
  apply Ends.eq_error
  rw [execute_eq hvalid, hnone]
  change Ends (attempt command false) s _ _
  unfold attempt
  rw [ends_get, hlink]
  exact hend

/-! ### Verdicts -/

/-- The ways in which a call of a program ends. -/
inductive Verdict
  | answered
  /-- The command cannot be sent. -/
  | misasked
  /-- The peer refused the command. -/
  | refused
  /-- The peer refused the connection. -/
  | rejected
  /-- The connection broke, or was broken before. -/
  | broken
deriving DecidableEq

/-- The operation in the name of which a greeting is refused. -/
def connectName : Bytes := Bytes.ascii "CONNECT"

/-- A call that started from one session and ended in this way. -/
def Verdict.Holds {α : Type} (before : Session) : Verdict → EStateM.Result Failure Session α → Prop
  | .answered, .ok _ s => s.connection.link.state = .connected
  | .misasked, .error failure s => failure.kind = .argument ∧ s = before
  | .refused, .error (.refused operation _) s =>
    operation ≠ connectName ∧ s.connection.link.state = .connected
  | .rejected, .error (.refused operation refusal) s =>
    operation = connectName ∧ s.connection.link = .down (.rejected refusal)
  | .broken, .error failure s =>
    (failure.kind = .connection ∨ failure.kind = .codec ∨ failure.kind = .timeout) ∧
      s.connection.link.state = .faulted
  | _, _ => False

/-- No call ends in two ways. -/
theorem Verdict.Holds.unique {α : Type} {before : Session} {v w : Verdict}
    {result : EStateM.Result Failure Session α} (hv : v.Holds before result)
    (hw : w.Holds before result) : v = w := by
  cases result with
  | ok a s => cases v <;> cases w <;> first | rfl | cases hv | cases hw
  | error failure s =>
    cases failure <;> cases v <;> cases w <;> simp_all [Verdict.Holds, Failure.kind]

/-- A failure that leaves the connection down has a verdict, whatever was before. -/
theorem Unusable.exists_verdict {α : Type} {failure : Failure} {before : Session}
    (h : Unusable failure s) :
    ∃ v : Verdict, v.Holds before (.error failure s : EStateM.Result Failure Session α) := by
  have hfaulted {reason : Breakdown} (hlink : s.connection.link = .down reason) :
      s.connection.link.state = .faulted := by
    rw [hlink]
    rfl
  rcases h with ⟨reason, hlink, rfl⟩ | ⟨endpoint, reason, hlink, rfl⟩
  · cases reason with
    | rejected refusal => exact ⟨.rejected, rfl, hlink⟩
    | _ =>
      refine ⟨.broken, ?_, hfaulted hlink⟩
      simp [Breakdown.failure, Failure.kind, Failure.kindOfBreakdown]
  · exact ⟨.broken, .inl rfl, hfaulted hlink⟩

theorem exists_verdict_of_ends {α : Type} {a : Action α}
    (h : Ends a s (fun _ s' => s'.connection.link.state = .connected) fun failure s' =>
      Unusable failure s' ∨ Verdict.refused.Holds s (.error failure s' : EStateM.Result _ _ α)) :
    ∃ v : Verdict, v.Holds s (a s) := by
  unfold Ends at h
  split at h
  · rename_i x s' heq
    rw [heq]
    exact ⟨.answered, h⟩
  · rename_i failure s' heq
    rw [heq]
    rcases h with hunusable | hrefused
    · exact hunusable.exists_verdict
    · exact ⟨.refused, hrefused⟩

/-- No command is called like the opening of a connection. -/
theorem name_ne_connectName (c : Command) : c.name ≠ connectName := by
  cases c <;> simp [Command.name, connectName, Bytes.ascii]

namespace Question

variable {α : Type} {q : Question α}

theorem ask_of_check {fault : Command.Fault} (h : q.command.check = .error fault) :
    q.ask client s = .error (.argument q.command.name fault) s := by
  rw [q.ask_apply, execute_of_check h]

theorem ask_down {reason : Breakdown} (hreconnects : client.reconnects ≤ 0)
    (hvalid : q.command.Valid) (hlink : s.connection.link = .down reason) :
    q.ask client s = .error (.broken s.connection.endpoint reason) s := by
  rw [q.ask_apply, execute_down hreconnects hvalid hlink]

/-- A question whose command can be sent is answered or refused on a connection that is up, or
fails on one that is down. -/
theorem exists_verdict_of_valid (hvalid : q.command.Valid) :
    ∃ v : Verdict, v.Holds s (q.ask client s) := by
  apply exists_verdict_of_ends
  rw [q.ask_eq]
  refine ((ends_execute hvalid).mono (fun _ _ h => h) fun _ _ h => .inl h).bind ?_
  rintro r s' ⟨hup, hshape⟩
  rcases answer_of_hasShape hshape with ⟨a, htold⟩ | ⟨refusal, -, htold⟩
  · rw [htold]
    exact hup
  · rw [htold]
    exact Or.inr ⟨name_ne_connectName _, hup⟩

theorem exists_verdict (q : Question α) : ∃ v : Verdict, v.Holds s (q.ask client s) := by
  cases hcheck : q.command.check with
  | ok u => exact exists_verdict_of_valid hcheck
  | error fault =>
    rw [ask_of_check hcheck]
    exact ⟨.misasked, rfl, rfl⟩

end Question

theorem exists_verdict_connect : ∃ v : Verdict, v.Holds s (Client.connect s) :=
  exists_verdict_of_ends (Session.ends_connect.mono (fun _ _ hup => hup)
    fun _ _ hbroke => .inl (.inl hbroke))

theorem exists_verdict_reconnect : ∃ v : Verdict, v.Holds s (Client.reconnect s) := by
  apply exists_verdict_of_ends
  unfold reconnect Session.disconnect
  rw [ends_bind]
  exact Session.ends_connect.mono (fun _ _ hup => hup) fun _ _ hbroke => .inl (.inl hbroke)

/-- Whatever state a client and the world around it are in, every call ends in exactly one of the
five ways. A command that cannot be sent changes nothing, in whichever state the connection is;
and a client that may not connect again changes nothing while its connection is down. -/
theorem existsUnique_verdict (client : Client) (s : Session) :
    (∃! v : Verdict, v.Holds s (Client.connect s)) ∧
    (∃! v : Verdict, v.Holds s (Client.reconnect s)) ∧
    ∀ {α : Type} (q : Question α),
      (∃! v : Verdict, v.Holds s (q.ask client s)) ∧
      (∀ fault, q.command.check = .error fault →
        q.ask client s = .error (.argument q.command.name fault) s) ∧
      ∀ reason, client.reconnects ≤ 0 → q.command.Valid → s.connection.link = .down reason →
        q.ask client s = .error (.broken s.connection.endpoint reason) s := by
  have hunique {α : Type} {a : Action α} (h : ∃ v : Verdict, v.Holds s (a s)) :
      ∃! v : Verdict, v.Holds s (a s) := by
    obtain ⟨v, hv⟩ := h
    exact ⟨v, hv, fun w hw => hw.unique hv⟩
  refine ⟨hunique exists_verdict_connect, hunique exists_verdict_reconnect, fun q => ?_⟩
  exact ⟨hunique q.exists_verdict, fun _ => Question.ask_of_check,
    fun _ => Question.ask_down⟩

/-- A client whose greeting was refused and that may not connect again: asked for an empty key and
for another one, it stays as it is. -/
theorem existsUnique_verdict_rejected :
    ∃ s : Session, s.connection.link.state = .faulted ∧
      (∃! v : Verdict, v.Holds s ((Question.get [107]).ask {} s)) ∧
      (Question.get []).ask {} s = .error (.argument (Bytes.ascii "GET") .emptyKey) s ∧
      ∃ reason, (Question.get [107]).ask {} s =
        .error (.broken s.connection.endpoint reason) s := by
  refine ⟨{ connection := { endpoint := {}, link := .down (.rejected (.ofServer .unauthorized)) } },
    rfl, ?_, ?_, .rejected (.ofServer .unauthorized), ?_⟩
  · exact ((existsUnique_verdict {} _).2.2 (.get [107])).1
  · exact ((existsUnique_verdict {} _).2.2 (.get [])).2.1 .emptyKey rfl
  · exact ((existsUnique_verdict {} _).2.2 (.get [107])).2.2 _ (le_refl 0) (by decide) rfl

end RemoteCache.Client
