import RemoteCache.Client
import RemoteCache.Proofs.Session.Ends
import RemoteCache.Proofs.Wire.ReplyRoundTrip

/-!
# The questions of a program

Every question that a program can put to a client is one command, and what the program is told
depends on the response to that command alone. Some questions take a key that is not there for an
answer; all others fail with any refusal.

## Main definitions

* `Client.Question` — a question, by what it is answered with
* `Client.Question.command` — the command that a question is sent as
* `Client.Question.ask` — what a client does when it is asked
* `Client.Question.absence` — what a question is answered with when its key is not there
* `Client.Question.answer`, `Client.Question.tell` — what a program is told when a response has
  come

## Main results

* `Client.Question.ask_eq` — a question is its command and then its answer
* `Client.Question.answer_of_hasShape` — a response to a command answers its question, or refuses
-/

namespace RemoteCache.Client

open Session

/-- A question of a program to a cache, by what it is answered with. -/
inductive Question : Type → Type
  | ping : Question Bytes
  | version : Question Bytes
  | get (key : Bytes) : Question (Option Bytes)
  | peek (key : Bytes) : Question (Option Bytes)
  | set (key value : Bytes) (ttl : Option Int) : Question Unit
  | del (key : Bytes) : Question Bool
  | has (key : Bytes) : Question Bool
  | ttl (key : Bytes) : Question (Option Int)
  | setTtl (key : Bytes) (ttl : Option Int) : Question Unit
  | valueSize (key : Bytes) : Question (Option UInt32)
  | status : Question Status
  | size : Question CacheSize
  | policy : Question PolicyInfo
  | setPolicy (policy : Policy) : Question Unit
  | resize (capacity : Int) : Question Unit
  | wipe : Question Unit

namespace Question

variable {α : Type}

/-- The command that a question is sent as. -/
def command : Question α → Command
  | ping => .ping
  | version => .version
  | get key => .get key
  | peek key => .peek key
  | set key value lifetime => .set key value lifetime
  | del key => .del key
  | has key => .has key
  | ttl key => .getTtl key
  | setTtl key lifetime => .setTtl key lifetime
  | valueSize key => .valueSize key
  | status | size | policy => .getStatus
  | setPolicy chosen => .setPolicy chosen
  | resize capacity => .resize capacity
  | wipe => .wipe

/-- What a client does when it is asked. -/
def ask (client : Client) : Question α → Action α
  | ping => client.ping
  | version => client.version
  | get key => client.get key
  | peek key => client.peek key
  | set key value lifetime => client.set key value lifetime
  | del key => client.del key
  | has key => client.has key
  | ttl key => client.ttl key
  | setTtl key lifetime => client.setTtl key lifetime
  | valueSize key => client.valueSize key
  | status => client.status
  | size => client.size
  | policy => client.policy
  | setPolicy chosen => client.setPolicy chosen
  | resize capacity => client.resize capacity
  | wipe => client.wipe

/-- What a question is answered with when its key is not there, if that is an answer to it. -/
def absence : Question α → Option α
  | get _ | peek _ => some none
  | del _ => some false
  | ttl _ => some none
  | valueSize _ => some none
  | _ => none

/-- What a program is told when a payload has come. -/
def answerOk : Question α → Payload → Except Failure α
  | ping, .value data | version, .value data => .ok data
  | get _, .value data | peek _, .value data => .ok (some data)
  | has _, .flag isSet => .ok isSet
  | ttl _, .expiry seconds => .ok (if seconds = 0 then none else some seconds)
  | valueSize _, .size bytes => .ok (some bytes)
  | status, .status report => .ok report
  | size, .status report => .ok ⟨report.maxSize, report.usedSize, report.numObjects⟩
  | policy, .status report => .ok ⟨report.policy, report.policies, report.isAutoPolicy⟩
  -- An acknowledgement says all there is to say, whatever came with it.
  | del _, _ => .ok true
  | set _ _ _, _ | setTtl _ _, _ | setPolicy _, _ | resize _, _ | wipe, _ => .ok ()
  | q, _ => .error (.foreignPayload q.command.name)

/-- What a program is told when a refusal has come: a key that is not there can be an answer. -/
def answerRefused (q : Question α) (refusal : Refusal) : Except Failure α :=
  match q.absence with
  | some a =>
    if refusal.isCache .keyNotFound then .ok a else .error (.refused q.command.name refusal)
  | none => .error (.refused q.command.name refusal)

/-- What a program is told when a response has come. -/
def answer (q : Question α) : Response → Except Failure α
  | .ok payload => q.answerOk payload
  | .refused refusal => q.answerRefused refusal

/-- What is told is returned or thrown, and changes nothing. -/
def tell (told : Except Failure α) : Action α :=
  match told with
  | .ok a => return a
  | .error failure => throw failure

end Question

/-! ### A question is its command and then its answer -/

variable {α : Type} {client : Client} {command : Command}

theorem expectOk_bind (next : Payload → Action α) :
    client.expectOk command >>= next = client.execute command >>= fun r =>
      match r with
      | .ok payload => next payload
      | .refused refusal => throw (.refused command.name refusal) := by
  unfold expectOk
  rw [bind_assoc]
  refine bind_congr fun r => ?_
  cases r <;> rfl

theorem expectFound_bind (next : Option Payload → Action α) :
    client.expectFound command >>= next = client.execute command >>= fun r =>
      match r with
      | .ok payload => next (some payload)
      | .refused refusal =>
        if refusal.isCache .keyNotFound then next none
        else throw (.refused command.name refusal) := by
  unfold expectFound
  rw [bind_assoc]
  refine bind_congr fun r => ?_
  cases r with
  | ok payload => rfl
  | refused refusal =>
    dsimp only
    split <;> rfl

namespace Question

/-- A question is sent as its command, and what the program is told depends on the response
alone. -/
theorem ask_eq (q : Question α) :
    q.ask client = client.execute q.command >>= fun r => tell (q.answer r) := by
  cases q with
  | ping | version | set | has | setTtl | setPolicy | resize | wipe | status =>
    simp only [ask, Client.ping, Client.version, Client.set, Client.has, Client.setTtl,
      Client.setPolicy, Client.resize, Client.wipe, Client.status]
    refine (expectOk_bind _).trans (bind_congr fun r => ?_)
    cases r with
    | ok payload => cases payload <;> rfl
    | refused refusal => rfl
  | size | policy =>
    -- Both are told from the report.
    simp only [ask, Client.size, Client.policy, Client.status]
    refine (bind_assoc _ _ _).trans ((expectOk_bind _).trans (bind_congr fun r => ?_))
    cases r with
    | ok payload => cases payload <;> rfl
    | refused refusal => rfl
  | get | peek | del | ttl | valueSize =>
    simp only [ask, Client.get, Client.peek, lookUp, Client.del, Client.ttl, Client.valueSize]
    refine (expectFound_bind _).trans (bind_congr fun r => ?_)
    cases r with
    | ok payload => cases payload <;> rfl
    | refused refusal =>
      change (if _ then _ else _) = tell (if _ then _ else _)
      split <;> rfl

theorem ask_apply (q : Question α) (s : Session) :
    q.ask client s = match client.execute q.command s with
      | .ok r s' => tell (q.answer r) s'
      | .error failure s' => .error failure s' := by
  rw [ask_eq]
  change EStateM.bind _ _ s = _
  unfold EStateM.bind
  cases client.execute q.command s <;> rfl

/-- A payload of the right shape answers a question. -/
theorem exists_answerOk {q : Question α} {payload : Payload}
    (h : payload.shape = q.command.shape) : ∃ a, q.answerOk payload = .ok a := by
  cases q <;> cases payload <;> first | exact ⟨_, rfl⟩ | cases h

/-- The program is told of a refusal, unless a key that is not there is an answer. -/
theorem answerRefused_cases (q : Question α) (refusal : Refusal) :
    (∃ a, q.answerRefused refusal = .ok a) ∨
      q.answerRefused refusal = .error (.refused q.command.name refusal) := by
  unfold answerRefused
  split
  · split
    · exact .inl ⟨_, rfl⟩
    · exact .inr rfl
  · exact .inr rfl

/-- A response to a command answers its question, or is a refusal that the program is told of. -/
theorem answer_of_hasShape {q : Question α} {r : Response} (h : r.HasShape q.command.shape) :
    (∃ a, q.answer r = .ok a) ∨
      ∃ refusal, r = .refused refusal ∧ q.answer r = .error (.refused q.command.name refusal) := by
  cases r with
  | ok payload => exact .inl (exists_answerOk h)
  | refused refusal =>
    exact (q.answerRefused_cases refusal).imp_right fun htold => ⟨refusal, rfl, htold⟩

end Question

end RemoteCache.Client
