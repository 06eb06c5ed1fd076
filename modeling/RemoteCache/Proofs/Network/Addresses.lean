import RemoteCache.Proofs.Network.Modes

/-!
# Which address is taken

An address takes several calls to be connected to, and any of them may fail. What becomes of the
address is decided by the first call that does not succeed: it is given up, or, where a wait lasts
until the deadline, nothing more is tried. The addresses of a name are tried in order, and the first
one is taken for which all calls succeed.

When the turn of an address comes depends on those before it. That matters before a deadline only:
what is left of the time is not the same for each of them.

## Main definitions

* `Address.answers` — what each call answers, for every address
* `Address.steps`, `Address.verdict` — the calls in order, and what they come to
* `Address.verdicts` — what becomes of addresses, each at its turn
* `Network.Opening.Accords` — how opening a socket ends, by what becomes of the addresses

## Main results

* `Address.connect_answers` — all that is known of an address is what its calls answer
* `Address.verdict_eq` — connecting comes to the first step that does not succeed
* `Network.tryAddresses_accords` — the first address is taken for which all calls succeed
-/

namespace RemoteCache

namespace Address

/-! ### Answers -/

/-- What each call answers that is made on a socket to an address. -/
def answers : Address → Answers
  | reachable | failing .socket _ => { start := .connected }
  | pending span interruptions =>
    { delay := span,
      pauses := List.replicate interruptions (.failed .interrupted) ++ [.delay span] }
  | failing .connect e => { failures := [(0, e)], start := .failed e }
  | failing .outcomeOfConnect e => { failures := [(0, e)], outcome := some e }
  | failing .poll e => { pauses := [.failed e] }
  | failing .askOutcome e => { askOutcome := some e }
  | failing .readFlags e => { readFlags := some e }
  | failing .setFlags e => { setFlags := some e }
  | failing .restoreFlags e => { start := .connected, restoreFlags := some e }
  | failing .noDelay e => { start := .connected, noDelay := some e }
  | silent => { failures := [(0, .timedOut)], pauses := [.stall] }
  | answering answers => answers

variable {a : Address} {obstacle : Obstacle} {deadline : Deadline} {limit now : Instant}

/-- Signals do not make a wait any longer. -/
theorem await_replicate_interrupted (limit : Instant) (pauses : List Pause) (interruptions : Nat)
    (now : Instant) :
    Pause.await (some limit) (List.replicate interruptions (.failed .interrupted) ++ pauses) now =
      Pause.await (some limit) pauses now := by
  induction interruptions with
  | zero => rfl
  | succ interruptions ih =>
    rw [← ih, List.replicate_succ, List.cons_append]
    dsimp only [Pause.await]
    rw [Pause.awaitUntil, if_pos rfl]

theorem connectUntil_answers (limit : Instant) (a : Address) (now : Instant) :
    a.connectUntil limit now = a.answers.connectUntil limit now := by
  cases a with
  | pending span interruptions =>
    unfold connectUntil answers Answers.connectUntil
    dsimp only
    rw [await_replicate_interrupted, Pause.await, Pause.awaitUntil]
    split <;> rfl
  | failing stage e =>
    cases stage with
    | poll =>
      by_cases he : e = .interrupted <;>
        simp [connectUntil, answers, Answers.connectUntil, Pause.await, Pause.awaitUntil, he]
    | _ => rfl
  | _ => rfl

theorem connectFreely_answers (a : Address) (now : Instant) :
    a.connectFreely now = connectAgain a.answers.delay a.answers.failures now := by
  have hnow : ((0 : Span).nanoseconds : Int) = 0 := rfl
  cases a with
  | failing stage e =>
    cases stage with
    | connect | outcomeOfConnect =>
      by_cases he : e = .interrupted <;>
        simp [connectFreely, answers, connectAgain, hnow, he]
    | _ => simp [connectFreely, answers, connectAgain, hnow]
  | _ => simp [connectFreely, answers, connectAgain, hnow]

/-- All that is known of an address is what its calls answer. -/
theorem connect_answers (deadline : Deadline) (a : Address) (now : Instant) :
    a.connect deadline now = (answering a.answers).connect deadline now := by
  cases deadline with
  | none => exact connectFreely_answers a now
  | some limit => exact connectUntil_answers limit a now

theorem setback?_answers (deadline : Deadline) (a : Address) :
    a.setback? deadline = (answering a.answers).setback? deadline := by
  cases a with
  | failing stage e => cases stage <;> cases deadline <;> rfl
  | _ => cases deadline <;> rfl

/-! ### Steps -/

/-- What a step comes to that succeeds, or fails for some obstacle. -/
def Result.ofObstacle? : Option Obstacle → Result
  | none => .connected
  | some obstacle => .failed obstacle

/-- What a wait comes to. -/
def Result.ofReadiness : Readiness → Result
  | .ready => .connected
  | .timedOut => .timedOut
  | .failed e => .failed (.poll e)

/-- What steps come to that are taken in order: the first one decides that does not succeed. -/
def Result.inOrder : List Result → Result
  | [] => .connected
  | .connected :: more => inOrder more
  | result :: _ => result

/-- The steps of connecting where it blocks: the calls to connect, any number of which a signal may
interrupt, and the option. -/
def Answers.stepsFreely (a : Answers) : List Result :=
  a.failures.map (fun failure => .ofObstacle?
      (if failure.2 = .interrupted then none else some (.connect failure.2))) ++
    [.ofObstacle? (a.noDelay.map .noDelay)]

/-- The steps of connecting before a deadline: the socket is made non-blocking, the connection is
waited for unless it is there at once, the socket is made blocking again, and the option is set. -/
def Answers.stepsUntil (limit now : Instant) (a : Answers) : List Result :=
  [.ofObstacle? (a.readFlags.map .control), .ofObstacle? (a.setFlags.map .control)] ++
    (match a.start with
    | .connected => []
    | .failed e => [.failed (.connect e)]
    | .underWay => [.ofReadiness (Pause.await (some limit) a.pauses now).1,
        .ofObstacle? (a.askOutcome.map .outcome), .ofObstacle? (a.outcome.map .connect)]) ++
    [.ofObstacle? (a.restoreFlags.map .control), .ofObstacle? (a.noDelay.map .noDelay)]

/-- The steps by which a usable socket is got from an address, each with what it comes to. -/
def steps (deadline : Deadline) (now : Instant) : Address → List Result
  | failing .socket e => [.failed (.socket e)]
  | a =>
    match deadline with
    | none => a.answers.stepsFreely
    | some limit => a.answers.stepsUntil limit now

/-- What becomes of an address: it is connected to if all steps succeed, and otherwise the first one
decides that does not. -/
def verdict (deadline : Deadline) (now : Instant) (a : Address) : Result :=
  .inOrder (a.steps deadline now)

/-- What becomes of addresses that are tried in order, the first of them at an instant and each of
the others as soon as the one before is given up. -/
def verdicts (deadline : Deadline) : Instant → List Address → List Result
  | _, [] => []
  | now, a :: more => a.verdict deadline now :: verdicts deadline (a.connect deadline now).2 more

theorem Result.inOrder_append (first second : List Result) :
    inOrder (first ++ second) =
      match inOrder first with
      | .connected => inOrder second
      | result => result := by
  fun_induction inOrder first with
  | case1 => rfl
  | case2 more ih => exact ih
  | case3 result more hresult =>
    rw [List.cons_append, inOrder]
    · cases result with
      | connected => exact absurd rfl hresult
      | _ => rfl
    · exact hresult

theorem Result.inOrder_singleton (result : Result) : inOrder [result] = result := by
  cases result <;> rfl

theorem Answers.inOrder_stepsFreely (a : Answers) (now : Instant) :
    Result.inOrder a.stepsFreely =
      match (connectAgain a.delay a.failures now).1 with
      | .connected => .ofObstacle? ((answering a).setback? none)
      | result => result := by
  -- By induction on the calls to connect, each of which is a step.
  have hcalls : Result.inOrder (a.failures.map fun failure => .ofObstacle?
        (if failure.2 = .interrupted then none else some (.connect failure.2))) =
      (connectAgain a.delay a.failures now).1 := by
    generalize a.failures = failures
    fun_induction connectAgain a.delay failures now with
    | case1 now => rfl
    | case2 span more now later ih => exact ih
    | case3 span e more now later he => simp [he, Result.ofObstacle?, Result.inOrder]
  rw [stepsFreely, Result.inOrder_append, hcalls, Result.inOrder_singleton]
  rfl

theorem Answers.inOrder_stepsUntil (limit : Instant) (a : Answers) (now : Instant) :
    Result.inOrder (a.stepsUntil limit now) =
      match (a.connectUntil limit now).1 with
      | .connected => .ofObstacle? ((answering a).setback? (some limit))
      | result => result := by
  have hafter : Result.inOrder [.ofObstacle? (a.restoreFlags.map .control),
        .ofObstacle? (a.noDelay.map .noDelay)] =
      .ofObstacle? ((answering a).setback? (some limit)) := by
    unfold setback?
    dsimp only
    cases a.restoreFlags with
    | none => exact Result.inOrder_singleton _
    | some e => rfl
  unfold stepsUntil connectUntil
  rw [Result.inOrder_append, Result.inOrder_append, hafter]
  cases a.readFlags with
  | some e => rfl
  | none =>
    cases a.setFlags with
    | some e => rfl
    | none =>
      cases a.start with
      | connected | failed => rfl
      | underWay =>
        dsimp only
        rcases Pause.await (some limit) a.pauses now with ⟨readiness, time⟩
        cases readiness with
        | timedOut | failed => rfl
        | ready =>
          cases a.askOutcome with
          | some e => rfl
          | none => cases a.outcome <;> rfl

/-- Connecting to an address comes to the first step that does not succeed. -/
theorem verdict_eq (hsocket : ∀ e, a ≠ failing .socket e) (deadline : Deadline) (now : Instant) :
    a.verdict deadline now =
      match (a.connect deadline now).1 with
      | .connected => .ofObstacle? (a.setback? deadline)
      | result => result := by
  rw [connect_answers, setback?_answers, verdict]
  unfold steps
  split
  · exact absurd rfl (hsocket _)
  · cases deadline with
    | none => exact a.answers.inOrder_stepsFreely now
    | some limit => exact a.answers.inOrder_stepsUntil limit now

/-- Without a deadline, nothing comes too late. -/
theorem verdict_none_ne_timedOut (a : Address) (now : Instant) :
    a.verdict none now ≠ .timedOut := by
  by_cases hsocket : ∃ e, a = failing .socket e
  · obtain ⟨e, rfl⟩ := hsocket
    exact nofun
  · rw [verdict_eq (fun e h => hsocket ⟨e, h⟩)]
    rcases hconnect : a.connect none now with ⟨result, time⟩
    cases result with
    | connected => cases a.setback? none <;> exact nofun
    | failed obstacle => exact nofun
    | timedOut => exact absurd hconnect connectFreely_ne_timedOut

theorem timedOut_notMem_verdicts (now : Instant) (addresses : List Address) :
    .timedOut ∉ verdicts none now addresses := by
  induction addresses generalizing now with
  | nil => exact List.not_mem_nil
  | cons a more ih =>
    rw [verdicts, List.mem_cons, not_or]
    exact ⟨(a.verdict_none_ne_timedOut now).symm, ih _⟩

/-- An address that is not given up decides what comes of all. -/
def Result.decides : Result → Bool
  | .failed _ => false
  | _ => true

theorem Result.find?_decides_of_given (given : List Obstacle) :
    (given.map Result.failed).find? decides = none := by
  refine List.find?_eq_none.2 ?_
  simp [decides]

theorem Result.last_eq {given given' : List Obstacle} {last last' : Obstacle}
    (h : (given ++ [last]).map Result.failed = (given' ++ [last']).map Result.failed) :
    last = last' := by
  have hgiven := List.map_injective_iff.2 (fun _ _ => Result.failed.inj) h
  simpa using congrArg List.getLast? hgiven

/-- Addresses are given up for some obstacles, and the one behind them comes to a result. -/
def Result.Follows (result : Result) (given : List Obstacle) (verdicts : List Result) : Prop :=
  ∃ rest, verdicts = given.map .failed ++ result :: rest

theorem Result.Follows.find?_eq {result : Result} {given : List Obstacle} {verdicts : List Result}
    (h : result.Follows given verdicts) (hdecides : result.decides = true) :
    verdicts.find? decides = some result := by
  obtain ⟨rest, rfl⟩ := h
  rw [List.find?_append, find?_decides_of_given, List.find?_cons_of_pos hdecides]
  rfl

/-- Only one result decides. -/
theorem Result.Follows.unique {result result' : Result} {given given' : List Obstacle}
    {verdicts : List Result} (h : result.Follows given verdicts)
    (h' : result'.Follows given' verdicts) (hdecides : result.decides = true)
    (hdecides' : result'.decides = true) : result = result' :=
  Option.some.inj ((h.find?_eq hdecides).symm.trans (h'.find?_eq hdecides'))

theorem Result.Follows.ne_given {result : Result} {given : List Obstacle} {verdicts : List Result}
    (h : result.Follows given verdicts) (hdecides : result.decides = true)
    (given' : List Obstacle) : verdicts ≠ given'.map .failed := by
  intro hgiven
  have hfound := h.find?_eq hdecides
  rw [hgiven, find?_decides_of_given] at hfound
  cases hfound

theorem Result.Follows.behind {result : Result} {given : List Obstacle} {verdicts : List Result}
    (h : result.Follows given verdicts) (first : Obstacle) :
    result.Follows (first :: given) (.failed first :: verdicts) := by
  obtain ⟨rest, rfl⟩ := h
  exact ⟨rest, rfl⟩

/-- What is met on a socket is not the want of one. -/
theorem connectAgain_ne_socket {delay : Span} {failures : List (Span × Errno)} {e : Errno} :
    (connectAgain delay failures now).1 ≠ .failed (.socket e) := by
  fun_induction connectAgain delay failures now with
  | case1 => simp
  | case2 ms more now later ih => exact ih
  | case3 => simp

theorem Answers.connectUntil_ne_socket {answers : Answers} {e : Errno} :
    (answers.connectUntil limit now).1 ≠ .failed (.socket e) := by
  unfold connectUntil
  split
  case h_5 =>
    split
    case h_3 => split <;> exact nofun
    all_goals exact nofun
  all_goals exact nofun

theorem connect_ne_socket {e : Errno} : (a.connect deadline now).1 ≠ .failed (.socket e) := by
  rw [connect_answers]
  cases deadline with
  | none => exact connectAgain_ne_socket
  | some limit => exact Answers.connectUntil_ne_socket

theorem setback?_ne_socket {e : Errno} : a.setback? deadline ≠ some (.socket e) := by
  rw [setback?_answers]
  unfold setback?
  dsimp only
  split
  · exact nofun
  · cases a.answers.noDelay <;> exact nofun

end Address

/-! ### The first that is not given up -/

namespace Call

/-- Calls by which a socket is asked for, used without anything passing over it, and closed. -/
def Discards (calls : List Call) : Prop :=
  ∃ d uses, calls = .close d :: (uses ++ [.socket (some d)]) ∧ Carries d [] [] uses

/-- Calls by which one address is tried and given up for an obstacle: there is no socket to be had,
or one is discarded. -/
def GivesUp (calls : List Call) : Obstacle → Prop
  | .socket _ => calls = [.socket none]
  | _ => Discards calls

/-- Calls by which addresses are given up for some obstacles, each before the next one is tried. -/
inductive GivesUpAll : List Obstacle → List Call → Prop
  | nil : GivesUpAll [] []
  | cons {obstacle : Obstacle} {more : List Obstacle} {earlier later : List Call}
    (hfirst : GivesUp earlier obstacle) (hmore : GivesUpAll more later) :
    GivesUpAll (obstacle :: more) (later ++ earlier)

theorem Discards.givesUp {obstacle : Obstacle} {calls : List Call} (h : Discards calls)
    (hobstacle : ∀ e, obstacle ≠ .socket e) : GivesUp calls obstacle := by
  cases obstacle with
  | socket e => exact absurd rfl (hobstacle e)
  | _ => exact h

end Call

namespace Network

open Address Call

variable {n n' : Network} {deadline : Deadline} {attempt : Attempt} {addresses : List Address}

/-- How opening a socket ends where addresses were tried of which became what is said. Some were
given up, each for an obstacle; the next one is connected to, or comes too late. If all were given
up, the last obstacle is the one that is named. -/
def Opening.Accords (verdicts : List Address.Result) (obstacle : Obstacle) (n n' : Network) :
    Opening → Prop
  | .opened peer => ∃ given tried uses, Result.connected.Follows given verdicts ∧
      GivesUpAll given tried ∧ Carries peer.descriptor [] [] uses ∧
      n'.calls = uses ++ [.socket (some peer.descriptor)] ++ (tried ++ n.calls)
  | .failed last => ∃ given tried, verdicts = given.map .failed ∧ GivesUpAll given tried ∧
      last = given.getLast?.getD obstacle ∧ n'.calls = tried ++ n.calls
  | .timedOut => ∃ given tried own, Result.timedOut.Follows given verdicts ∧
      GivesUpAll given tried ∧ Discards own ∧ n'.calls = own ++ (tried ++ n.calls)

/-- One more address was given up before the others. -/
theorem Opening.Accords.behind {verdicts : List Address.Result} {first obstacle : Obstacle}
    {n₁ : Network} {opening : Opening} {own : List Call} (hcalls : n₁.calls = own ++ n.calls)
    (hfirst : GivesUp own first) (h : opening.Accords verdicts first n₁ n') :
    opening.Accords (.failed first :: verdicts) obstacle n n' := by
  cases opening with
  | opened peer =>
    obtain ⟨given, tried, uses, hfollows, htried, huses, hlater⟩ := h
    refine ⟨first :: given, _, uses, hfollows.behind first, .cons hfirst htried, huses, ?_⟩
    rw [hlater, hcalls, List.append_assoc tried]
  | timedOut =>
    obtain ⟨given, tried, own, hfollows, htried, hown, hlater⟩ := h
    refine ⟨first :: given, _, own, hfollows.behind first, .cons hfirst htried, hown, ?_⟩
    rw [hlater, hcalls, List.append_assoc]
  | failed last =>
    obtain ⟨given, tried, rfl, htried, rfl, hlater⟩ := h
    refine ⟨first :: given, _, rfl, .cons hfirst htried, ?_, ?_⟩
    · rw [List.getLast?_cons]
      rfl
    · rw [hlater, hcalls, List.append_assoc]

/-- The first address is taken for which all steps succeed. Those before it were given up, and none
is tried behind one for which the time does not suffice. -/
theorem tryAddresses_accords (deadline : Deadline) (attempt : Attempt) (obstacle : Obstacle)
    (addresses : List Address) (n : Network) :
    (tryAddresses deadline attempt obstacle addresses n).1.Accords
      (verdicts deadline n.clock addresses) obstacle n
      (tryAddresses deadline attempt obstacle addresses n).2 := by
  -- By induction on the addresses: each of them that is tried leaves calls of its own.
  fun_induction tryAddresses deadline attempt obstacle addresses n with
  | case1 obstacle n => exact ⟨[], [], rfl, .nil, rfl, rfl⟩
  | case2 obstacle e more n ih =>
    have hverdict : (failing .socket e).verdict deadline n.clock = .failed (.socket e) := rfl
    have hclock : (failing .socket e).connect deadline n.clock = (.connected, n.clock) := by
      cases deadline <;> rfl
    have hfirst : GivesUp [.socket none] (.socket e) := rfl
    rw [verdicts, hverdict, hclock]
    exact ih.behind rfl hfirst
  | case3 obstacle address more n hsocket d n₁ hopen time n₂ hconnect =>
    obtain ⟨-, hclock⟩ := sockets_openDescriptor hopen
    have hcalls := openDescriptor_calls hopen
    have hverdict := verdict_eq hsocket deadline n₁.clock
    rw [hconnect] at hverdict
    rw [verdicts, ← hclock, hverdict]
    refine ⟨[], [], _, ⟨_, rfl⟩, .nil, ⟨d, _, rfl, .use d⟩, ?_⟩
    exact congrArg (fun calls => .close d :: .use d :: calls) hcalls
  | case4 obstacle address more n hsocket d n₁ hopen time n₂ obstacle' hconnect ih =>
    obtain ⟨-, hclock⟩ := sockets_openDescriptor hopen
    have hcalls := openDescriptor_calls hopen
    have hverdict := verdict_eq hsocket deadline n₁.clock
    have hobstacle : ∀ e, obstacle' ≠ .socket e := by
      rintro e rfl
      exact connect_ne_socket (congrArg Prod.fst hconnect)
    rw [hconnect] at hverdict
    rw [verdicts, ← hclock, hverdict, hconnect]
    have hown : Discards (.close d :: ([.use d] ++ [.socket (some d)])) := ⟨d, _, rfl, .use d⟩
    refine ih.behind ?_ (hown.givesUp hobstacle)
    exact congrArg (fun calls => .close d :: .use d :: calls) hcalls
  | case5 obstacle address more n hsocket d n₁ hopen time n₂ peer n₃ hreach n₄ obstacle' hsetback
      hconnect ih =>
    -- The peer was reached, and the socket is closed all the same.
    obtain ⟨-, hclock⟩ := sockets_openDescriptor hopen
    obtain ⟨hreached, hpeer⟩ := reach_calls hreach
    have hcalls := openDescriptor_calls hopen
    have hverdict := verdict_eq hsocket deadline n₁.clock
    have hobstacle : ∀ e, obstacle' ≠ .socket e := by
      rintro e rfl
      exact setback?_ne_socket hsetback
    have htime : (n₄.close peer).clock = time := (clock_reach hreach :)
    rw [hconnect, hsetback] at hverdict
    rw [htime] at ih
    rw [verdicts, ← hclock, hverdict, hconnect]
    have hown : Discards (.close d :: ([.use d, .use d] ++ [.socket (some d)])) :=
      ⟨d, _, rfl, (Carries.use d).append (.use d)⟩
    refine ih.behind ?_ (hown.givesUp hobstacle)
    change .close peer.descriptor :: .use d :: n₃.calls = _
    rw [hpeer, hreached]
    exact congrArg (fun calls => .close d :: .use d :: .use d :: calls) hcalls
  | case6 obstacle address more n hsocket d n₁ hopen time n₂ peer n₃ hreach n₄ hsetback hconnect =>
    obtain ⟨-, hclock⟩ := sockets_openDescriptor hopen
    obtain ⟨hreached, hpeer⟩ := reach_calls hreach
    have hcalls := openDescriptor_calls hopen
    have hverdict := verdict_eq hsocket deadline n₁.clock
    rw [hconnect, hsetback] at hverdict
    rw [verdicts, ← hclock, hverdict]
    have huses : Carries peer.descriptor [] [] [.use d, .use d] := by
      rw [hpeer]
      exact (Carries.use d).append (.use d)
    refine ⟨[], [], _, ⟨_, rfl⟩, .nil, huses, ?_⟩
    change .use d :: n₃.calls = _
    rw [hreached, hpeer]
    exact congrArg (fun calls => .use d :: .use d :: calls) hcalls

/-- The addresses that a name resolves to decide how opening a socket ends. -/
theorem openSocket_accords (hresolution : n.nextAttempt.1.resolution = .ok addresses)
    (hne : addresses ≠ []) (deadline : Deadline) (endpoint : Endpoint) :
    ∃ (opening : Opening) (started : Network),
      started.calls = .resolve endpoint.host endpoint.port :: n.calls ∧
      opening.Accords (verdicts deadline n.resolvedAt addresses) .noAddress started
        (n.openSocket deadline endpoint).2 ∧
      (n.openSocket deadline endpoint).1 =
        match opening with
        | .opened peer => .ok peer
        | .failed last => .error (.unreachable endpoint last)
        | .timedOut => .error (.connectTimedOut endpoint) := by
  have hclock := n.clock_nextAttempt
  have hcalls := n.calls_nextAttempt
  unfold openSocket resolvedAt
  rcases hnext : n.nextAttempt with ⟨attempt, n₁⟩
  rw [hnext] at hresolution hclock hcalls
  have hresolved : ((n₁.record (.resolve endpoint.host endpoint.port)).pass
      attempt.delay).clock = n.clock + attempt.delay.nanoseconds :=
    congrArg (· + (attempt.delay.nanoseconds : Int)) hclock
  have hrecord : ((n₁.record (.resolve endpoint.host endpoint.port)).pass
      attempt.delay).calls = .resolve endpoint.host endpoint.port :: n.calls :=
    congrArg (List.cons _) hcalls
  have haccords := tryAddresses_accords deadline attempt .noAddress addresses
    ((n₁.record (.resolve endpoint.host endpoint.port)).pass attempt.delay)
  rw [hresolved] at haccords
  obtain ⟨address, more, rfl⟩ := List.exists_cons_of_ne_nil hne
  dsimp only at hresolution ⊢
  rw [hresolution]
  rcases htry : tryAddresses deadline attempt .noAddress (address :: more)
    ((n₁.record (.resolve endpoint.host endpoint.port)).pass attempt.delay) with ⟨opening, n'⟩
  rw [htry] at haccords
  dsimp only
  rw [htry]
  refine ⟨opening, _, hrecord, ?_, ?_⟩
  · cases opening <;> exact haccords
  · cases opening <;> rfl

end Network

end RemoteCache
