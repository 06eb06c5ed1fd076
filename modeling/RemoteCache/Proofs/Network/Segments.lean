import RemoteCache.Proofs.Network.Setbacks

/-!
# However a stream is cut

As long as no wait is cut short, nothing but the bytes that a peer sends decides what is read from
them: not the segments they come in, nor how often a signal comes in between, nor how long it all
takes. Without a deadline the same holds of writing and of opening a socket, where the scripts alone
decide.

## Main definitions

* `Script.Cuts` — what reading meets when a peer sends a stream of bytes and no more
* `Script.writing` — what becomes of bytes that are to be written
* `Reply.verdict` — what a stream says of the response at its front
* `Address.search`, `Attempt.opening` — whether a socket is opened

## Main results

* `Script.Brings.cuts`, `Script.cuts_ofBytes` — a long segment may come in pieces
* `Network.receive_of_cuts` — the stream decides what is received
* `Network.sendAll_freely`, `Network.openSocket_freely` — the same for writing and for opening
* `Network.settle_busy` — what a server writes cuts a stream, even if it is busy first
-/

namespace RemoteCache

open Wire

/-! ### Streams -/

namespace Script

/-- Reading meets the bytes of a stream in segments that are not empty, with signals anywhere, and
then the end of the stream. -/
inductive Cuts : Bytes → Script Arrival → Prop
  | nil : Cuts [] []
  | close (pauses : List Pause) (script : Script Arrival) : Cuts [] (⟨pauses, .close⟩ :: script)
  | segment (pauses : List Pause) {b : Bytes} (hb : b ≠ []) {rest : Bytes} {script : Script Arrival}
      (h : Cuts rest script) : Cuts (b ++ rest) (⟨pauses, .segment b⟩ :: script)
  | signal (pauses : List Pause) {stream : Bytes} {script : Script Arrival}
      (h : Cuts stream script) : Cuts stream (⟨pauses, .failed .interrupted⟩ :: script)

variable {frame extra rest : Bytes} {script tail : Script Arrival}

/-- What brings some bytes is a beginning of what cuts a stream that begins with them. -/
theorem Brings.cuts (h : Brings frame extra script) (hrest : Cuts rest tail) :
    Cuts (frame ++ extra ++ rest) (script ++ tail) := by
  induction h with
  | last pauses hb extra => exact .segment pauses (List.append_ne_nil_of_left_ne_nil hb extra) hrest
  | segment pauses hb h ih =>
    rw [List.append_assoc] at ih
    rw [List.append_assoc, List.append_assoc]
    exact .segment pauses hb ih
  | signal pauses h ih => exact .signal pauses ih

/-- However long a segment is, it may come in pieces. -/
theorem cuts_ofBytes {b : Bytes} (hb : b ≠ []) (pauses : List Pause) (hrest : Cuts rest tail) :
    Cuts (b ++ rest) (behind pauses (Arrival.ofBytes b) ++ tail) := by
  have hcuts := (brings_ofBytes hb pauses).cuts hrest
  rwa [List.append_nil] at hcuts

end Script

/-! ### Reading -/

namespace Reply

variable {shape : Shape} {stream : Bytes} {missing : Nat} {c : Cursor}

/-- What a stream says of the response at its front: the response, or why there is none. -/
def verdict (shape : Shape) (stream : Bytes) : Except Breakdown Response :=
  match read shape (.start stream) with
  | .done r _ => .ok r
  | .short _ _ => .error (Network.endOfStream stream)
  | .malformed fault => .error (.invalidResponse fault)

theorem verdict_of_short (h : read shape (.start stream) = .short missing c) :
    verdict shape stream = .error (Network.endOfStream stream) := by
  rw [verdict, h]

/-- What is said of a stream before its end is said of all of it. -/
theorem verdict_append (h : ∀ missing c, read shape (.start stream) ≠ .short missing c)
    (more : Bytes) : verdict shape (stream ++ more) = verdict shape stream := by
  have hstable := stable_read shape
  unfold verdict
  rw [← Cursor.extend_start]
  cases hread : read shape (.start stream) with
  | short missing c => exact absurd hread (h missing c)
  | done r c => rw [hstable.done_extend hread more]
  | malformed fault => rw [hstable.malformed_extend hread more]

end Reply

namespace Network

variable {n : Network} {shape : Shape} {pending stream : Bytes}

/-- Why there is no response in a stream that ends too early. -/
theorem endOfStream_eq (stream : Bytes) :
    endOfStream stream = if stream = [] then .closed else .closedMidResponse := by
  cases stream <;> rfl

/-- Once it is decided what there is to receive, nothing more is read: it is enough to look at what
is not decided yet. -/
theorem receive_of_undecided {deadline : Deadline} {d : Nat} {script : Script Arrival}
    {more : Bytes} (h : ∀ missing c, Reply.read shape (.start pending) = .short missing c →
      (n.receive deadline shape d script pending).1.map Received.response =
        Reply.verdict shape (pending ++ more)) :
    (n.receive deadline shape d script pending).1.map Received.response =
      Reply.verdict shape (pending ++ more) := by
  cases hread : Reply.read shape (.start pending) with
  | short missing c => exact h missing c hread
  | done r c =>
    rw [Reply.verdict_append (by rw [hread]; exact nofun), Reply.verdict, hread,
      receive_of_done hread]
    rfl
  | malformed fault =>
    rw [Reply.verdict_append (by rw [hread]; exact nofun), Reply.verdict, receive.eq_def]
    dsimp only
    rw [hread]
    rfl

/-- However a stream is cut, its bytes alone decide what is received, if the waits for them end in
time. -/
theorem receive_of_cuts {deadline : Deadline} {script : Script Arrival}
    (h : Script.Cuts stream script) (htime : n.InTime deadline (script.flatMap Timed.pauses))
    (d : Nat) :
    (n.receive deadline shape d script pending).1.map Received.response =
      Reply.verdict shape (pending ++ stream) := by
  -- By induction on the readings. What one of them brings is pending at the next.
  induction h generalizing pending n with
  | nil =>
    refine receive_of_undecided fun missing c hread => ?_
    rw [receive, hread, List.append_nil, Reply.verdict_of_short hread]
    rfl
  | close pauses script =>
    refine receive_of_undecided fun missing c hread => ?_
    obtain ⟨n', hwait, -⟩ := wait_of_inTime htime d
    rw [receive, hread, List.append_nil, Reply.verdict_of_short hread]
    dsimp only
    rw [hwait]
    rfl
  | @segment pauses b hb rest script h ih =>
    refine receive_of_undecided fun missing c hread => ?_
    obtain ⟨n', hwait, hmore⟩ := wait_of_inTime htime d
    have hnext : (n'.record (.receive d b)).InTime deadline (script.flatMap Timed.pauses) :=
      hmore.congr rfl
    rw [receive_segment hread hwait hb, ih hnext, List.append_assoc]
  | @signal pauses stream script h ih =>
    refine receive_of_undecided fun missing c hread => ?_
    obtain ⟨n', hwait, hmore⟩ := wait_of_inTime htime d
    have hnext : (n'.record (.receive d [])).InTime deadline (script.flatMap Timed.pauses) :=
      hmore.congr rfl
    rw [receive_signal hread hwait, ih hnext]

end Network

/-! ### Writing -/

/-- What becomes of bytes that are to be written, where no wait is limited: they are taken in the
end, or a call fails. -/
def Script.writing : Script Departure → Bytes → Except Breakdown Unit
  | _, [] | [], _ => .ok ()
  | met :: script, b :: rest =>
    match met.event with
    | .accept none => .ok ()
    | .accept (some limit) =>
      if limit = 0 then .error .sendClosed else writing script ((b :: rest).drop limit)
    | .failed e => if e = .interrupted then writing script (b :: rest) else .error (.sendFailed e)

namespace Network

/-- To a peer in its own right, the script alone decides how writing ends. -/
theorem sendAll_freely {socket : Socket} (hpeer : socket.isHosted = false)
    (script : Script Departure) (b : Bytes) (n : Network) :
    (n.sendAll none socket script b).1.map (fun _ => ()) = script.writing b := by
  have hready {n n' : Network} {pauses : List Pause} {readiness : Readiness}
      (hwait : n.wait none socket.descriptor pauses = (readiness, n')) : readiness = .ready :=
    (congrArg Prod.fst hwait).symm
  have hdelivered {n n' : Network} {b : Bytes} {result : Except Breakdown Unit}
      (hdeliver : n.deliver socket b = (result, n')) : result = .ok () := by
    rw [deliver_of_not_hosted hpeer] at hdeliver
    exact (congrArg Prod.fst hdeliver).symm
  fun_induction Network.sendAll none socket script b n with
  | case1 script n => cases script <;> rfl
  | case2 b rest n readiness n' hwait result n'' hdeliver =>
    rw [hdelivered hdeliver]
    rfl
  | case3 event script b rest n n' hwait => cases hready hwait
  | case4 event script b rest n e n' hwait => cases hready hwait
  | case5 event script b rest n n' hwait hevent result n'' hdeliver =>
    rw [hdelivered hdeliver, Script.writing, hevent]
    rfl
  | case6 event script b rest n n' hwait limit hevent reason n'' hdeliver =>
    cases hdelivered hdeliver
  | case7 event script b rest n n' hwait n'' hevent hdeliver =>
    rw [Script.writing, hevent]
    rfl
  | case8 event script b rest n n' hwait limit hevent n'' hdeliver hlimit ih =>
    rw [ih, Script.writing, hevent]
    exact (if_neg hlimit).symm
  | case9 event script b rest n n' hwait hevent ih =>
    rw [ih, Script.writing, hevent]
    rfl
  | case10 event script b rest n n' hwait e hevent he =>
    rw [Script.writing, hevent]
    exact (if_neg he).symm

end Network

/-! ### Opening a socket -/

namespace Address

variable {a : Address} {obstacle : Obstacle} {now time : Instant}

/-- What keeps an address from being used, where no wait is limited. -/
def obstacle? : Address → Option Obstacle
  | .failing .socket e => some (.socket e)
  | .failing .connect e | .failing .outcomeOfConnect e =>
    if e = .interrupted then none else some (.connect e)
  | .failing .noDelay e => some (.noDelay e)
  | .silent => some (.connect .timedOut)
  | .answering answers =>
    match answers.failures.find? fun failure => failure.2 ≠ .interrupted with
    | some failure => some (.connect failure.2)
    | none => answers.noDelay.map .noDelay
  | _ => none

/-- What keeps all of some addresses from being used: the obstacle of the last one, if there are
any. -/
def search (obstacle : Obstacle) : List Address → Option Obstacle
  | [] => some obstacle
  | a :: more => a.obstacle?.bind fun obstacle => search obstacle more

/-- Calls that block are repeated up to the first failure that is not a signal. -/
theorem connectAgain_fst (delay : Span) (failures : List (Span × Errno)) (now : Instant) :
    (connectAgain delay failures now).1 =
      match failures.find? fun failure => failure.2 ≠ .interrupted with
      | some failure => .failed (.connect failure.2)
      | none => .connected := by
  fun_induction connectAgain delay failures now with
  | case1 now => rfl
  | case2 ms more now later ih => simpa using ih
  | case3 ms e more now later he => simp [he]

theorem connectFreely_ne_timedOut : a.connectFreely now ≠ (.timedOut, time) := by
  cases a with
  | answering answers =>
    intro h
    have hfst := connectAgain_fst answers.delay answers.failures now
    rw [show connectAgain _ _ now = (.timedOut, time) from h] at hfst
    split at hfst <;> cases hfst
  | _ =>
    unfold connectFreely
    grind

theorem obstacle?_of_failed (hsocket : ∀ e, a ≠ .failing .socket e)
    (h : a.connectFreely now = (.failed obstacle, time)) : a.obstacle? = some obstacle := by
  cases a with
  | answering answers =>
    have hfst := connectAgain_fst answers.delay answers.failures now
    rw [show connectAgain _ _ now = (.failed obstacle, time) from h] at hfst
    unfold obstacle?
    grind
  | _ =>
    unfold connectFreely at h
    unfold obstacle?
    grind

theorem obstacle?_of_connected (hsocket : ∀ e, a ≠ .failing .socket e)
    (h : a.connectFreely now = (.connected, time)) : a.obstacle? = a.setback? none := by
  cases a with
  | answering answers =>
    have hfst := connectAgain_fst answers.delay answers.failures now
    rw [show connectAgain _ _ now = (.connected, time) from h] at hfst
    unfold obstacle? setback?
    grind
  | _ =>
    unfold connectFreely at h
    unfold obstacle? setback?
    grind

end Address

/-- Whether an attempt leads to a socket, where no wait is limited. -/
def Attempt.opening (a : Attempt) (endpoint : Endpoint) : Except Breakdown Unit :=
  match a.resolution with
  | .error e => .error (.unresolved endpoint.host e)
  | .ok [] => .error (.unresolved endpoint.host .noAddress)
  | .ok addresses =>
    match Address.search .noAddress addresses with
    | none => .ok ()
    | some obstacle => .error (.unreachable endpoint obstacle)

namespace Network

variable {n : Network} {attempt : Attempt} {arrivals : Script Arrival}

/-- The first address that can be used leads to the peer of the attempt. -/
theorem tryAddresses_freely (harrivals : attempt.arrivals = some arrivals) (obstacle : Obstacle)
    (addresses : List Address) (n : Network) :
    (Address.search obstacle addresses = none ∧ ∃ d n',
        tryAddresses none attempt obstacle addresses n =
          (.opened ⟨d, arrivals, attempt.departures, false⟩, n')) ∨
      ∃ last n', Address.search obstacle addresses = some last ∧
        tryAddresses none attempt obstacle addresses n = (.failed last, n') := by
  fun_induction tryAddresses none attempt obstacle addresses n with
  | case1 obstacle n => exact .inr ⟨obstacle, n, rfl, rfl⟩
  | case2 obstacle e more n ih => exact ih
  | case3 obstacle address more n hsocket d n₁ hopen time n₂ hconnect =>
    exact absurd hconnect Address.connectFreely_ne_timedOut
  | case4 obstacle address more n hsocket d n₁ hopen time n₂ obstacle' hconnect ih =>
    rw [Address.search, Address.obstacle?_of_failed hsocket hconnect]
    exact ih
  | case5 obstacle address more n hsocket d n₁ hopen time n₂ peer n₃ hreach n₄ obstacle' hsetback
      hconnect ih =>
    rw [Address.search, Address.obstacle?_of_connected hsocket hconnect, hsetback]
    exact ih
  | case6 obstacle address more n hsocket d n₁ hopen time n₂ peer n₃ hreach n₄ hsetback hconnect =>
    rw [Address.search, Address.obstacle?_of_connected hsocket hconnect, hsetback]
    simp only [reach, harrivals] at hreach
    cases hreach
    exact .inl ⟨rfl, d, _, rfl⟩

/-- The attempt alone decides whether a socket is opened. -/
theorem openSocket_freely (hnext : n.nextAttempt.1 = attempt)
    (harrivals : attempt.arrivals = some arrivals) (endpoint : Endpoint) :
    (attempt.opening endpoint = .ok () ∧ ∃ d n', n.openSocket none endpoint =
        (.ok ⟨d, arrivals, attempt.departures, false⟩, n')) ∨
      ∃ reason n', attempt.opening endpoint = .error reason ∧
        n.openSocket none endpoint = (.error reason, n') := by
  unfold Attempt.opening openSocket
  rcases hattempt : n.nextAttempt with ⟨a, n⟩
  obtain rfl : a = attempt := by rwa [hattempt] at hnext
  dsimp only
  cases a.resolution with
  | error e => exact .inr ⟨_, _, rfl, rfl⟩
  | ok addresses =>
    cases addresses with
    | nil => exact .inr ⟨_, _, rfl, rfl⟩
    | cons address more =>
      dsimp only
      rcases tryAddresses_freely harrivals .noAddress (address :: more)
          ((n.record (.resolve endpoint.host endpoint.port)).pass a.delay) with
        ⟨hsearch, d, n', htry⟩ | ⟨last, n', hsearch, htry⟩
      · rw [hsearch, htry]
        exact .inl ⟨rfl, d, n', rfl⟩
      · rw [hsearch, htry]
        exact .inr ⟨_, n', rfl, rfl⟩

end Network

/-! ### A server that is busy -/

namespace Network

variable {n : Network} {deadline : Deadline} {socket : Socket} {service : Service}

theorem flatMap_pauses_behind {α : Type} {events : List α} (h : events ≠ [])
    (pauses : List Pause) : (Script.behind pauses events).flatMap Timed.pauses = pauses := by
  obtain ⟨event, more, rfl⟩ := List.exists_cons_of_ne_nil h
  simp [Script.behind, List.flatMap_map]

/-- The wait for a server that is done before the deadline. -/
theorem inTime_lag (hpatient : outlasts deadline n.clock service = false) {lag : Nat}
    (hlag : lag = (service.readyAt n.clock - n.clock).toNat) :
    n.InTime deadline (if lag = 0 then [] else [.delay ⟨lag⟩]) := by
  rintro limit rfl
  have hready : service.readyAt n.clock ≤ n.clock + (Deadline.granted limit n.clock).nanoseconds :=
    not_lt.1 (of_decide_eq_false hpatient)
  refine ⟨lag, ?_⟩
  split
  · rename_i hnone
    rw [hnone]
    exact .nil _
  · refine .delay ⟨lag⟩ ?_ (.nil _)
    rw [hlag]
    exact Int.toNat_le.2 (Int.sub_left_le_of_le_add hready)

/-- What the server writes once it is done with earlier replies is there to read in time, if it is
done with them before the deadline. -/
theorem settle_busy {caller : Service.Caller} {t : Server.Turn} {start : Instant} {b : Bytes}
    (hhosted : socket.isHosted = true) (harrivals : socket.arrivals = [])
    (hservice : n.service = some service) (hcaller : service.caller = some caller)
    (hpatient : outlasts deadline n.clock service = false)
    (hstart : service.readyAt n.clock = start)
    (hturn : caller.turn service.server start (n.transits.headD {}).requests = t)
    (hwrites : t.Writes start b) :
    ∃ script n', n.settle deadline socket = ({ socket with arrivals := script }, n') ∧
      Script.Cuts b script ∧ n'.InTime deadline (script.flatMap Timed.pauses) := by
  refine ⟨_, _, settle_turn hhosted harrivals hservice hcaller hpatient hstart hturn hwrites, ?_⟩
  have hlast : Script.Cuts [] (lastArrivals t.visit) ∧
      (lastArrivals t.visit).flatMap Timed.pauses = [] := by
    unfold lastArrivals
    split
    · exact ⟨.close _ _, rfl⟩
    · exact ⟨.nil, rfl⟩
  rw [hwrites.writes_eq, List.flatMap_append, hlast.2, List.append_nil]
  split
  · rename_i hb
    subst hb
    exact ⟨hlast.1, fun limit _ => ⟨0, .nil _⟩⟩
  · rename_i hb
    -- The first segment comes after the wait for the server, and the others at once.
    have hwait := inTime_lag hpatient rfl
    rw [hstart] at hwait
    have hbrings (pauses : List Pause) :=
      Script.brings_cut hb pauses (n.transits.headD {}).replies
    have hsome : (Arrival.cut (n.transits.headD {}).replies b).1 ≠ [] := by
      intro hnone
      have hnothing := hbrings []
      rw [hnone] at hnothing
      cases hnothing
    have hcuts (pauses : List Pause) := (hbrings pauses).cuts hlast.1
    simp only [List.append_nil] at hcuts
    simp only [arrivalsOf, List.append_nil]
    exact ⟨hcuts _, (flatMap_pauses_behind hsome _).symm ▸ hwait⟩

end Network

end RemoteCache
