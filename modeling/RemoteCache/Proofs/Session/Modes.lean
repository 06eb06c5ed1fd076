import RemoteCache.Proofs.Network.Modes
import RemoteCache.Proofs.Session.Deadlines
import RemoteCache.Proofs.Session.Streams

/-!
# Connecting with a timeout and without one

A timeout that is long enough for all the delays that connecting meets is meant to make no
difference: the connection is opened over the same address, or fails in the same way.

It does make one. An address whose call to connect a signal interrupts is tried again without a
timeout, and given up with one. That shows unless another address connects, and the greeting fails
over either of them. And a timeout that is longer than the longest wait may be too short for delays
that are longer than that.

## Main definitions

* `Attempt.course`, `Attempt.duration` — what an attempt leads to, and how long it takes
* `Session.connectPlace`, `Session.sight` — connecting, with the place of the address
* `Session.Approaches` — a connection that is to be opened by a given attempt
* `Session.FallsShort` — a call that fails as expected, or for want of time

## Main results

* `Session.ends_connect_course` — the attempt decides how connecting ends, if there is time enough
* `Session.connect_alike_iff` — when connecting comes to the same with a timeout and without one
-/

namespace RemoteCache

open Deadline

/-- What an attempt leads to, with a deadline or without one: a connection over the address at a
place, or why there is none. -/
def Attempt.course (a : Attempt) (isBounded : Bool) (endpoint : Endpoint)
    (script : Script Arrival) : Except Breakdown Nat := do
  let k ← a.place isBounded endpoint
  script.greeting
  return k

/-- The nanoseconds that an attempt takes, with those that the peer takes for its greeting. -/
def Attempt.duration (a : Attempt) (ns : Nat) : Nat :=
  a.delay.nanoseconds + (a.addresses.map Address.delay).sum + ns

namespace Session

open Network

variable {α β : Type} {s : Session} {deadline : Deadline} {start : Int} {ns more : Nat}
  {endpoint : Endpoint} {attempt : Attempt} {script : Script Arrival}

/-- A call that fails as expected, or for want of time. Then there is a deadline, and some of the
time is left that the call would have taken. -/
structure FallsShort (deadline : Deadline) (start : Int) (ns : Nat) (endpoint : Endpoint)
    (expected : Except Breakdown α) (failure : Failure) (s : Session) : Prop where
  failsAs : failure.kind ≠ .timeout → FailsAs endpoint expected failure s
  early : failure.kind = .timeout →
    deadline.isSome ∧ s.network.clock < start + ns

theorem FallsShort.bind {expected : Except Breakdown α} {failure : Failure}
    (h : FallsShort deadline start ns endpoint expected failure s)
    (next : α → Except Breakdown β) (hle : ns ≤ more) :
    FallsShort deadline start more endpoint (expected >>= next) failure s := by
  refine ⟨fun hkind => (h.failsAs hkind).bind next, fun hkind => ?_⟩
  exact (h.early hkind).imp_right fun hleft =>
    hleft.trans_le (Int.add_le_add_left (Int.ofNat_le.2 hle) start)

/-- What went before takes its time as well. -/
theorem FallsShort.since {expected : Except Breakdown α} {failure : Failure} {now : Int}
    (h : FallsShort deadline now more endpoint expected failure s)
    (hle : now ≤ start + ns) :
    FallsShort deadline start (ns + more) endpoint expected failure s := by
  refine ⟨h.failsAs, fun hkind => (h.early hkind).imp_right fun hleft => hleft.trans_le ?_⟩
  rw [Int.natCast_add, ← Int.add_assoc]
  exact Int.add_le_add_right hle _

theorem FallsShort.of_failsAs {expected : Except Breakdown α} {failure : Failure}
    (h : FailsAs endpoint expected failure s) (hkind : failure.kind ≠ .timeout) :
    FallsShort deadline start ns endpoint expected failure s :=
  ⟨fun _ => h, fun hlate => absurd hlate hkind⟩

theorem fallsShort_breakWith {network : Network} {reason : Breakdown}
    {expected : Except Breakdown α}
    (hexpected : ¬IsLate (.error reason : Except Breakdown α) → expected = .error reason)
    (hlapse : Lapse deadline (IsLate (.error reason : Except Breakdown α)) start ns network.clock) :
    FallsShort deadline start ns s.connection.endpoint expected reason.failure
      ({ s with network }.breakWith reason) := by
  refine ⟨fun hkind => ?_, fun hkind => ?_⟩
  · rw [hexpected (mt isLate_iff.1 hkind)]
    exact failsAs_breakWith _ reason
  · rw [clock_breakWith]
    exact hlapse.early (isLate_iff.2 hkind)

/-! ### The parts of connecting -/

/-- The attempt decides over which address a socket is opened. -/
theorem ends_openSocket_place
    (hnext : s.network.nextAttempt.1 = { attempt with arrivals := some script })
    (hplain : ∀ a ∈ attempt.addresses, a.IsPlain) (deadline : Deadline) :
    Ends (openSocket deadline) s
      (fun _ s' => ∃ k d, attempt.place deadline.isSome s.connection.endpoint = .ok k ∧
        s'.connection =
          { s.connection with link := .up ⟨d, script, attempt.departures, false⟩ [] } ∧
        s'.network.sockets = s.network.sockets + k ∧
        s'.network.clock ≤ s.network.clock + attempt.duration 0)
      (FallsShort deadline s.network.clock (attempt.duration 0) s.connection.endpoint
        (attempt.place deadline.isSome s.connection.endpoint)) := by
  obtain ⟨hlapse, hopened⟩ :=
    openSocket_place hnext rfl hplain deadline s.connection.endpoint
  rw [ends_openSocket]
  rcases hopen : s.network.openSocket deadline s.connection.endpoint with ⟨result, network⟩
  rw [hopen] at hlapse hopened
  cases result with
  | ok socket =>
    obtain ⟨k, d, hplace, hsockets, rfl⟩ := hopened
    exact ⟨k, d, hplace, rfl, hsockets, hlapse.le⟩
  | error reason => exact fallsShort_breakWith hopened hlapse

/-- The script decides what is received. -/
theorem ends_awaitResponse_reading {socket : Socket} (shape : Shape)
    (hlink : s.connection.link = .up socket []) (hpeer : socket.isHosted = false)
    (hlasts : Pause.Lasts (socket.arrivals.flatMap Timed.pauses) ns) (deadline : Deadline) :
    Ends (awaitResponse shape deadline) s
      (fun r s' => ReturnsAs s.connection.endpoint (socket.arrivals.reading shape []) r s' ∧
        s'.network.sockets = s.network.sockets)
      (FallsShort deadline s.network.clock ns s.connection.endpoint
        (socket.arrivals.reading shape [])) := by
  obtain ⟨hreading, hlapse⟩ :=
    receive_reading shape hlasts deadline socket.descriptor [] s.network
  obtain ⟨b, hconveys, -⟩ :=
    conveys_receive deadline shape socket.descriptor socket.arrivals [] s.network
  rw [ends_awaitResponse hlink, settle_of_not_hosted hpeer]
  dsimp only
  rcases hreceive : s.network.receive deadline shape socket.descriptor socket.arrivals [] with
    ⟨result, network⟩
  rw [hreceive] at hreading hlapse hconveys
  cases result with
  | ok received => exact ⟨⟨(hreading nofun).symm, rfl, rfl⟩, hconveys.sockets_eq⟩
  | error reason => exact fallsShort_breakWith (fun hlate => (hreading hlate).symm) hlapse

/-- A connection to an endpoint that is not up. The next attempt to open it leads to a peer in its
own right, whose script is read. -/
structure Approaches (endpoint : Endpoint) (attempt : Attempt) (script : Script Arrival)
    (s : Session) : Prop where
  endpoint_eq : s.connection.endpoint = endpoint
  state_ne : s.connection.link.state ≠ .connected
  next_eq : s.network.nextAttempt.1 = { attempt with arrivals := some script }

/-- The deadline that connecting sets. -/
def connectDeadline (s : Session) : Deadline :=
  Deadline.after s.network.clock s.connection.connectTimeout

/-- The attempt decides how connecting ends, if there is time enough for its delays. -/
theorem ends_connect_course (h : s.Approaches endpoint attempt script)
    (hplain : ∀ a ∈ attempt.addresses, a.IsPlain)
    (hlasts : Pause.Lasts (script.flatMap Timed.pauses) ns) :
    Ends connect s
      (fun _ s' => ∃ k, ReturnsAs endpoint (attempt.course s.connectDeadline.isSome endpoint script)
        k s' ∧ s'.network.sockets = s.network.sockets + k)
      (FallsShort s.connectDeadline s.network.clock (attempt.duration ns) endpoint
        (attempt.course s.connectDeadline.isSome endpoint script)) := by
  obtain ⟨rfl, hstate, hnext⟩ := h
  have hnoted : (s.addNote .debug (Bytes.ascii "connecting to " ++
      s.connection.endpoint.text)).connection = s.connection := addNote_connection _ _ _
  have hsame := addNote_network s .debug
    (Bytes.ascii "connecting to " ++ s.connection.endpoint.text)
  have hduration : attempt.duration ns = attempt.duration 0 + ns := rfl
  rw [ends_connect_greeting (Link.socket?_eq_none hstate)]
  rw [← hsame] at hnext
  have hopens := ends_openSocket_place hnext hplain s.connectDeadline
  rw [hnoted, hsame] at hopens
  refine (hopens.mono (fun _ _ h => h) fun _ _ hfails => hfails.bind _ (by omega)).bind ?_
  rintro _ opened ⟨k, d, hplace, hopened, hsockets, hclock⟩
  have hup : opened.connection.link = .up ⟨d, script, attempt.departures, false⟩ [] := by
    rw [hopened]
  have hendpoint : opened.connection.endpoint = s.connection.endpoint := by rw [hopened]
  have hreads := ends_awaitResponse_reading .ack hup rfl hlasts s.connectDeadline
  rw [hendpoint] at hreads
  unfold Attempt.course
  rw [hplace]
  refine hreads.mono ?_ fun _ _ hfails => ((hfails.bind _ le_rfl).bind _ le_rfl).since hclock
  rintro r greeted ⟨⟨hreading, hgreeted, hconnected⟩, hasked⟩
  cases r with
  | ok payload =>
    have hgreeting : script.greeting = .ok () := by
      unfold Script.greeting
      rw [hreading]
      rfl
    refine ends_note.2 ⟨k, ⟨?_, ?_, ?_⟩, ?_⟩
    · rw [hgreeting]
      rfl
    · rw [addNote_connection, hgreeted]
    · rw [addNote_connection, hconnected]
    · rw [addNote_network, hasked, hsockets]
  | refused refusal =>
    have hgreeting : script.greeting = .error (.rejected refusal) := by
      unfold Script.greeting
      rw [hreading]
      rfl
    refine ends_breakDown.2 (.of_failsAs ?_ (show Failure.Kind.protocol ≠ .timeout by decide))
    rw [hgreeting, ← hgreeted]
    exact failsAs_breakWith greeted _

/-! ### What is seen of connecting -/

/-- Connecting, with the place of the address that is connected to: one socket was asked for at
each address up to it. -/
def connectPlace : Action Nat := do
  let s ← get
  connect
  return (← get).network.sockets - s.network.sockets

/-- What is seen of a call: what it returns, or the kind and the wording of its failure, and what
the connection looks like then. -/
def seen (shown : Except Failure α × Client.Appearance) :
    Except (Failure.Kind × Bytes) α × Client.Appearance :=
  (shown.1.mapError fun failure => (failure.kind, failure.message), shown.2)

/-- What is seen of connecting. -/
def sight (s : Session) : Except (Failure.Kind × Bytes) Nat × Client.Appearance :=
  seen (outcome connectPlace s)

/-- Connecting fails for want of time. -/
def TimesOut (s : Session) : Prop :=
  Ends connect s (fun _ _ => False) fun failure _ => failure.kind = .timeout

theorem ends_connectPlace {done : Nat → Session → Prop} {failed : Failure → Session → Prop} :
    Ends connectPlace s done failed ↔
      Ends connect s (fun _ s' => done (s'.network.sockets - s.network.sockets) s') failed := by
  unfold connectPlace
  rw [ends_get, ends_bind]
  exact Iff.rfl

theorem TimesOut.exists_error (h : TimesOut s) :
    ∃ failure, connect s = .error failure (after connect s) ∧ failure.kind = .timeout := by
  unfold TimesOut Ends at h
  unfold after
  cases hconnect : connect s with
  | ok u s' =>
    rw [hconnect] at h
    exact h.elim
  | error failure s' =>
    rw [hconnect] at h
    exact ⟨failure, rfl, h⟩

/-- To fail for want of time is to be seen to do so. -/
theorem timesOut_iff : TimesOut s ↔ ∃ text, (sight s).1 = .error (.timeout, text) := by
  have hplace : TimesOut s ↔ Ends connectPlace s (fun _ _ => False)
      fun failure _ => failure.kind = .timeout := by
    rw [ends_connectPlace]
    exact Iff.rfl
  rw [hplace]
  unfold Ends sight seen outcome
  cases connectPlace s with
  | ok k s' => exact ⟨False.elim, nofun⟩
  | error failure s' =>
    refine ⟨fun hkind => ⟨failure.message, ?_⟩, ?_⟩
    · exact congrArg Except.error (Prod.ext hkind rfl)
    · rintro ⟨text, htext⟩
      exact (Prod.ext_iff.1 (Except.error.inj htext)).1

/-- With time enough, the attempt decides what is seen. -/
theorem sight_eq (h : s.Approaches endpoint attempt script)
    (hplain : ∀ a ∈ attempt.addresses, a.IsPlain)
    (hlasts : Pause.Lasts (script.flatMap Timed.pauses) ns) (hlate : ¬TimesOut s) :
    sight s =
      seen (reported endpoint (attempt.course s.connectDeadline.isSome endpoint script)) := by
  refine congrArg seen (EndsAs.outcome_eq ?_)
  have hends := ends_connect_course h hplain hlasts
  unfold EndsAs
  rw [ends_connectPlace]
  unfold TimesOut at hlate
  unfold Ends at *
  cases hconnect : connect s with
  | ok u s' =>
    rw [hconnect] at hends
    obtain ⟨k, hreturns, hsockets⟩ := hends
    dsimp only
    rwa [hsockets, Nat.add_sub_cancel_left]
  | error failure s' =>
    rw [hconnect] at hends hlate
    exact hends.failsAs hlate

/-- To fail for want of time takes a deadline, and less time than the attempt would. -/
theorem early_of_timesOut (h : s.Approaches endpoint attempt script)
    (hplain : ∀ a ∈ attempt.addresses, a.IsPlain)
    (hlasts : Pause.Lasts (script.flatMap Timed.pauses) ns) (hlate : TimesOut s) :
    s.connectDeadline.isSome ∧
      (after connect s).network.clock < s.network.clock + attempt.duration ns := by
  obtain ⟨failure, herror, hkind⟩ := hlate.exists_error
  have hends := ends_connect_course h hplain hlasts
  unfold Ends at hends
  rw [herror] at hends
  exact hends.early hkind

end Session

/-! ### The two ways -/

/-- Why a stream is not a greeting. -/
def Breakdown.OfGreeting : Breakdown → Prop
  | .closed | .closedMidResponse | .receiveFailed _ | .invalidResponse _ | .rejected _ => True
  | _ => False

namespace Script

variable {script : Script Arrival} {reason : Breakdown}

theorem ofGreeting_endOfStream (pending : Bytes) : (Network.endOfStream pending).OfGreeting := by
  unfold Network.endOfStream
  split <;> trivial

theorem ofGreeting_of_reading {shape : Shape} {pending : Bytes}
    (h : script.reading shape pending = .error reason) : reason.OfGreeting := by
  fun_induction Script.reading shape script pending with
  | case1 => cases h
  | case2 | case8 =>
    obtain rfl := Except.error.inj h
    trivial
  | case3 | case4 | case5 =>
    obtain rfl := Except.error.inj h
    exact ofGreeting_endOfStream _
  | case6 | case7 =>
    rename_i ih
    exact ih h

theorem ofGreeting_of_greeting (h : script.greeting = .error reason) : reason.OfGreeting := by
  unfold greeting at h
  cases hreading : script.reading .ack [] with
  | error other =>
    rw [hreading] at h
    obtain rfl := Except.error.inj h
    exact ofGreeting_of_reading hreading
  | ok r =>
    rw [hreading] at h
    cases r with
    | ok payload => cases h
    | refused refusal =>
      obtain rfl := Except.error.inj h
      trivial

end Script

/-- An address that cannot be reached is told from a stream that is not a greeting. -/
theorem Breakdown.OfGreeting.text_ne {reason : Breakdown} (h : reason.OfGreeting)
    (endpoint : Endpoint) (obstacle : Obstacle) :
    (Breakdown.unreachable endpoint obstacle).text ≠ reason.text := by
  cases reason with
  | closed | closedMidResponse | receiveFailed | invalidResponse | rejected =>
    simp [Breakdown.text, Bytes.ascii]
  | _ => exact h.elim

namespace Attempt

variable {a : Attempt} {script : Script Arrival} {endpoint : Endpoint}

/-- An attempt that comes to the same with a deadline and without one: the first of its addresses
that would connect is not interrupted, or it does not matter which of them connects, because there
is one and the greeting fails. -/
def IsAlike (a : Attempt) (script : Script Arrival) : Prop :=
  ∀ first, Address.first? a.addresses = some first → first.isInterrupted = true →
    (∃ reason, script.greeting = .error reason) ∧ a.addresses.any Address.isOpen = true

theorem course_of_place {isBounded : Bool} {k : Nat} (h : a.place isBounded endpoint = .ok k) :
    a.course isBounded endpoint script = script.greeting.map fun _ => k := by
  unfold course
  rw [h]
  cases script.greeting <;> rfl

theorem course_of_error {isBounded : Bool} {reason : Breakdown}
    (h : a.place isBounded endpoint = .error reason) :
    a.course isBounded endpoint script = .error reason := by
  unfold course
  rw [h]
  rfl

/-- Both ways take the same address, or fail alike, unless the first address that would connect is
interrupted: then one of them takes it, and the other takes a later one or fails. -/
theorem place_cases (hplain : ∀ address ∈ a.addresses, address.IsPlain) (endpoint : Endpoint) :
    (a.place true endpoint = a.place false endpoint ∧
      ∀ first, Address.first? a.addresses = some first → first.isInterrupted = false) ∨
    ∃ first k, Address.first? a.addresses = some first ∧ first.isInterrupted = true ∧
      a.place false endpoint = .ok k ∧
      ((a.addresses.any Address.isOpen = true ∧ ∃ k', a.place true endpoint = .ok k' ∧ k < k') ∨
        a.addresses.any Address.isOpen = false ∧
          ∃ last, a.place true endpoint = .error (.unreachable endpoint last)) := by
  unfold place addresses at *
  cases hresolution : a.resolution with
  | error e => exact .inl ⟨rfl, by simp⟩
  | ok addresses =>
    rw [hresolution] at hplain
    cases addresses with
    | nil => exact .inl ⟨rfl, by simp⟩
    | cons address more =>
      dsimp only at *
      rcases Address.place_alike hplain .noAddress with
        ⟨hsame, hfirst⟩ | ⟨first, k, hfirst, hsignal, hfree, hfound⟩
      · exact .inl ⟨by rw [hsame], hfirst⟩
      · rw [hfree]
        refine .inr ⟨first, k, hfirst, hsignal, rfl, ?_⟩
        cases hplace : Address.place true .noAddress (address :: more) with
        | ok k' =>
          rw [hplace] at hfound
          exact .inl ⟨hfound.1, k', rfl, hfound.2⟩
        | error last =>
          rw [hplace] at hfound
          exact .inr ⟨hfound, last, rfl⟩

/-- An attempt is seen to come to the same in both ways exactly if it is alike in both. -/
theorem seen_course_iff (hplain : ∀ address ∈ a.addresses, address.IsPlain) (endpoint : Endpoint) :
    Session.seen (Session.reported endpoint (a.course true endpoint script)) =
        Session.seen (Session.reported endpoint (a.course false endpoint script)) ↔
      a.IsAlike script := by
  unfold IsAlike
  rcases place_cases hplain endpoint with ⟨hsame, hfirst⟩ | ⟨first, k, hfirst, hsignal, hfree,
    ⟨hopen, k', hbounded, hlt⟩ | ⟨hopen, last, hbounded⟩⟩
  · have hcourse : a.course true endpoint script = a.course false endpoint script := by
      unfold course
      rw [hsame]
    rw [hcourse]
    refine iff_of_true rfl fun first h hsignal => ?_
    rw [hfirst first h] at hsignal
    cases hsignal
  · -- Another address connects: which one it is shows unless the greeting fails.
    rw [course_of_place hbounded, course_of_place hfree, hfirst, hopen]
    cases hgreeting : script.greeting with
    | ok u =>
      refine iff_of_false (fun h => ?_) fun h => ?_
      · have hplace : k' = k := Except.ok.inj (Prod.ext_iff.1 h).1
        omega
      · obtain ⟨⟨reason, hreason⟩, -⟩ := h first rfl hsignal
        cases hreason
    | error reason => exact iff_of_true rfl fun _ _ _ => ⟨⟨reason, rfl⟩, rfl⟩
  · -- No other address connects.
    rw [course_of_error hbounded, course_of_place hfree, hfirst, hopen]
    refine iff_of_false (fun h => ?_) fun h => absurd (h first rfl hsignal).2 Bool.false_ne_true
    cases hgreeting : script.greeting with
    | ok u =>
      rw [hgreeting] at h
      cases (Prod.ext_iff.1 h).1
    | error reason =>
      rw [hgreeting] at h
      exact (Script.ofGreeting_of_greeting hgreeting).text_ne endpoint last
        (congrArg (fun shown => shown.2.lastError) h)

end Attempt

namespace Session

variable {s t : Session} {endpoint : Endpoint} {attempt : Attempt} {script : Script Arrival}
  {ns : Nat}

/-- There is time enough if the timeout is longer than the attempt, by the part of a millisecond
that rounding may lose, and the attempt is not longer than the longest wait. -/
theorem not_timesOut (h : s.Approaches endpoint attempt script)
    (hplain : ∀ a ∈ attempt.addresses, a.IsPlain)
    (hlasts : Pause.Lasts (script.flatMap Timed.pauses) ns)
    (hfits : Fits s.network.clock s.connection.connectTimeout)
    (hlong : (attempt.duration ns : Int) + 999999 ≤ milliseconds s.connection.connectTimeout)
    (hshort : (attempt.duration ns : Int) ≤ milliseconds longestWait) : ¬TimesOut s := by
  intro hlate
  obtain ⟨failure, herror, hkind⟩ := hlate.exists_error
  obtain ⟨-, hearly⟩ := early_of_timesOut h hplain hlasts hlate
  have hbefore := Int.sub_pos_of_lt hearly
  have hstart : 0 ≤ s.network.resolvedAt - s.network.clock :=
    Int.sub_nonneg_of_le (le_add_nanoseconds _ _)
  have hduration := hfits.duration_lt
  have hkeeps := keepsTo_connect hfits h.state_ne
  unfold KeepsTo Ends at hkeeps
  rw [herror] at hkeeps
  -- Either nearly all of the timeout was waited for, or all of the longest wait.
  rcases hkeeps.isUp hkind (by omega) with hleft | hlong
  · unfold milliseconds at *
    omega
  · omega

/-- Connecting with a timeout and without one, by the same attempt, is seen to come to the same
exactly if there is time enough and the attempt is alike in both ways. There is time enough if the
timeout is longer than all the delays, by the part of a millisecond that rounding may lose, and no
wait is cut off. -/
theorem connect_alike_iff (hs : s.Approaches endpoint attempt script)
    (ht : t.Approaches endpoint attempt script) (hplain : ∀ a ∈ attempt.addresses, a.IsPlain)
    (hlasts : Pause.Lasts (script.flatMap Timed.pauses) ns)
    (hbounded : 0 < s.connection.connectTimeout) (hfree : t.connection.connectTimeout ≤ 0) :
    (sight s = sight t ↔ ¬TimesOut s ∧ attempt.IsAlike script) ∧
    (Fits s.network.clock s.connection.connectTimeout →
      (attempt.duration ns : Int) + 999999 ≤ milliseconds s.connection.connectTimeout →
      (attempt.duration ns : Int) ≤ milliseconds longestWait → ¬TimesOut s) := by
  have hdeadline : s.connectDeadline.isSome = true := by
    rw [connectDeadline, Deadline.after, if_neg (by omega)]
    rfl
  have hnone : t.connectDeadline = none := if_pos hfree
  have hpatient : ¬TimesOut t := fun hlate => by
    have hsome := (early_of_timesOut ht hplain hlasts hlate).1
    rw [hnone] at hsome
    cases hsome
  have htsight := sight_eq ht hplain hlasts hpatient
  rw [hnone] at htsight
  refine ⟨?_, not_timesOut hs hplain hlasts⟩
  by_cases hlate : TimesOut s
  · refine iff_of_false (fun hsame => hpatient ?_) fun h => h.1 hlate
    rw [timesOut_iff] at hlate ⊢
    rwa [← hsame]
  · have hssight := sight_eq hs hplain hlasts hlate
    rw [hdeadline] at hssight
    rw [hssight, htsight]
    exact (Attempt.seen_course_iff hplain endpoint).trans (and_iff_right hlate).symm

/-- A connection to be opened by an attempt, within so many milliseconds if they are positive. -/
def calling (timeout : Int) (attempt : Attempt) : Session :=
  { connection := { endpoint := {}, connectTimeout := timeout },
    network := { attempts := [attempt] } }

theorem approaches_calling (timeout : Int) (attempt : Attempt) (script : Script Arrival) :
    (calling timeout { attempt with arrivals := some script }).Approaches {} attempt script :=
  ⟨rfl, nofun, rfl⟩

/-- A name that takes a while to resolve, a first address that refuses, a second one that is slow,
and a slow greeting: with a timeout and without one, the second address is connected to. -/
theorem connect_alike_iff_pending :
    ∃ s t : Session, Fits s.network.clock s.connection.connectTimeout ∧
      s.connection.connectTimeout = 500 ∧ t.connection.connectTimeout = 0 ∧
      sight s = sight t ∧ sight s = (.ok 2, { state := .connected }) := by
  let addresses : List Address :=
    [.failing .connect .connectionRefused, .pending 30 2, .failing .connect .interrupted]
  let attempt : Attempt := { delay := 20, resolution := .ok addresses }
  let script : Script Arrival := [⟨[.delay ⟨40500000⟩, .failed .interrupted], .segment [0x21]⟩]
  let s := calling 500 { attempt with arrivals := some script }
  let t := calling 0 { attempt with arrivals := some script }
  have hfits : Fits s.network.clock s.connection.connectTimeout :=
    ⟨by decide, by decide, by decide, by decide⟩
  have hplain : ∀ a ∈ attempt.addresses, a.IsPlain := by
    simp [attempt, addresses, Attempt.addresses, Address.IsPlain]
  have hlasts : Pause.Lasts (script.flatMap Timed.pauses) 40500000 :=
    .delay _ (.signal .nil)
  have halike : attempt.IsAlike script := by
    rintro first ⟨⟩ hsignal
    cases hsignal
  obtain ⟨hsame, htime⟩ := connect_alike_iff (approaches_calling 500 attempt script)
    (approaches_calling 0 attempt script) hplain hlasts (by decide) (by decide)
  refine ⟨s, t, hfits, rfl, rfl, hsame.2 ⟨htime hfits (by decide) (by decide), halike⟩, ?_⟩
  decide +kernel

/-- A call to connect that a signal interrupts, a second of time, and no delay at all: the only
address is connected to without a timeout, and given up with one. -/
theorem connect_not_alike :
    ∃ (attempt : Attempt) (script : Script Arrival) (s t : Session),
      s.Approaches {} attempt script ∧ t.Approaches {} attempt script ∧
      (∀ a ∈ attempt.addresses, a.IsPlain) ∧
      Pause.Lasts (script.flatMap Timed.pauses) 0 ∧
      Fits s.network.clock s.connection.connectTimeout ∧
      attempt.duration 0 < milliseconds s.connection.connectTimeout ∧
      t.connection.connectTimeout = 0 ∧
      (sight t).1 = .ok 1 ∧ (sight s).1 = .error (.connection, Bytes.ascii
        "failed to connect to paper://:3145: connect: Interrupted system call") := by
  let attempt : Attempt := { resolution := .ok [.failing .connect .interrupted] }
  let script : Script Arrival := [⟨[], .segment [0x21]⟩]
  have hplain : ∀ a ∈ attempt.addresses, a.IsPlain := by
    simp [attempt, Attempt.addresses, Address.IsPlain]
  refine ⟨attempt, script, calling 1000 { attempt with arrivals := some script },
    calling 0 { attempt with arrivals := some script }, approaches_calling _ _ _,
    approaches_calling _ _ _, hplain, .nil, ⟨by decide, by decide, by decide, by decide⟩, ?_, rfl,
    ?_, ?_⟩
  · decide
  · decide +kernel
  · decide +kernel

end Session

end RemoteCache
