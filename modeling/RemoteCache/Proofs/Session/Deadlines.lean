import RemoteCache.Proofs.Network.Deadlines
import RemoteCache.Proofs.Session.Hosted

/-!
# Calls before a deadline

A request and its response share one deadline, and so do all the parts of opening a connection. A
request is done with when its deadline passes, whatever the network does meanwhile. Opening a
connection may take longer, but only because nothing cuts the resolution of a name short.

No call waits longer at a time than the longest wait. So a timeout that is longer than that does
not have the effect that it says: the call may fail before the deadline, for want of time.

## Main definitions

* `Session.KeepsTo` — a call that spends time up to a limit
* `Session.Patient` — a call that does not fail for want of time as long as a millisecond is left

## Main results

* `Session.keepsTo_roundTrip`, `Session.keepsTo_connect` — calls keep to their deadlines
* `Session.roundTrip_in_time` — a request is done with in time
* `Session.connect_in_time_iff` — opening a connection is, exactly if the name is resolved in time
* `Session.patient_iff` — calls are patient exactly if their timeouts fit into one wait
-/

namespace RemoteCache.Session

open Deadline Network

variable {α β : Type} {s : Session} {limit start : Int}

/-! ### Parts of calls -/

/-- An action that starts at some instant, spends time up to a limit, and fails for want of time
only when it is up. -/
def KeepsTo (limit start : Int) (a : Action α) (s : Session) : Prop :=
  Ends a s (fun _ s' => Spends limit start s'.network.clock)
    fun failure s' => Keeps limit (failure.kind = .timeout) start s'.network.clock

/-- The time that was spent before counts as well. -/
theorem KeepsTo.since {a : Action α} (h : KeepsTo limit s.network.clock a s)
    (hspent : Spends limit start s.network.clock) : KeepsTo limit start a s :=
  h.mono (fun _ _ hmore => hspent.trans hmore) fun _ _ hmore => hspent.trans_keeps hmore

/-- One action after another, each of which keeps to the limit. -/
theorem KeepsTo.bind {a : Action α} {next : α → Action β} (h : KeepsTo limit start a s)
    (hnext : ∀ x s', KeepsTo limit s'.network.clock (next x) s') :
    KeepsTo limit start (a >>= next) s :=
  Ends.bind h fun x s' hspent => (hnext x s').since hspent

theorem KeepsTo.spends_after {a : Action α} (h : KeepsTo limit start a s) :
    Spends limit start (after a s).network.clock :=
  Ends.after (P := fun s' => Spends limit start s'.network.clock)
    (h.mono (fun _ _ hspent => hspent) fun _ _ hkeeps => hkeeps.spends)

theorem clock_breakWith (s : Session) (reason : Breakdown) :
    (s.breakWith reason).network.clock = s.network.clock :=
  (congrArg Network.clock (scene_breakWith s reason) :)

theorem isLate_iff {reason : Breakdown} :
    IsLate (.error reason : Except Breakdown α) ↔ reason.failure.kind = .timeout := by
  cases reason <;> rfl

theorem keeps_breakWith {network : Network} {reason : Breakdown}
    (h : Keeps limit (IsLate (.error reason : Except Breakdown α)) start network.clock) :
    Keeps limit (reason.failure.kind = .timeout) start
      ({ s with network }.breakWith reason).network.clock := by
  rw [clock_breakWith]
  exact ⟨h.spends, fun hlate => h.isUp (isLate_iff.2 hlate)⟩

/-- A refused greeting breaks the connection, but not for want of time. -/
theorem keepsTo_breakDown_rejected (refusal : Refusal) :
    KeepsTo limit s.network.clock (breakDown (.rejected refusal) : Action α) s := by
  refine ends_breakDown.2 (.of_spends ?_ (show Failure.Kind.protocol ≠ .timeout by decide))
  rw [clock_breakWith]
  exact .refl _ _

theorem keepsTo_note (level : Level) (message : Bytes) :
    KeepsTo limit s.network.clock (note level message) s := by
  refine ends_note.2 ?_
  rw [addNote_network]
  exact .refl _ _

theorem keepsTo_openSocket : KeepsTo limit s.network.resolvedAt (openSocket (some limit)) s := by
  have hkeeps := keeps_openSocket limit s.connection.endpoint s.network
  unfold KeepsTo
  rw [ends_openSocket]
  rcases hopen : s.network.openSocket (some limit) s.connection.endpoint with ⟨result, network⟩
  rw [hopen] at hkeeps
  cases result with
  | ok socket => exact hkeeps.spends
  | error reason => exact keeps_breakWith hkeeps

theorem keepsTo_sendRequest (frame : Bytes) :
    KeepsTo limit s.network.clock (sendRequest frame (some limit)) s := by
  unfold KeepsTo
  cases hlink : s.connection.link with
  | up socket pending =>
    have hkeeps := keeps_sendAll limit socket socket.departures frame s.network
    rw [ends_sendRequest hlink]
    rcases hsend : s.network.sendAll (some limit) socket socket.departures frame with
      ⟨result, network⟩
    rw [hsend] at hkeeps
    cases result with
    | ok departures => exact hkeeps.spends
    | error reason => exact keeps_breakWith hkeeps
  | idle | down =>
    unfold sendRequest
    rw [ends_get, hlink]
    exact .of_spends (.refl limit _) nofun

theorem keepsTo_awaitResponse (shape : Shape) :
    KeepsTo limit s.network.clock (awaitResponse shape (some limit)) s := by
  unfold KeepsTo
  cases hlink : s.connection.link with
  | up socket pending =>
    have hclock := clock_settle s.network (some limit) socket
    rw [ends_awaitResponse hlink]
    rcases hsettle : s.network.settle (some limit) socket with ⟨settled, network⟩
    have hkeeps := keeps_receive limit shape settled.descriptor settled.arrivals pending network
    rw [hsettle] at hclock
    rw [show network.clock = s.network.clock from hclock] at hkeeps
    dsimp only
    rcases hreceive : network.receive (some limit) shape settled.descriptor settled.arrivals pending
      with ⟨result, network'⟩
    rw [hreceive] at hkeeps
    cases result with
    | ok received => exact hkeeps.spends
    | error reason => exact keeps_breakWith hkeeps
  | idle | down =>
    unfold awaitResponse
    rw [ends_get, hlink]
    exact .of_spends (.refl limit _) nofun

/-! ### Requests -/

/-- A request and its response keep to the deadline that is set when the request is sent. -/
theorem keepsTo_roundTrip (h : Fits s.network.clock s.connection.timeout) (command : Command) :
    KeepsTo (s.network.clock + milliseconds s.connection.timeout) s.network.clock
      (roundTrip command) s := by
  unfold KeepsTo
  cases hlink : s.connection.link with
  | idle => exact (ends_roundTrip_idle hlink).2 (.of_spends (.refl _ _) nofun)
  | down reason => exact (ends_roundTrip_down hlink).2 (.of_spends (.refl _ _) nofun)
  | up socket pending =>
    cases hcheck : command.check with
    | error fault =>
      exact (ends_roundTrip_of_check hlink hcheck).2 (.of_spends (.refl _ _) nofun)
    | ok =>
      by_cases hpending : pending = []
      · subst hpending
        -- The deadline is set before the request is noted, which takes no time.
        rw [ends_roundTrip_up hcheck hlink, h.after_eq, ← noteRequest_network command s]
        exact (keepsTo_sendRequest _).bind fun _ _ => keepsTo_awaitResponse _
      · rw [ends_roundTrip_pending hcheck hlink hpending, clock_breakWith]
        exact .of_spends (.refl _ _) nofun

/-- A request is done with, in one way or another, when its deadline passes: its waits may be cut
up as the network likes, by short writes, signals, segments and delays. -/
theorem roundTrip_in_time (h : Fits s.network.clock s.connection.timeout) (command : Command) :
    s.network.clock ≤ (after (roundTrip command) s).network.clock ∧
      (after (roundTrip command) s).network.clock ≤
        s.network.clock + milliseconds s.connection.timeout := by
  have hspent := (keepsTo_roundTrip h command).spends_after
  exact ⟨hspent.start_le, hspent.le_of_le (Int.le_add_of_nonneg_right h.nonneg)⟩

/-- A request that is written in two parts and interrupted, and a response that comes too slowly.
When the third part of it is waited for, 9.6 of the 50 milliseconds are left, and 9 are waited
for. -/
theorem roundTrip_in_time_drip :
    ∃ s : Session, Fits s.network.clock s.connection.timeout ∧ s.connection.timeout = 50 ∧
      s.connection.link.state = .connected ∧
      (after (roundTrip (.get [107])) s).network.clock ≤ s.network.clock + milliseconds 50 ∧
      (after (roundTrip (.get [107])) s).network.clock = s.network.clock + 49400000 ∧
      (after (roundTrip (.get [107])) s).connection.link = .down .receiveTimedOut := by
  let departures : Script Departure :=
    [⟨[.delay ⟨10300000⟩], .accept (some 2)⟩, ⟨[.failed .interrupted], .failed .interrupted⟩]
  let arrivals : Script Arrival := [⟨[.delay ⟨10100000⟩, .failed .interrupted], .segment [0x21]⟩,
    ⟨[.delay 20], .segment [4, 0]⟩, ⟨[.delay 20], .segment [0, 0, 112, 111, 110, 103]⟩]
  let s : Session :=
    { connection :=
        { endpoint := {}, timeout := 50, link := .up ⟨3, arrivals, departures, false⟩ [] } }
  have hfits : Fits s.network.clock s.connection.timeout :=
    ⟨by decide, by decide, by decide, by decide⟩
  exact ⟨s, hfits, rfl, rfl, (roundTrip_in_time hfits (.get [107])).2, by decide +kernel,
    by decide +kernel⟩

/-! ### Opening a connection -/

/-- Opening a connection keeps to its deadline from the instant on at which the name is resolved. -/
theorem keepsTo_connect (h : Fits s.network.clock s.connection.connectTimeout)
    (hlink : s.connection.link.state ≠ .connected) :
    KeepsTo (s.network.clock + milliseconds s.connection.connectTimeout) s.network.resolvedAt
      connect s := by
  unfold KeepsTo
  rw [ends_connect_greeting (Link.socket?_eq_none hlink), h.after_eq,
    ← addNote_network s .debug (Bytes.ascii "connecting to " ++ s.connection.endpoint.text)]
  refine (keepsTo_openSocket.bind fun _ _ => keepsTo_awaitResponse _).mono ?_ fun _ _ h => h
  intro r greeted hspent
  cases r with
  | refused refusal => exact (keepsTo_breakDown_rejected refusal).since hspent
  | ok payload => exact (keepsTo_note _ _).since hspent

/-- To open a connection ends in time, in one way or another, exactly if the name is resolved in
time: all that comes after that keeps to the deadline. If it takes longer to resolve the name, then
nothing that comes after that takes any time. -/
theorem connect_in_time_iff (h : Fits s.network.clock s.connection.connectTimeout)
    (hlink : s.connection.link.state ≠ .connected) :
    ((after connect s).network.clock ≤
        s.network.clock + milliseconds s.connection.connectTimeout ↔
      s.network.nextAttempt.1.delay.nanoseconds ≤ milliseconds s.connection.connectTimeout) ∧
    (s.network.nextAttempt.1.delay.nanoseconds < 2 ^ 63 →
      milliseconds s.connection.connectTimeout ≤ s.network.nextAttempt.1.delay.nanoseconds →
      (after connect s).network.clock = s.network.resolvedAt) := by
  have hspent := (keepsTo_connect h hlink).spends_after
  have hstart := hspent.start_le
  -- The deadline and the resolution, as they lie to each other.
  have horder : s.network.resolvedAt ≤
        s.network.clock + milliseconds s.connection.connectTimeout ↔
      s.network.nextAttempt.1.delay.nanoseconds ≤ milliseconds s.connection.connectTimeout := by
    unfold resolvedAt
    omega
  refine ⟨⟨fun hle => horder.1 (hstart.trans hle), fun hle => hspent.le_of_le (horder.2 hle)⟩, ?_⟩
  intro hfits hle
  refine le_antisymm ((hspent.le_limit ?_).trans_eq (max_eq_left ?_)) hstart
  · have := h.nonneg
    unfold resolvedAt
    omega
  · unfold resolvedAt
    omega

/-- A name that is resolved in time, an address that answers slowly and a late greeting; and a name
that is resolved when the deadline has passed. -/
theorem connect_in_time_iff_pending :
    ∃ s t : Session, Fits s.network.clock s.connection.connectTimeout ∧
      Fits t.network.clock t.connection.connectTimeout ∧
      s.connection.connectTimeout = 500 ∧ t.connection.connectTimeout = 500 ∧
      s.connection.link.state ≠ .connected ∧ t.connection.link.state ≠ .connected ∧
      s.network.nextAttempt.1.delay = 20 ∧ t.network.nextAttempt.1.delay = 700 ∧
      (after connect s).network.clock ≤ milliseconds 500 ∧
      (after connect s).network.clock = milliseconds 90 ∧
      (after connect s).connection.link.state = .connected ∧
      (after connect t).network.clock = t.network.resolvedAt ∧
      t.network.resolvedAt = milliseconds 700 := by
  let calling (attempt : Attempt) : Session :=
    { connection := { endpoint := {}, connectTimeout := 500 },
      network := { attempts := [attempt] } }
  let s := calling { delay := 20, resolution := .ok [.pending 30 0],
                     arrivals := some [⟨[.delay 40], .segment [0x21]⟩] }
  let t := calling { delay := 700, resolution := .ok [.silent] }
  have hs : Fits s.network.clock s.connection.connectTimeout :=
    ⟨by decide, by decide, by decide, by decide⟩
  have ht : Fits t.network.clock t.connection.connectTimeout :=
    ⟨by decide, by decide, by decide, by decide⟩
  have hidle (attempt : Attempt) : (calling attempt).connection.link.state ≠ .connected := nofun
  exact ⟨s, t, hs, ht, rfl, rfl, hidle _, hidle _, rfl, rfl,
    (connect_in_time_iff hs (hidle _)).1.2 (by decide), by decide +kernel, by decide +kernel,
    (connect_in_time_iff ht (hidle _)).2 (by decide) (by decide), by decide⟩

/-- A name that takes a second to resolve, and half a second for all of the connection: the peer is
there and has greeted by then, and connecting succeeds half a second after its deadline. -/
theorem connect_after_deadline :
    ∃ s s' : Session, Fits s.network.clock s.connection.connectTimeout ∧
      s.connection.link.state ≠ .connected ∧ connect s = .ok () s' ∧
      s'.connection.link.state = .connected ∧
      s.network.clock + milliseconds s.connection.connectTimeout + milliseconds 500 =
        s'.network.clock := by
  let s : Session :=
    { connection := { endpoint := {}, connectTimeout := 500 },
      network := { attempts := [{ delay := 1000, arrivals := some [⟨[], .segment [0x21]⟩] }] } }
  refine ⟨s, after connect s, ⟨by decide, by decide, by decide, by decide⟩, nofun, ?_, ?_, ?_⟩
  · rfl
  · decide +kernel
  · decide +kernel

/-! ### Patience -/

/-- An action that fails for want of time only when less than a millisecond is left. -/
def Patient (limit : Int) (a : Action α) (s : Session) : Prop :=
  Ends a s (fun _ _ => True)
    fun failure s' => failure.kind = .timeout → limit - s'.network.clock < milliseconds 1

instance {a : Action α} : Decidable (Patient limit a s) :=
  inferInstanceAs (Decidable (Ends a s _ _))

theorem Patient.mono {limit' : Int} {a : Action α} (h : Patient limit a s) (hle : limit' ≤ limit) :
    Patient limit' a s :=
  Ends.mono h (fun _ _ h => h) fun _ _ hlate htimeout => by
    have := hlate htimeout
    omega

/-- What keeps to a limit is patient, but not for longer than the longest wait. -/
theorem KeepsTo.patient {a : Action α} (h : KeepsTo limit start a s)
    (hfits : limit - start < 2 ^ 63) :
    Patient (min limit (start + milliseconds longestWait)) a s := by
  refine h.mono (fun _ _ _ => trivial) fun failure s' hkeeps htimeout => ?_
  rcases hkeeps.isUp htimeout hfits with hleft | hlong
  · omega
  · unfold milliseconds at *
    omega

/-- The earlier of a deadline and the end of the longest wait. -/
theorem min_limit (now timeout : Int) :
    min (now + milliseconds timeout) (now + milliseconds longestWait) =
      now + milliseconds (min timeout longestWait) := by
  unfold milliseconds
  omega

/-- A request is waited for until its deadline passes or the longest wait is over. -/
theorem patient_roundTrip (h : Fits s.network.clock s.connection.timeout) (command : Command) :
    Patient (s.network.clock + milliseconds (min s.connection.timeout longestWait))
      (roundTrip command) s := by
  have hfits := h.duration_lt
  rw [← min_limit]
  exact (keepsTo_roundTrip h command).patient (by omega)

/-- A connection is waited for until its deadline passes or the longest wait is over. -/
theorem patient_connect (h : Fits s.network.clock s.connection.connectTimeout)
    (hlink : s.connection.link.state ≠ .connected) :
    Patient (s.network.clock + milliseconds (min s.connection.connectTimeout longestWait))
      connect s := by
  have hfits := h.duration_lt
  have hstart : 0 ≤ s.network.resolvedAt - s.network.clock :=
    Int.sub_nonneg_of_le (le_add_nanoseconds _ _)
  rw [← min_limit]
  refine ((keepsTo_connect h hlink).patient ?_).mono (min_le_min_left _ ?_)
  · omega
  · omega

/-- A connection that is up, and over which nothing ever comes. -/
def unanswered (now timeout : Int) : Session :=
  { connection :=
      { endpoint := {}, timeout, link := .up ⟨0, [⟨[.stall], .close⟩], [], false⟩ [] },
    network := { clock := now } }

/-- A connection to an address that never takes it. -/
def untaken (now timeout : Int) : Session :=
  { connection := { endpoint := {}, connectTimeout := timeout },
    network := { clock := now, attempts := [{ resolution := .ok [.silent] }] } }

variable {now timeout : Int}

/-- A call that fails for want of time, after one wait for all that is left. -/
def GivesUp (limit start : Int) (a : Action α) (s : Session) : Prop :=
  Ends a s (fun _ _ => False) fun failure s' => failure.kind = .timeout ∧
    s'.network.clock = start + milliseconds (remaining limit start)

theorem givesUp_unanswered (h : Fits now timeout) :
    GivesUp (now + milliseconds timeout) now (roundTrip .ping) (unanswered now timeout) := by
  have hvalid : Command.ping.Valid := by decide
  unfold GivesUp
  rw [ends_roundTrip_up hvalid rfl, show Deadline.after (unanswered now timeout).network.clock
    (unanswered now timeout).connection.timeout = _ from h.after_eq]
  exact ⟨rfl, rfl⟩

theorem givesUp_untaken (h : Fits now timeout) :
    GivesUp (now + milliseconds timeout) now connect (untaken now timeout) := by
  obtain ⟨network, hopen, hclock⟩ := openSocket_silent (n := (untaken now timeout).network) rfl
    (now + milliseconds timeout) (untaken now timeout).connection.endpoint
  have hresolved : (untaken now timeout).network.resolvedAt = now := Int.add_zero now
  rw [hresolved] at hclock
  unfold GivesUp
  rw [ends_connect_greeting rfl, show Deadline.after (untaken now timeout).network.clock
    (untaken now timeout).connection.connectTimeout = _ from h.after_eq, ends_bind,
    ends_openSocket, addNote_network, addNote_connection, hopen]
  refine ⟨rfl, ?_⟩
  rw [clock_breakWith]
  exact hclock

/-- To give up after the longest wait is not patient if there is more time. -/
theorem GivesUp.not_patient {a : Action α} (h : GivesUp limit start a s)
    (hlong : start + milliseconds longestWait + milliseconds 1 ≤ limit) : ¬Patient limit a s := by
  intro hpatient
  have hboth := Ends.and h hpatient
  have hle := remaining_le limit start
  unfold Ends at hboth
  split at hboth
  · exact hboth.1
  · obtain ⟨⟨htimeout, hclock⟩, hlate⟩ := hboth
    have hleft := hlate htimeout
    rw [hclock] at hleft
    unfold milliseconds at *
    omega

/-- Calls with a timeout are patient, whatever the network does, exactly if the timeout is not
longer than the longest wait. If it is longer, they are patient for as long as that. -/
theorem patient_iff (h : Fits now timeout) :
    ((∀ (s : Session) (command : Command), s.network.clock = now →
        s.connection.timeout = timeout → s.connection.link.state = .connected → command.Valid →
        Patient (now + milliseconds timeout) (roundTrip command) s) ↔ timeout ≤ longestWait) ∧
    ((∀ s : Session, s.network.clock = now → s.connection.connectTimeout = timeout →
        s.connection.link.state ≠ .connected →
        Patient (now + milliseconds timeout) connect s) ↔ timeout ≤ longestWait) ∧
    ∀ s : Session, s.network.clock = now →
      (s.connection.timeout = timeout → ∀ command : Command,
        Patient (now + milliseconds (min timeout longestWait)) (roundTrip command) s) ∧
      (s.connection.connectTimeout = timeout → s.connection.link.state ≠ .connected →
        Patient (now + milliseconds (min timeout longestWait)) connect s) := by
  have hrequest (s : Session) (hnow : s.network.clock = now)
      (htimeout : s.connection.timeout = timeout) (command : Command) :
      Patient (now + milliseconds (min timeout longestWait)) (roundTrip command) s := by
    subst hnow htimeout
    exact patient_roundTrip h command
  have hconnect (s : Session) (hnow : s.network.clock = now)
      (htimeout : s.connection.connectTimeout = timeout)
      (hlink : s.connection.link.state ≠ .connected) :
      Patient (now + milliseconds (min timeout longestWait)) connect s := by
    subst hnow htimeout
    exact patient_connect h hlink
  -- A timeout that is not longer than the longest wait is not cut short by it.
  have hshort (hle : timeout ≤ longestWait) : min timeout longestWait = timeout := min_eq_left hle
  have hlong (hlt : longestWait < timeout) :
      now + milliseconds longestWait + milliseconds 1 ≤ now + milliseconds timeout := by
    unfold milliseconds
    omega
  refine ⟨⟨fun hall => ?_, fun hle s command hnow htimeout _ _ => ?_⟩,
    ⟨fun hall => ?_, fun hle s hnow htimeout hlink => ?_⟩,
    fun s hnow => ⟨hrequest s hnow, hconnect s hnow⟩⟩
  · by_contra hlt
    exact (givesUp_unanswered h).not_patient (hlong (not_le.1 hlt))
      (hall (unanswered now timeout) .ping rfl rfl rfl (by decide))
  · exact hshort hle ▸ hrequest s hnow htimeout command
  · by_contra hlt
    exact (givesUp_untaken h).not_patient (hlong (not_le.1 hlt))
      (hall (untaken now timeout) rfl rfl nofun)
  · exact hshort hle ▸ hconnect s hnow htimeout hlink

/-- A minute is waited for to its end. Of forty-six days, as many are waited for as one wait can
last. -/
theorem patient_iff_unanswered :
    Fits 0 60000 ∧ Fits 0 4000000000 ∧
      Patient (milliseconds 60000) (roundTrip .ping) (unanswered 0 60000) ∧
      (after (roundTrip .ping) (unanswered 0 60000)).network.clock = milliseconds 60000 ∧
      Patient (milliseconds longestWait) (roundTrip .ping) (unanswered 0 4000000000) ∧
      (after (roundTrip .ping) (unanswered 0 4000000000)).network.clock =
        milliseconds longestWait := by
  have hminute : Fits 0 60000 := ⟨by decide, by decide, by decide, by decide⟩
  have hdays : Fits 0 4000000000 := ⟨by decide, by decide, by decide, by decide⟩
  exact ⟨hminute, hdays,
    (patient_iff hminute).1.2 (by decide) (unanswered 0 60000) .ping rfl rfl rfl (by decide),
    by decide +kernel, ((patient_iff hdays).2.2 (unanswered 0 4000000000) rfl).1 rfl .ping,
    by decide +kernel⟩

/-- A response that comes within thirty-five days, and a request that may take forty-six: it fails
for want of time after the longest wait, when there are twenty-one days left. -/
theorem roundTrip_not_patient :
    ∃ s : Session, Fits s.network.clock s.connection.timeout ∧
      s.connection.link.state = .connected ∧ Command.ping.Valid ∧
      ¬Patient (s.network.clock + milliseconds s.connection.timeout) (roundTrip .ping) s ∧
      Ends (roundTrip .ping) s (fun _ _ => False) fun failure s' =>
        failure = .lost .receiveTimedOut ∧
          s.network.clock + milliseconds s.connection.timeout - s'.network.clock =
            milliseconds 1852516353 := by
  let pong : Arrival := .segment [0x21, 4, 0, 0, 0, 112, 111, 110, 103]
  let arrivals : Script Arrival := [⟨[.delay 1500000000, .delay 1500000000], pong⟩]
  let s : Session :=
    { connection :=
        { endpoint := {}, timeout := 4000000000, link := .up ⟨0, arrivals, [], false⟩ [] } }
  exact ⟨s, ⟨by decide, by decide, by decide, by decide⟩, rfl, by decide, by decide +kernel,
    by decide +kernel⟩

end RemoteCache.Session
