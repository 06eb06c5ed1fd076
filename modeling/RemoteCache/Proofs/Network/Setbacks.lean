import RemoteCache.Proofs.Network.Hosted
import RemoteCache.Proofs.Network.Lives
import RemoteCache.Proofs.Server.Hearings

/-!
# A server at the other end of a line that may fail

Every call on a socket may fail, or be cut short by a deadline. Still the server hears a beginning
of what was to be written, and all of it if writing succeeds; what is received is a beginning of
what the server has written; and to be tried in vain, even connected to and left again, changes
nothing that bears on commands.

## Main definitions

* `Network.Follows`, `Network.Idles` — one network comes after another, with only time between
* `Network.Awaits` — what is known of the server when the next connection comes
* `Script.carried` — the bytes that a script of readings brings

## Main results

* `Network.openSocket_awaits` — what opening a socket leaves of the server, however it ends
* `Network.sendAll_open`, `Network.sendAll_closed` — what the server hears, however writing ends
* `Network.receive_carried` — a response is read from a beginning of what there is to read
* `Network.settle_cases` — the server has its turn, or has no time for it
-/

namespace RemoteCache

open Wire

/-! ### Time -/

namespace Pause

variable {limit : Instant}

theorem le_pass (pauses : List Pause) (now : Instant) : now ≤ pass pauses now := by
  induction pauses generalizing now with
  | nil => exact le_rfl
  | cons pause pauses ih =>
    cases pause with
    | delay span => exact (le_add_nanoseconds now _).trans (ih _)
    | stall | failed => exact ih now

theorem le_awaitUntil (pauses : List Pause) (left : Nat) (now : Instant) :
    now ≤ (awaitUntil limit pauses left now).2 := by
  fun_induction awaitUntil limit pauses left now with
  | case1 | case6 => exact le_rfl
  | case2 | case4 => exact le_add_nanoseconds _ _
  | case3 _ _ _ _ _ ih => exact (le_add_nanoseconds _ _).trans ih
  | case5 _ _ _ ih => exact ih

theorem le_await (deadline : Deadline) (pauses : List Pause) (now : Instant) :
    now ≤ (await deadline pauses now).2 := by
  cases deadline with
  | none => exact le_pass pauses now
  | some limit => exact le_awaitUntil pauses _ now

end Pause

namespace Address

theorem le_connectAgain (delay : Span) (failures : List (Span × Errno)) (now : Instant) :
    now ≤ (connectAgain delay failures now).2 := by
  fun_induction connectAgain delay failures now with
  | case1 now => exact le_add_nanoseconds now _
  | case2 span more now later ih => exact (le_add_nanoseconds now _).trans ih
  | case3 span e more now later he => exact le_add_nanoseconds now _

theorem Answers.le_connectUntil (limit : Instant) (a : Answers) (now : Instant) :
    now ≤ (a.connectUntil limit now).2 := by
  have hwait : now ≤ (Pause.await (some limit) a.pauses now).2 :=
    Pause.le_await (some limit) a.pauses now
  unfold connectUntil
  split
  case h_5 =>
    split <;> rename_i hawait <;> rw [hawait] at hwait
    · exact hwait
    · exact hwait
    · split <;> exact hwait
  all_goals exact le_rfl

theorem le_connect (deadline : Deadline) (a : Address) (now : Instant) :
    now ≤ (a.connect deadline now).2 := by
  unfold connect connectFreely connectUntil
  dsimp only
  repeat' split
  all_goals first
    | exact le_rfl
    | exact le_add_nanoseconds _ _
    | exact le_connectAgain _ _ _
    | exact Answers.le_connectUntil _ _ _

end Address

/-! ### What readings bring -/

/-- The bytes that a reading brings, none unless it brings a segment. -/
def Arrival.bytes : Arrival → Bytes
  | .segment b => b
  | _ => []

/-- The bytes that a script of readings brings. -/
def Script.carried (script : Script Arrival) : Bytes := script.flatMap fun met => met.event.bytes

namespace Script

theorem carried_cons (met : Timed Arrival) (script : Script Arrival) :
    carried (met :: script) = met.event.bytes ++ script.carried := rfl

theorem carried_append (script more : Script Arrival) :
    (script ++ more).carried = script.carried ++ more.carried := List.flatMap_append

theorem carried_behind (pauses : List Pause) (events : List Arrival) :
    (behind pauses events).carried = events.flatMap Arrival.bytes := by
  cases events with
  | nil => rfl
  | cons event more => simp only [behind, carried, List.flatMap_cons, List.flatMap_map]

end Script

theorem Arrival.flatMap_ofBytes (b : Bytes) : (ofBytes b).flatMap Arrival.bytes = b := by
  unfold ofBytes
  split
  · rename_i hempty
    rw [List.isEmpty_iff.1 hempty]
    rfl
  · rw [List.flatMap_map]
    exact List.flatMap_id'.trans (Bytes.flatten_piecesOf _ b)

theorem Arrival.flatMap_cut (readings : List (Option Nat)) (b : Bytes) :
    (cut readings b).1.flatMap Arrival.bytes = b := by
  fun_induction cut readings b with
  | case1 b => exact flatMap_ofBytes b
  | case2 readings b later ih => exact ih
  | case3 limit readings b length hlength => exact flatMap_ofBytes b
  | case4 limit readings b length hlength later ih =>
    rw [List.flatMap_cons, ih, Arrival.bytes, List.take_append_drop]

namespace Network

variable {n n' n'' : Network} {deadline : Deadline} {socket : Socket} {service : Service}
  {server : Server} {E : Outlook} {d : Nat}

theorem carried_arrivalsOf (readings : List (Option Nat)) (now : Instant)
    (writes : List Server.Write) :
    (arrivalsOf readings now writes).carried = writes.flatMap Server.Write.bytes := by
  induction writes generalizing readings now with
  | nil => rfl
  | cons w more ih =>
    simp only [arrivalsOf, Script.carried_append, Script.carried_behind, Arrival.flatMap_cut, ih,
      List.flatMap_cons]

theorem carried_arrivalsAfter (service : Service) : (arrivalsAfter service).carried = [] := by
  unfold arrivalsAfter
  split
  · rfl
  · split <;> rfl

/-! ### One network after another -/

/-- A later network, before which nobody has tried to connect again. -/
structure Follows (n n' : Network) : Prop where
  clock_le : n.clock ≤ n'.clock
  attempts_eq : n'.attempts = n.attempts

/-- A later network in which the server is as before. -/
structure Idles (n n' : Network) : Prop extends Follows n n' where
  service_eq : n'.service = n.service

theorem Follows.refl (n : Network) : n.Follows n := ⟨le_rfl, rfl⟩

theorem Follows.trans (h : n.Follows n') (h' : n'.Follows n'') : n.Follows n'' :=
  ⟨h.clock_le.trans h'.clock_le, h'.attempts_eq.trans h.attempts_eq⟩

theorem Idles.refl (n : Network) : n.Idles n := ⟨.refl n, rfl⟩

theorem Idles.trans (h : n.Idles n') (h' : n'.Idles n'') : n.Idles n'' :=
  ⟨h.toFollows.trans h'.toFollows, h'.service_eq.trans h.service_eq⟩

theorem Idles.record (h : n.Idles n') (call : Call) : n.Idles (n'.record call) :=
  ⟨⟨h.clock_le, h.attempts_eq⟩, h.service_eq⟩

theorem idles_wait {pauses : List Pause} {readiness : Readiness}
    (hwait : n.wait deadline d pauses = (readiness, n')) : n.Idles n' := by
  unfold Network.wait at hwait
  obtain rfl := (Prod.ext_iff.1 hwait).2
  have hlater : n.Idles { n with clock := (Pause.await deadline pauses n.clock).2 } :=
    ⟨⟨Pause.le_await deadline pauses n.clock, rfl⟩, rfl⟩
  dsimp only
  split
  · exact hlater.record _
  · exact hlater

/-! ### Opening a socket -/

/-- There is a server, of which this is known when the next connection comes. -/
def Awaits (n : Network) (E : Outlook) : Prop :=
  ∃ service, n.service = some service ∧ service.Awaits E n.clock

theorem Awaits.idles (h : n.Awaits E) (hidles : n.Idles n') : n'.Awaits E := by
  obtain ⟨service, hservice, hawaits⟩ := h
  exact ⟨service, hidles.service_eq.trans hservice, hawaits.later hidles.clock_le⟩

/-- A socket over which nothing has passed leads to a server of which this is known. -/
def Meets (n : Network) (E : Outlook) (peer : Socket) : Prop :=
  peer.isHosted = true ∧ peer.arrivals = [] ∧
    ∃ server, n.service = some ⟨server, some {}⟩ ∧ E.Holds n.clock server.gist

theorem Meets.awaits {peer : Socket} (h : n.Meets E peer) : n.Awaits E := by
  obtain ⟨-, -, server, hservice, hserver⟩ := h
  refine ⟨_, hservice, Service.awaits_of_quiet hserver ?_⟩
  rintro _ ⟨⟩
  rfl

theorem Meets.idles {peer : Socket} (h : n.Meets E peer) (hidles : n.Idles n') :
    n'.Meets E peer := by
  obtain ⟨hhosted, harrivals, server, hservice, hserver⟩ := h
  exact ⟨hhosted, harrivals, server, hidles.service_eq.trans hservice,
    E.later hserver hidles.clock_le⟩

theorem idles_connecting (hopen : n.openDescriptor = (d, n')) {address : Address}
    {result : Address.Result} {time : Instant}
    (hconnect : address.connect deadline n'.clock = (result, time)) (call : Call) :
    n.Idles ({ n' with clock := time }.record call) := by
  cases hopen
  refine ⟨⟨?_, rfl⟩, rfl⟩
  have hle := Address.le_connect deadline address n.clock
  rwa [show address.connect deadline n.clock = (result, time) from hconnect] at hle

/-- The peer of an attempt that has no script of its own is the server. -/
theorem reach_awaits {attempt : Attempt} {peer : Socket} (h : n.Awaits E)
    (harrivals : attempt.arrivals = none) (hreach : n.reach attempt d = (peer, n')) :
    n'.Meets E peer ∧ peer.departures = attempt.departures ∧ n.Follows n' := by
  obtain ⟨service, hservice, hawaits⟩ := h
  simp only [reach, harrivals, hservice] at hreach
  cases hreach
  exact ⟨⟨rfl, rfl, _, rfl, hawaits n.clock le_rfl⟩, rfl, le_rfl, rfl⟩

/-- What an attempt to open a socket leaves of the server. -/
def Opening.Leaves (attempt : Attempt) (E : Outlook) (n : Network) : Opening → Prop
  | .opened peer => n.Meets E peer ∧ peer.departures = attempt.departures
  | _ => n.Awaits E

/-- A server that is connected to and left again at once is as before. -/
theorem tryAddresses_awaits (deadline : Deadline) {attempt : Attempt}
    (harrivals : attempt.arrivals = none) (obstacle : Obstacle) (addresses : List Address)
    (h : n.Awaits E) :
    (tryAddresses deadline attempt obstacle addresses n).1.Leaves attempt E
        (tryAddresses deadline attempt obstacle addresses n).2 ∧
      n.Follows (tryAddresses deadline attempt obstacle addresses n).2 := by
  -- By induction on the addresses; only a connection that is made concerns the server.
  fun_induction tryAddresses deadline attempt obstacle addresses n with
  | case1 => exact ⟨h, .refl _⟩
  | case2 obstacle e more n ih =>
    have hidles := (Idles.refl n).record (.socket none)
    obtain ⟨hleaves, hfollows⟩ := ih (h.idles hidles)
    exact ⟨hleaves, hidles.toFollows.trans hfollows⟩
  | case3 obstacle address more n hsocket d n₁ hopen time n₂ hconnect =>
    have hidles := (idles_connecting hopen hconnect (.use d)).record (.close d)
    exact ⟨h.idles hidles, hidles.toFollows⟩
  | case4 obstacle address more n hsocket d n₁ hopen time n₂ obstacle' hconnect ih =>
    have hidles := (idles_connecting hopen hconnect (.use d)).record (.close d)
    obtain ⟨hleaves, hfollows⟩ := ih (h.idles hidles)
    exact ⟨hleaves, hidles.toFollows.trans hfollows⟩
  | case5 obstacle address more n hsocket d n₁ hopen time n₂ peer n₃ hreach n₄ obstacle' hsetback
      hconnect ih =>
    have hidles := idles_connecting hopen hconnect (.use d)
    -- The connection is made and left again.
    obtain ⟨hmeets, -, hreached⟩ := reach_awaits (h.idles hidles) harrivals hreach
    have hclosed := ((Idles.refl n₃).record (.use d)).record (.close peer.descriptor)
    obtain ⟨hleaves, hfollows⟩ := ih (hmeets.awaits.idles hclosed)
    exact ⟨hleaves, (hidles.toFollows.trans hreached).trans (hclosed.toFollows.trans hfollows)⟩
  | case6 obstacle address more n hsocket d n₁ hopen time n₂ peer n₃ hreach n₄ hsetback hconnect =>
    have hidles := idles_connecting hopen hconnect (.use d)
    obtain ⟨hmeets, hdepartures, hreached⟩ := reach_awaits (h.idles hidles) harrivals hreach
    have hused := (Idles.refl n₃).record (.use d)
    exact ⟨⟨hmeets.idles hused, hdepartures⟩,
      (hidles.toFollows.trans hreached).trans hused.toFollows⟩

/-- What opening a socket leaves of the server, if no attempt leads to another peer. -/
theorem openSocket_awaits {endpoint : Endpoint} {result : Except Breakdown Socket}
    (hattempts : ∀ a ∈ n.attempts, a.arrivals = none) (h : n.Awaits E)
    (hopen : n.openSocket deadline endpoint = (result, n')) :
    n.clock ≤ n'.clock ∧ n'.attempts = n.attempts.tail ∧
      match result with
      | .ok peer => n'.Meets E peer ∧
        ∃ a, (a ∈ n.attempts ∨ a = {}) ∧ peer.departures = a.departures
      | .error _ => n'.Awaits E := by
  obtain ⟨service, hservice, hawaits⟩ := h
  obtain ⟨attempt, hnext, hattempt⟩ := exists_nextAttempt hservice
  have harrivals : attempt.arrivals = none := by
    rcases hattempt with hmem | rfl
    · exact hattempts attempt hmem
    · rfl
  unfold openSocket at hopen
  rw [hnext] at hopen
  dsimp only at hopen
  let resolved := (({ n with attempts := n.attempts.tail } : Network).record
    (.resolve endpoint.host endpoint.port)).pass attempt.delay
  have hclock : n.clock ≤ resolved.clock := le_add_nanoseconds _ _
  have hresolved : resolved.Awaits E := ⟨service, hservice, hawaits.later hclock⟩
  split at hopen
  · cases hopen
    exact ⟨hclock, rfl, hresolved⟩
  · cases hopen
    exact ⟨hclock, rfl, hresolved⟩
  · rename_i addresses _ _
    obtain ⟨hleaves, hfollows⟩ :=
      tryAddresses_awaits deadline harrivals .noAddress addresses hresolved
    split at hopen <;> rename_i htry <;> cases hopen <;> rw [htry] at hleaves hfollows <;>
      refine ⟨hclock.trans hfollows.clock_le, hfollows.attempts_eq, ?_⟩
    · exact ⟨hleaves.1, attempt, hattempt, hleaves.2⟩
    · exact hleaves
    · exact hleaves

/-! ### Writing -/

/-- However writing ends, the server hears a beginning of the bytes, and all of them if writing
succeeds. What is not met is left for later. -/
theorem sendAll_open (deadline : Deadline) (hhosted : socket.isHosted = true)
    (script : Script Departure) (b : Bytes) (hservice : n.service = some service)
    (hopen : service.hasClosed = false) :
    ∃ w, w <+: b ∧ n.Follows (n.sendAll deadline socket script b).2 ∧
      (n.sendAll deadline socket script b).2.service = some (service.hear w) ∧
      match (n.sendAll deadline socket script b).1 with
      | .ok rest => w = b ∧ rest <:+ script
      | .error _ => w.length < b.length := by
  have hheard {n n' n'' : Network} {service : Service} {b : Bytes}
      {result : Except Breakdown Unit} (hidles : n.Idles n')
      (hservice : n.service = some service) (hopen : service.hasClosed = false)
      (hdeliver : n'.deliver socket b = (result, n'')) :
      result = .ok () ∧ n.Follows n'' ∧ n''.service = some (service.hear b) := by
    rw [deliver_hosted hhosted (hidles.service_eq.trans hservice) hopen] at hdeliver
    cases hdeliver
    exact ⟨rfl, ⟨hidles.clock_le, hidles.attempts_eq⟩, rfl⟩
  have hnone {service : Service} {n' : Network} (h : n'.service = some service) :
      n'.service = some (service.hear []) := by
    rw [h, hear_nil]
  -- By induction on the calls. The server hears all that is left, or what one call takes of it and
  -- then the rest, or nothing more.
  fun_induction Network.sendAll deadline socket script b n generalizing service with
  | case1 script n =>
    exact ⟨[], List.prefix_rfl, .refl _, hnone hservice, rfl, List.suffix_rfl⟩
  | case2 b rest n readiness n' hwait result n'' hdeliver =>
    obtain ⟨rfl, hfollows, hservice'⟩ := hheard (idles_wait hwait) hservice hopen hdeliver
    exact ⟨b :: rest, List.prefix_rfl, hfollows, hservice', rfl, List.suffix_rfl⟩
  | case3 event script b rest n n' hwait =>
    have hidles := idles_wait hwait
    exact ⟨[], List.nil_prefix, hidles.toFollows, hnone (hidles.service_eq.trans hservice),
      Nat.succ_pos _⟩
  | case4 event script b rest n e n' hwait =>
    have hidles := idles_wait hwait
    exact ⟨[], List.nil_prefix, hidles.toFollows, hnone (hidles.service_eq.trans hservice),
      Nat.succ_pos _⟩
  | case5 event script b rest n n' hwait hevent result n'' hdeliver =>
    obtain ⟨rfl, hfollows, hservice'⟩ := hheard (idles_wait hwait) hservice hopen hdeliver
    exact ⟨b :: rest, List.prefix_rfl, hfollows, hservice', rfl, List.suffix_cons _ _⟩
  | case6 event script b rest n n' hwait limit hevent reason n'' hdeliver =>
    obtain ⟨hresult, -⟩ := hheard (idles_wait hwait) hservice hopen hdeliver
    cases hresult
  | case7 event script b rest n n' hwait n'' hevent hdeliver =>
    obtain ⟨-, hfollows, hservice'⟩ := hheard (idles_wait hwait) hservice hopen hdeliver
    exact ⟨_, List.take_prefix _ _, hfollows, hservice', Nat.succ_pos _⟩
  | case8 event script b rest n n' hwait limit hevent n'' hdeliver hlimit ih =>
    -- The bytes that were taken, and then what the server hears of the others.
    obtain ⟨-, hfollows, hservice'⟩ := hheard (idles_wait hwait) hservice hopen hdeliver
    obtain ⟨w, hw, hmore, hservice'', hresult⟩ :=
      ih hservice' ((hasClosed_hear service _).trans hopen)
    rw [← Service.hear_append] at hservice''
    refine ⟨(b :: rest).take limit ++ w, ?_, hfollows.trans hmore, hservice'', ?_⟩
    · obtain ⟨others, hothers⟩ := hw
      refine ⟨others, ?_⟩
      rw [List.append_assoc, hothers, List.take_append_drop]
    · split at hresult
      · obtain ⟨rfl, hrest⟩ := hresult
        exact ⟨List.take_append_drop _ _, hrest.trans (List.suffix_cons _ _)⟩
      · rw [← List.take_append_drop limit (b :: rest), List.length_append, List.length_append]
        simpa using hresult
  | case9 event script b rest n n' hwait hevent ih =>
    have hidles := (idles_wait hwait).record (.send socket.descriptor [])
    obtain ⟨w, hw, hmore, hservice', hresult⟩ := ih (hidles.service_eq.trans hservice) hopen
    refine ⟨w, hw, hidles.toFollows.trans hmore, hservice', ?_⟩
    split at hresult
    · exact ⟨hresult.1, hresult.2.trans (List.suffix_cons _ _)⟩
    · exact hresult
  | case10 event script b rest n n' hwait e hevent he =>
    have hidles := (idles_wait hwait).record (.send socket.descriptor [])
    exact ⟨[], List.nil_prefix, hidles.toFollows, hnone (hidles.service_eq.trans hservice),
      Nat.succ_pos _⟩

/-- To a server that has closed nothing can be written. -/
theorem sendAll_closed (deadline : Deadline) (hhosted : socket.isHosted = true)
    (script : Script Departure) {b : Bytes} (hb : b ≠ []) (hservice : n.service = some service)
    (hclosed : service.hasClosed = true) :
    n.Idles (n.sendAll deadline socket script b).2 ∧
      ∃ reason, (n.sendAll deadline socket script b).1 = .error reason := by
  have hgone {n n' n'' : Network} {b : Bytes} {result : Except Breakdown Unit} (hidles : n.Idles n')
      (hservice : n.service = some service) (hdeliver : n'.deliver socket b = (result, n'')) :
      (∃ reason, result = .error reason) ∧ n.Idles n'' := by
    have hisGone : n'.isGone socket = true := by
      unfold isGone
      rw [hhosted, hidles.service_eq.trans hservice]
      exact hclosed
    unfold deliver at hdeliver
    rw [if_pos hisGone] at hdeliver
    cases hdeliver
    exact ⟨⟨_, rfl⟩, hidles.record _⟩
  fun_induction Network.sendAll deadline socket script b n with
  | case1 script n => exact absurd rfl hb
  | case2 b rest n readiness n' hwait result n'' hdeliver =>
    obtain ⟨⟨reason, rfl⟩, hidles⟩ := hgone (idles_wait hwait) hservice hdeliver
    exact ⟨hidles, reason, rfl⟩
  | case3 event script b rest n n' hwait => exact ⟨idles_wait hwait, _, rfl⟩
  | case4 event script b rest n e n' hwait => exact ⟨idles_wait hwait, _, rfl⟩
  | case5 event script b rest n n' hwait hevent result n'' hdeliver =>
    obtain ⟨⟨reason, rfl⟩, hidles⟩ := hgone (idles_wait hwait) hservice hdeliver
    exact ⟨hidles, reason, rfl⟩
  | case6 event script b rest n n' hwait limit hevent reason n'' hdeliver =>
    exact ⟨(hgone (idles_wait hwait) hservice hdeliver).2, reason, rfl⟩
  | case7 event script b rest n n' hwait n'' hevent hdeliver =>
    exact ⟨(hgone (idles_wait hwait) hservice hdeliver).2, _, rfl⟩
  | case8 event script b rest n n' hwait limit hevent n'' hdeliver =>
    obtain ⟨⟨reason, hresult⟩, -⟩ := hgone (idles_wait hwait) hservice hdeliver
    cases hresult
  | case9 event script b rest n n' hwait hevent ih =>
    have hidles := (idles_wait hwait).record (.send socket.descriptor [])
    obtain ⟨hmore, hresult⟩ := ih hb (hidles.service_eq.trans hservice)
    exact ⟨hidles.trans hmore, hresult⟩
  | case10 event script b rest n n' hwait e hevent he =>
    exact ⟨(idles_wait hwait).record _, _, rfl⟩

/-! ### Reading -/

/-- A response is read from a beginning of what there is to read, and the rest is left. -/
theorem receive_carried (deadline : Deadline) (shape : Shape) (d : Nat) (script : Script Arrival)
    (pending : Bytes) (n : Network) :
    n.Idles (n.receive deadline shape d script pending).2 ∧
      ∀ received, (n.receive deadline shape d script pending).1 = .ok received →
        ∃ p c, p ++ received.arrivals.carried = pending ++ script.carried ∧
          Reply.read shape (.start p) = .done received.response c ∧ c.rest = received.pending := by
  have hnone {reason : Breakdown} {P : Received → Prop} (received : Received)
      (h : (.error reason : Except Breakdown Received) = .ok received) : P received := by
    cases h
  -- By induction on the calls: what one of them reads is pending for the next.
  fun_induction Network.receive deadline shape d script pending n with
  | case1 script pending n fault hread => exact ⟨.refl n, hnone⟩
  | case2 script pending n response cursor hread =>
    refine ⟨.refl n, ?_⟩
    rintro received ⟨⟩
    exact ⟨pending, cursor, rfl, hread, rfl⟩
  | case3 pending n missing cursor hread readiness n' hwait =>
    exact ⟨(idles_wait hwait).record _, hnone⟩
  | case4 pending n missing cursor hread event script n' hwait => exact ⟨idles_wait hwait, hnone⟩
  | case5 pending n missing cursor hread event script e n' hwait => exact ⟨idles_wait hwait, hnone⟩
  | case6 pending n missing cursor hread event script n' hwait =>
    exact ⟨(idles_wait hwait).record _, hnone⟩
  | case7 pending n missing cursor hread event script n' hwait b hevent n'' hempty =>
    exact ⟨(idles_wait hwait).record _, hnone⟩
  | case8 pending n missing cursor hread event script n' hwait b hevent n'' hempty ih =>
    obtain ⟨hidles, hresponse⟩ := ih
    refine ⟨((idles_wait hwait).record (.receive d b)).trans hidles, fun received hreceived => ?_⟩
    obtain ⟨p, c, hp, hdone⟩ := hresponse received hreceived
    refine ⟨p, c, ?_, hdone⟩
    rw [hp, Script.carried_cons, hevent, List.append_assoc, Arrival.bytes]
  | case9 pending n missing cursor hread event script n' hwait n'' hevent ih =>
    obtain ⟨hidles, hresponse⟩ := ih
    refine ⟨((idles_wait hwait).record (.receive d [])).trans hidles, fun received hreceived => ?_⟩
    obtain ⟨p, c, hp, hdone⟩ := hresponse received hreceived
    refine ⟨p, c, ?_, hdone⟩
    rw [hp, Script.carried_cons, hevent]
    rfl
  | case10 pending n missing cursor hread event script n' hwait =>
    exact ⟨(idles_wait hwait).record _, hnone⟩

/-! ### What the server does -/

/-- A later network, before which the server has had its turn on the connection in front of it: at
once, or as soon as it was not busy any more. -/
structure Turned (server : Server) (caller : Service.Caller) (instant : Instant)
    (lengths : List Nat) (n n' : Network) : Prop extends Follows n n' where
  service_eq : n'.service = some (Service.ofTurn instant (caller.turn server instant lengths)).1
  le_instant : n.clock ≤ instant
  instant_le : ∀ limit, (∀ time ∈ caller.busyUntil, time ≤ limit) → instant ≤ max n.clock limit

variable {caller : Service.Caller} {instant : Instant} {lengths : List Nat}

theorem Turned.idles (h : Turned server caller instant lengths n n') (hidles : n'.Idles n'') :
    Turned server caller instant lengths n n'' where
  toFollows := h.toFollows.trans hidles.toFollows
  service_eq := hidles.service_eq.trans h.service_eq
  le_instant := h.le_instant
  instant_le := h.instant_le

/-- The turn of a server on a new connection. -/
theorem Turned.greeted (h : Turned server {} instant lengths n n') :
    n'.service = some ⟨{ server with connectionsAccepted := server.connectionsAccepted + 1 },
      if server.rejects then none else some { visit := some {} }⟩ := by
  have hturn : Service.Caller.turn {} server instant lengths = server.greet instant :=
    Server.accept_nil server instant lengths
  rw [h.service_eq, hturn, Service.ofTurn_of_writes (Server.writes_greet server instant),
    Server.greet_eq]
  cases server.rejects <;> rfl

theorem Turned.written_greeting :
    (Service.Caller.turn {} server instant lengths).written = Reply.frame server.greeting :=
  (congrArg Server.Turn.written (Server.accept_nil server instant lengths)).trans
    (Server.written_greet server instant)

/-- The turn of a server to which a whole frame has come. -/
theorem Turned.hears {f : Bytes} {command : Command} {busyUntil : Option Instant}
    (h : Turned server ⟨some {}, f, busyUntil⟩ instant lengths n n') {limit : Instant}
    (hlimit : ∀ time ∈ busyUntil, time ≤ limit)
    (hreads : Reader.Reads Request.read f command) (hne : f ≠ []) :
    n.clock ≤ n'.clock ∧ n.clock ≤ instant ∧ instant ≤ max n'.clock limit ∧
      (server.attend {} instant f lengths).server.gist = server.gist.heard instant command :=
  ⟨h.clock_le, h.le_instant, (h.instant_le limit hlimit).trans (max_le_max_right limit h.clock_le),
    (Server.attend_heard hreads hne).1⟩

/-- The server has no time for the connection, and nothing comes from it; or it has its turn, and
what it writes is what there is to read. -/
theorem settle_cases (deadline : Deadline) (hhosted : socket.isHosted = true)
    (harrivals : socket.arrivals.carried = [])
    (hservice : n.service = some ⟨server, some caller⟩) :
    (∃ script, n.settle deadline socket = ({ socket with arrivals := script }, n) ∧
        script.carried = []) ∨
      ∃ instant lengths script n',
        n.settle deadline socket = ({ socket with arrivals := script }, n') ∧
        script.carried = (caller.turn server instant lengths).written ∧
        Turned server caller instant lengths n n' := by
  unfold settle
  rw [hhosted, hservice]
  dsimp only
  split
  · exact .inl ⟨_, rfl, by rw [Script.carried_append, harrivals]; rfl⟩
  · right
    refine ⟨_, _, _, _, rfl, ?_, ⟨le_rfl, rfl⟩, rfl, ?_, ?_⟩
    · rw [Script.carried_append, harrivals, List.nil_append, Script.carried_append,
        carried_arrivalsAfter, List.append_nil, carried_arrivalsOf]
      rfl
    · unfold Service.readyAt
      split
      · exact le_rfl
      · exact le_max_left _ _
    · intro limit hlimit
      unfold Service.readyAt
      split
      · exact le_max_left _ _
      · rename_i time htime
        exact max_le_max_left _ (hlimit time htime)

end Network

end RemoteCache
