import RemoteCache.Proofs.Network.Delivery
import RemoteCache.Proofs.Server.Turns

/-!
# A server at the other end

Where the peer is the in-memory server and nothing else fails, a request reaches it whole, however
short the calls fall and however often they are interrupted; and what it writes is read, in whatever
segments. Nothing but the record of calls tells of all this.

## Main definitions

* `Network.scene` — a network without its record of calls
* `Script.Gentle` — calls that fall short or are interrupted, and do nothing worse
* `Attempt.Calm` — an attempt to connect that leads to the server at once

## Main results

* `Network.sendAll_hosted` — the server hears all that is written
* `Network.settle_hosted` — what the server writes is there to read
* `Network.receive_brings` — what was written is all that decides what is received
* `Network.openSocket_calm` — a calm attempt leads to the server
-/

namespace RemoteCache

open Wire

/-! ### Scripts -/

namespace Script

/-- Calls that take at least one byte or are repeated after a signal, without any wait. -/
def Gentle (script : Script Departure) : Prop :=
  ∀ met ∈ script, met.pauses = [] ∧ (met.event = .accept none ∨
    (∃ limit ≠ 0, met.event = .accept (some limit)) ∨ met.event = .failed .interrupted)

/-- Events that come without any wait. -/
def Prompt {α : Type} (script : Script α) : Prop := ∀ met ∈ script, met.pauses = []

theorem prompt_behind {α : Type} (events : List α) : Prompt (behind [] events) := by
  cases events with
  | nil => exact List.forall_mem_nil _
  | cons event more =>
    refine List.forall_mem_cons.2 ⟨rfl, ?_⟩
    intro met hmet
    obtain ⟨event', -, rfl⟩ := List.mem_map.1 hmet
    rfl

/-- What comes behind the first event comes without pauses. -/
theorem behind_cons {α : Type} (pauses : List Pause) (event : α) (more : List α) :
    behind pauses (event :: more) = ⟨pauses, event⟩ :: behind [] more := by
  cases more <;> rfl

/-- However bytes are cut, they come whole. -/
theorem brings_cut {b : Bytes} (hb : b ≠ []) (pauses : List Pause) (readings : List (Option Nat)) :
    Brings b [] (behind pauses (Arrival.cut readings b).1) := by
  induction readings generalizing b pauses with
  | nil => exact brings_ofBytes hb pauses
  | cons reading readings ih =>
    cases reading with
    | none =>
      rw [Arrival.cut, behind_cons]
      exact .signal pauses (ih hb [])
    | some limit =>
      rw [Arrival.cut]
      dsimp only
      split
      · exact brings_ofBytes hb pauses
      · rename_i hlong
        have hfirst : b.take (max 1 (min limit Arrival.chunkSize)) ≠ [] := by
          rw [Ne, List.take_eq_nil_iff, not_or]
          exact ⟨by omega, hb⟩
        have hrest : b.drop (max 1 (min limit Arrival.chunkSize)) ≠ [] := by
          rw [Ne, List.drop_eq_nil_iff]
          exact hlong
        have hparts := Brings.segment pauses hfirst (ih hrest [])
        rw [List.take_append_drop] at hparts
        rw [behind_cons]
        exact hparts

end Script

/-- An attempt to connect that leads to the server at once: the first address takes the connection,
and later calls that write to the socket fall short or are interrupted, and do nothing worse. -/
structure Attempt.Calm (a : Attempt) : Prop where
  delay_eq : a.delay = 0
  resolution_eq : ∃ more, a.resolution = .ok (.reachable :: more)
  arrivals_eq : a.arrivals = none
  departures : a.departures.Gentle

theorem Attempt.calm_default : Attempt.Calm {} := ⟨rfl, ⟨[], rfl⟩, rfl, List.forall_mem_nil _⟩

namespace Network

variable {n n' : Network} {deadline : Deadline} {socket : Socket} {d : Nat}

/-- A network without its record of calls. -/
def scene (n : Network) : Network := { n with nextDescriptor := 0, calls := [] }

theorem clock_of_scene (h : n'.scene = n) : n'.clock = n.clock := h ▸ rfl

theorem attempts_of_scene (h : n'.scene = n) : n'.attempts = n.attempts := h ▸ rfl

theorem service_of_scene (h : n'.scene = n) : n'.service = n.service := h ▸ rfl

theorem transits_of_scene (h : n'.scene = n) : n'.transits = n.transits := h ▸ rfl

/-- Without pauses no wait is cut short, and no time passes. -/
theorem wait_nil (n : Network) (deadline : Deadline) (d : Nat) :
    ∃ n', n.wait deadline d [] = (.ready, n') ∧ n'.scene = n.scene := by
  cases deadline with
  | none => exact ⟨_, rfl, rfl⟩
  | some limit => exact ⟨_, rfl, rfl⟩

/-! ### Writing -/

variable {service : Service}

theorem deliver_hosted (hhosted : socket.isHosted = true) (hservice : n.service = some service)
    (hopen : service.hasClosed = false) (b : Bytes) :
    n.deliver socket b = (.ok (),
      { n.record (.send socket.descriptor b) with service := some (service.hear b) }) := by
  have hgone : n.isGone socket = false := by
    unfold isGone
    rw [hhosted, hservice]
    exact hopen
  unfold deliver
  dsimp only
  rw [hgone, hhosted, hservice]
  rfl

theorem hear_nil (service : Service) : service.hear [] = service := by
  obtain ⟨server, caller⟩ := service
  cases caller <;> simp [Service.hear]

theorem hasClosed_hear (service : Service) (b : Bytes) :
    (service.hear b).hasClosed = service.hasClosed := by
  obtain ⟨server, caller⟩ := service
  cases caller <;> rfl

/-- The server hears all that is written. -/
theorem sendAll_hosted (deadline : Deadline) (hhosted : socket.isHosted = true)
    {script : Script Departure} (hgentle : script.Gentle) {b : Bytes}
    (hservice : n.service = some service) (hopen : service.hasClosed = false) :
    ∃ rest n', n.sendAll deadline socket script b = (.ok rest, n') ∧ rest.Gentle ∧
      n'.scene = { n.scene with service := some (service.hear b) } := by
  induction script generalizing b n service with
  | nil =>
    cases b with
    | nil =>
      refine ⟨[], n, by rw [sendAll], hgentle, ?_⟩
      rw [hear_nil, ← hservice]
      rfl
    | cons c b =>
      obtain ⟨n₁, hwait, hscene⟩ := n.wait_nil deadline socket.descriptor
      have hservice₁ : n₁.service = some service := (congrArg Network.service hscene).trans hservice
      refine ⟨[], { n₁.record (.send socket.descriptor (c :: b)) with
        service := some (service.hear (c :: b)) }, ?_, hgentle, ?_⟩
      · rw [sendAll, hwait]
        dsimp only
        rw [deliver_hosted hhosted hservice₁ hopen]
        rfl
      · rw [← hscene]
        rfl
  | cons met script ih =>
    obtain ⟨pauses, event⟩ := met
    obtain ⟨⟨hpauses, hmet⟩, hlater⟩ := List.forall_mem_cons.1 hgentle
    obtain rfl : pauses = [] := hpauses
    cases b with
    | nil =>
      refine ⟨_, n, by rw [sendAll], hgentle, ?_⟩
      rw [hear_nil, ← hservice]
      rfl
    | cons c b =>
      obtain ⟨n₁, hwait, hscene⟩ := n.wait_nil deadline socket.descriptor
      have hservice₁ : n₁.service = some service := (congrArg Network.service hscene).trans hservice
      rw [sendAll, hwait]
      dsimp only
      rcases hmet with hmet | ⟨limit, hlimit, hmet⟩ | hmet <;>
        obtain rfl : event = _ := hmet <;> dsimp only
      · refine ⟨script, { n₁.record (.send socket.descriptor (c :: b)) with
          service := some (service.hear (c :: b)) }, ?_, hlater, ?_⟩
        · rw [deliver_hosted hhosted hservice₁ hopen]
          rfl
        · rw [← hscene]
          rfl
      · -- The server hears the others behind those that were taken.
        rw [deliver_hosted hhosted hservice₁ hopen]
        dsimp only
        rw [if_neg hlimit]
        obtain ⟨rest, n', hsend, hrest, hn'⟩ := ih hlater
          (n := { n₁.record (.send socket.descriptor ((c :: b).take limit)) with
            service := some (service.hear ((c :: b).take limit)) })
          (b := (c :: b).drop limit) rfl (by rw [hasClosed_hear, hopen])
        refine ⟨rest, n', hsend, hrest, ?_⟩
        rw [hn', ← Service.hear_append, List.take_append_drop, ← hscene]
        rfl
      · rw [if_pos rfl]
        obtain ⟨rest, n', hsend, hrest, hn'⟩ := ih hlater
          (n := n₁.record (.send socket.descriptor [])) (b := c :: b) hservice₁ hopen
        refine ⟨rest, n', hsend, hrest, ?_⟩
        rw [hn', ← hscene]
        rfl

/-! ### What the server does -/

/-- What is left to read once everything that was written has been read: the end of the stream if
the server has closed. -/
def lastArrivals (visit : Option Server.Visit) : Script Arrival :=
  if visit.isNone then [⟨[], .close⟩] else []

theorem outlasts_of_ready (deadline : Deadline) {caller : Service.Caller}
    (hcaller : service.caller = some caller)
    (hready : ∀ time ∈ caller.busyUntil, time ≤ n.clock) :
    outlasts deadline n.clock service = false ∧ service.readyAt n.clock = n.clock := by
  have hnow : service.readyAt n.clock = n.clock := by
    unfold Service.readyAt
    rw [hcaller]
    dsimp only [Option.bind]
    split
    · rfl
    · rename_i time htime
      exact max_eq_left (hready time htime)
  refine ⟨?_, hnow⟩
  unfold outlasts
  rw [hnow]
  cases deadline with
  | none => rfl
  | some limit => exact decide_eq_false (not_lt.2 (le_add_nanoseconds n.clock _))

/-- A network once the server has taken a turn. -/
def afterTurn (n : Network) (t : Server.Turn) : Network :=
  { n with service := some (Service.ofTurn n.clock t).1, transits := n.transits.tail }

theorem arrivalsAfter_ofTurn {t : Server.Turn} {start : Instant} {b : Bytes}
    (h : t.Writes start b) :
    arrivalsAfter (Service.ofTurn start t).1 = lastArrivals t.visit := by
  rw [Service.ofTurn_of_writes h]
  rcases h.visit_eq with hvisit | hvisit <;> rw [hvisit] <;> rfl

/-- The server has its turn as soon as it is done with earlier replies. -/
theorem settle_turn {caller : Service.Caller} {t : Server.Turn} {start : Instant} {b : Bytes}
    (hhosted : socket.isHosted = true) (harrivals : socket.arrivals = [])
    (hservice : n.service = some service) (hcaller : service.caller = some caller)
    (hpatient : outlasts deadline n.clock service = false)
    (hstart : service.readyAt n.clock = start)
    (hturn : caller.turn service.server start (n.transits.headD {}).requests = t)
    (hwrites : t.Writes start b) :
    n.settle deadline socket =
      ({ socket with arrivals := arrivalsOf (n.transits.headD {}).replies n.clock t.writes ++
          lastArrivals t.visit },
        { n with service := some (Service.ofTurn start t).1, transits := n.transits.tail }) := by
  unfold settle
  rw [hhosted, hservice]
  dsimp only
  rw [hpatient]
  unfold Service.answer
  rw [hcaller]
  dsimp only
  rw [hstart, hturn, ← arrivalsAfter_ofTurn hwrites, harrivals]
  rfl

/-- What the server writes at once is there to read. -/
theorem settle_hosted (deadline : Deadline) {caller : Service.Caller} {t : Server.Turn} {b : Bytes}
    (hhosted : socket.isHosted = true) (harrivals : socket.arrivals = [])
    (hservice : n.service = some service) (hcaller : service.caller = some caller)
    (hready : ∀ time ∈ caller.busyUntil, time ≤ n.clock)
    (hturn : caller.turn service.server n.clock (n.transits.headD {}).requests = t)
    (hwrites : t.Writes n.clock b) :
    ∃ script, n.settle deadline socket =
      ({ socket with arrivals := script ++ lastArrivals t.visit }, n.afterTurn t) ∧
      (b = [] ∧ script = [] ∨ Script.Brings b [] script ∧ script.Prompt) := by
  obtain ⟨hpatient, hstart⟩ := outlasts_of_ready deadline hcaller hready
  refine ⟨_, settle_turn hhosted harrivals hservice hcaller hpatient hstart hturn hwrites, ?_⟩
  rw [hwrites.writes_eq]
  split
  · rename_i hb
    exact .inl ⟨hb, rfl⟩
  · rename_i hb
    right
    simp only [arrivalsOf, sub_self, Int.toNat_zero, if_true, List.append_nil]
    exact ⟨Script.brings_cut hb [] _, Script.prompt_behind _⟩

/-! ### Reading -/

/-- What is received when these are all the bytes that come: their response, if they begin with one,
and with nothing behind it if it takes all of them. -/
def Receives (shape : Shape) (b : Bytes) (tail : Script Arrival)
    (result : Except Breakdown Received) : Prop :=
  match Reply.read shape (.start b) with
  | .done r c => ∃ received, result = .ok received ∧ received.response = r ∧
      (c.rest = [] → received.pending = [] ∧ received.arrivals = tail)
  | .short _ _ | .malformed _ => ∃ reason, result = .error reason ∧ reason.failure = .lost reason

variable {shape : Shape} {pending w : Bytes} {script tail : Script Arrival} {missing : Nat}
  {c : Cursor}

theorem receives_of_short (h : Reply.read shape (.start pending) = .short missing c)
    {reason : Breakdown} (hreason : reason.failure = .lost reason) :
    Receives shape pending tail (.error reason) := by
  unfold Receives
  rw [h]
  exact ⟨reason, rfl, hreason⟩

/-- Once it is decided what there is to receive, what comes later does not matter. -/
theorem receives_of_not_short (hw : w ≠ [])
    (hdecided : ∀ missing c, Reply.read shape (.start pending) ≠ .short missing c) :
    Receives shape (pending ++ w) tail (n.receive deadline shape d script pending).1 ∧
      (n.receive deadline shape d script pending).2.scene = n.scene := by
  have hstable := Reply.stable_read shape
  unfold Receives
  cases hread : Reply.read shape (.start pending) with
  | short missing c => exact absurd hread (hdecided missing c)
  | done r c =>
    have hmore := hstable.done_extend hread w
    rw [Cursor.extend_start] at hmore
    rw [hmore, receive_of_done hread]
    refine ⟨⟨_, rfl, rfl, fun hrest => ?_⟩, rfl⟩
    exact absurd (List.append_eq_nil_iff.1 hrest).2 hw
  | malformed fault =>
    have hmore := hstable.malformed_extend hread w
    rw [Cursor.extend_start] at hmore
    rw [hmore, receive.eq_def]
    dsimp only
    rw [hread]
    exact ⟨⟨_, rfl, rfl⟩, rfl⟩

/-- The stream ends. -/
theorem receive_tail (htail : tail = [] ∨ tail = [⟨[], .close⟩]) :
    Receives shape pending tail (n.receive deadline shape d tail pending).1 ∧
      (n.receive deadline shape d tail pending).2.scene = n.scene := by
  cases hread : Reply.read shape (.start pending) with
  | done r c =>
    unfold Receives
    rw [hread, receive_of_done hread]
    exact ⟨⟨_, rfl, rfl, fun hrest => ⟨hrest, rfl⟩⟩, rfl⟩
  | malformed fault =>
    unfold Receives
    rw [hread, receive.eq_def]
    dsimp only
    rw [hread]
    exact ⟨⟨_, rfl, rfl⟩, rfl⟩
  | short missing c =>
    obtain ⟨n', hwait, hscene⟩ := n.wait_nil deadline d
    have hend : (endOfStream pending).failure = .lost (endOfStream pending) := by
      unfold endOfStream
      split <;> rfl
    rcases htail with rfl | rfl <;> rw [receive, hread] <;> dsimp only <;> rw [hwait] <;>
      exact ⟨receives_of_short hread hend, hscene⟩

/-- In whatever segments bytes come, they are all that decides what is received. -/
theorem receive_brings (h : Script.Brings w [] script) (hprompt : script.Prompt)
    (htail : tail = [] ∨ tail = [⟨[], .close⟩]) :
    Receives shape (pending ++ w) tail (n.receive deadline shape d (script ++ tail) pending).1 ∧
      (n.receive deadline shape d (script ++ tail) pending).2.scene = n.scene := by
  generalize hextra : ([] : Bytes) = extra at h
  induction h generalizing pending n with
  | @last pauses b hb extra =>
    subst hextra
    obtain rfl : pauses = [] := hprompt _ List.mem_cons_self
    by_cases hshort : ∃ missing c, Reply.read shape (.start pending) = .short missing c
    · obtain ⟨missing, c, hread⟩ := hshort
      obtain ⟨n', hwait, hscene⟩ := n.wait_nil deadline d
      rw [List.append_nil, List.singleton_append, receive_segment hread hwait hb, ← hscene]
      exact receive_tail htail
    · exact receives_of_not_short hb fun missing c hread => hshort ⟨missing, c, hread⟩
  | @segment pauses b hb rest extra script h ih =>
    obtain ⟨hpauses, hlater⟩ := List.forall_mem_cons.1 hprompt
    obtain rfl : pauses = [] := hpauses
    by_cases hshort : ∃ missing c, Reply.read shape (.start pending) = .short missing c
    · obtain ⟨missing, c, hread⟩ := hshort
      obtain ⟨n', hwait, hscene⟩ := n.wait_nil deadline d
      rw [List.cons_append, receive_segment hread hwait hb, ← hscene, ← List.append_assoc]
      exact ih hlater hextra
    · have hsome := List.append_ne_nil_of_left_ne_nil hb rest
      exact receives_of_not_short hsome fun missing c hread => hshort ⟨missing, c, hread⟩
  | @signal pauses frame extra script h ih =>
    obtain ⟨hpauses, hlater⟩ := List.forall_mem_cons.1 hprompt
    obtain rfl : pauses = [] := hpauses
    by_cases hshort : ∃ missing c, Reply.read shape (.start pending) = .short missing c
    · obtain ⟨missing, c, hread⟩ := hshort
      obtain ⟨n', hwait, hscene⟩ := n.wait_nil deadline d
      rw [List.cons_append, receive_signal hread hwait, ← hscene]
      exact ih hlater hextra
    · exact receives_of_not_short h.ne_nil fun missing c hread => hshort ⟨missing, c, hread⟩

/-! ### Opening a socket -/

theorem connect_reachable (deadline : Deadline) (now : Instant) :
    Address.connect deadline .reachable now = (.connected, now) := by
  cases deadline <;> rfl

/-- A socket that leads to the server, over which nothing was written and nothing read. -/
structure Leads (peer : Socket) : Prop where
  isHosted_eq : peer.isHosted = true
  arrivals_eq : peer.arrivals = []
  departures : peer.departures.Gentle

theorem tryAddresses_reachable (deadline : Deadline) {a : Attempt} (hcalm : a.Calm)
    (obstacle : Obstacle) (more : List Address) (hservice : n.service = some service) :
    ∃ peer n', tryAddresses deadline a obstacle (.reachable :: more) n = (.opened peer, n') ∧
      Leads peer ∧ n'.scene = { n.scene with service := some (service.connect n.clock) } := by
  rw [tryAddresses]
  · dsimp only
    simp only [openDescriptor, connect_reachable, reach, record, hcalm.arrivals_eq, hservice]
    exact ⟨_, _, rfl, ⟨rfl, rfl, hcalm.departures⟩, rfl⟩
  · exact nofun

/-- Where there is a server, the next attempt to connect is one from the script, or a plain one. -/
theorem exists_nextAttempt (hservice : n.service = some service) :
    ∃ a, n.nextAttempt = (a, { n with attempts := n.attempts.tail }) ∧
      (a ∈ n.attempts ∨ a = {}) := by
  unfold nextAttempt
  cases hattempts : n.attempts with
  | nil =>
    refine ⟨{}, ?_, .inr rfl⟩
    simp only [hservice, Option.isSome_some, if_true, List.tail_nil]
    rw [← hattempts, ← hservice]
  | cons a more => exact ⟨a, rfl, .inl List.mem_cons_self⟩

/-- A calm attempt leads to the server, which has the connection in front of it then. -/
theorem openSocket_calm (deadline : Deadline) (hcalm : ∀ a ∈ n.attempts, a.Calm)
    (hservice : n.service = some service) (endpoint : Endpoint) :
    ∃ peer n', n.openSocket deadline endpoint = (.ok peer, n') ∧ Leads peer ∧
      n'.scene = { n.scene with
        service := some (service.connect n.clock), attempts := n.attempts.tail } := by
  obtain ⟨a, hnext, hattempt⟩ := exists_nextAttempt hservice
  have ha : a.Calm := by
    rcases hattempt with hmem | rfl
    · exact hcalm a hmem
    · exact Attempt.calm_default
  obtain ⟨more, hresolution⟩ := ha.resolution_eq
  have hstill (m : Network) : m.pass 0 = m := by
    have hclock : m.clock + (0 : Span).nanoseconds = m.clock := Int.add_zero _
    unfold pass
    rw [hclock]
  obtain ⟨peer, n', htry, hleads, hscene⟩ := tryAddresses_reachable deadline ha
    .noAddress more (n := ({ n with attempts := n.attempts.tail }).record
      (.resolve endpoint.host endpoint.port)) hservice
  refine ⟨peer, n', ?_, hleads, hscene⟩
  unfold openSocket
  rw [hnext]
  dsimp only
  rw [ha.delay_eq, hstill, hresolution]
  dsimp only
  rw [htry]

end Network

end RemoteCache
