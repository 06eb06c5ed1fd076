import RemoteCache.Proofs.Network.Deadlines
import RemoteCache.Proofs.Network.Lives
import RemoteCache.Proofs.Network.Segments

/-!
# With a deadline and without one

Opening a socket blocks where there is no deadline, and polls where there is one. The addresses
decide which of them is taken, and the script of the peer decides what is read over it; the deadline
adds only that there may be too little time. Then not even the delays that were met are over.

The two ways differ in one place. A call to connect that a signal interrupts is repeated where it
blocks, and given up where it does not.

## Main definitions

* `Deadline.Lapse` — time passes, at most as much as the delays take
* `Script.reading` — what becomes of a response that is to be read
* `Address.IsPlain` — an address that connects or fails of itself, in the same call in both ways
* `Address.place`, `Attempt.place` — the place of the first address that can be used
* `Network.sockets` — how many sockets were asked for

## Main results

* `Network.receive_reading` — the script decides what is received, if there is time enough
* `Network.tryAddresses_place`, `Network.openSocket_place` — the addresses decide which is taken
* `Address.place_alike` — where the two ways take the same address
-/

namespace RemoteCache

open Wire

/-! ### Time -/

namespace Deadline

-- Instants are compared as the integers that they are.
variable {deadline : Deadline} {late late' : Prop} {start now later : Int} {ns more : Nat}

/-- Time passes, at most so many nanoseconds. If it turns out too short, then there is a deadline,
and some of them are left. -/
structure Lapse (deadline : Deadline) (late : Prop) (start : Int) (ns : Nat) (now : Int) :
    Prop where
  le : now ≤ start + ns
  early : late → deadline.isSome ∧ now < start + ns

theorem Lapse.refl (start : Int) (ns : Nat) (hlate : ¬late) :
    Lapse deadline late start ns start :=
  ⟨le_add_nanoseconds start ns, fun h => absurd h hlate⟩

theorem Lapse.trans (h : now ≤ start + ns) (h' : Lapse deadline late now more later) :
    Lapse deadline late start (ns + more) later := by
  refine ⟨?_, fun hlate => (h'.early hlate).imp_right fun hleft => ?_⟩
  · have hle := h'.le
    omega
  · omega

theorem Lapse.mono (h : Lapse deadline late start ns now) (hns : ns ≤ more)
    (hlate : late' → late) : Lapse deadline late' start more now := by
  refine ⟨h.le.trans (by omega), fun h' => (h.early (hlate h')).imp_right fun hleft => ?_⟩
  omega

end Deadline

open Deadline

namespace Pause

variable {pauses more : List Pause} {ns : Nat} {limit : Int}

theorem Lasts.of_append (h : Lasts (pauses ++ more) ns) :
    ∃ a b, Lasts pauses a ∧ Lasts more b ∧ a + b = ns := by
  induction pauses generalizing ns with
  | nil => exact ⟨0, ns, .nil, h, Nat.zero_add ns⟩
  | cons pause pauses ih =>
    cases h with
    | delay span h =>
      obtain ⟨a, b, ha, hb, rfl⟩ := ih h
      exact ⟨_, b, .delay span ha, hb, Nat.add_assoc _ a b⟩
    | signal h =>
      obtain ⟨a, b, ha, hb, rfl⟩ := ih h
      exact ⟨a, b, .signal ha, hb, rfl⟩

theorem pass_of_lasts (h : Lasts pauses ns) (now : Int) : pass pauses now = now + ns := by
  induction h generalizing now with
  | nil => exact (Int.add_zero now).symm
  | delay span h ih =>
    rw [pass, ih, Int.natCast_add, Int.add_assoc]
  | signal h ih => exact ih now

theorem lapse_awaitUntil (h : Lasts pauses ns) (left : Nat) (now : Int) :
    ((awaitUntil limit pauses left now).1 = .ready ∨
        (awaitUntil limit pauses left now).1 = .timedOut) ∧
      Lapse (some limit) ((awaitUntil limit pauses left now).1 = .timedOut) now ns
        (awaitUntil limit pauses left now).2 := by
  induction h generalizing left now with
  | nil => exact ⟨.inl rfl, .refl now 0 nofun⟩
  | @delay span more rest h ih =>
    rw [awaitUntil]
    split
    · refine ⟨.inr rfl, ?_, fun _ => ⟨rfl, ?_⟩⟩ <;> push_cast <;> omega
    · exact ⟨(ih _ _).1, Lapse.trans le_rfl (ih _ _).2⟩
  | signal h ih =>
    rw [awaitUntil, if_pos rfl]
    exact ih _ now

/-- A wait through some pauses ends with the event, or too early. -/
theorem lapse_await (h : Lasts pauses ns) (deadline : Deadline) (now : Int) :
    ((await deadline pauses now).1 = .ready ∨ (await deadline pauses now).1 = .timedOut) ∧
      Lapse deadline ((await deadline pauses now).1 = .timedOut) now ns
        (await deadline pauses now).2 := by
  cases deadline with
  | none => exact ⟨.inl rfl, (pass_of_lasts h now).le, nofun⟩
  | some limit => exact lapse_awaitUntil h _ now

end Pause

/-! ### Reading -/

/-- What becomes of a response that is to be read, where every wait ends with its event. -/
def Script.reading (shape : Shape) : Script Arrival → Bytes → Except Breakdown Response
  | script, pending =>
    match Reply.read shape (.start pending) with
    | .done r _ => .ok r
    | .malformed fault => .error (.invalidResponse fault)
    | .short _ _ =>
      match script with
      | [] => .error (Network.endOfStream pending)
      | met :: script =>
        match met.event with
        | .close => .error (Network.endOfStream pending)
        | .segment b =>
          if b.isEmpty then .error (Network.endOfStream pending)
          else reading shape script (pending ++ b)
        | .failed e =>
          if e = .interrupted then reading shape script pending else .error (.receiveFailed e)

/-- What becomes of a greeting that is to be read: nothing, or why there is no connection. -/
def Script.greeting (script : Script Arrival) : Except Breakdown Unit := do
  match ← script.reading .ack [] with
  | .ok _ => return ()
  | .refused refusal => throw (.rejected refusal)

namespace Network

variable {n n' : Network} {deadline : Deadline} {d : Nat} {attempt : Attempt} {ns : Nat}

theorem lapse_wait {pauses : List Pause} (h : Pause.Lasts pauses ns) {readiness : Readiness}
    (hwait : n.wait deadline d pauses = (readiness, n')) :
    (readiness = .ready ∨ readiness = .timedOut) ∧
      Lapse deadline (readiness = .timedOut) n.clock ns n'.clock := by
  obtain ⟨rfl, rfl⟩ := Prod.ext_iff.1 hwait
  obtain ⟨hready, hlapse⟩ := Pause.lapse_await h deadline n.clock
  refine ⟨hready, ?_⟩
  unfold wait
  dsimp only
  split <;> exact hlapse

/-- The script decides what is received, if there is time enough for its delays. -/
theorem receive_reading {script : Script Arrival} (shape : Shape)
    (hlasts : Pause.Lasts (script.flatMap Timed.pauses) ns) (deadline : Deadline) (d : Nat)
    (pending : Bytes) (n : Network) :
    (¬IsLate (n.receive deadline shape d script pending).1 →
      (n.receive deadline shape d script pending).1.map Received.response =
        script.reading shape pending) ∧
    Lapse deadline (IsLate (n.receive deadline shape d script pending).1) n.clock ns
      (n.receive deadline shape d script pending).2.clock := by
  -- What one wait lasts, and what is left for the others.
  have hwaited {pauses rest : List Pause} {ns : Nat} {n n' : Network} {readiness : Readiness}
      (hlasts : Pause.Lasts (pauses ++ rest) ns)
      (hwait : n.wait deadline d pauses = (readiness, n')) :
      ∃ a b, Pause.Lasts rest b ∧ a + b = ns ∧ n'.clock ≤ n.clock + a := by
    obtain ⟨a, b, ha, hb, hsum⟩ := hlasts.of_append
    exact ⟨a, b, hb, hsum, (lapse_wait ha hwait).2.le⟩
  have hlast {α : Type} {pauses rest : List Pause} {ns : Nat} {n n' : Network}
      {readiness : Readiness} {result : Except Breakdown α}
      (hlasts : Pause.Lasts (pauses ++ rest) ns)
      (hwait : n.wait deadline d pauses = (readiness, n')) (hlate : ¬IsLate result) :
      Lapse deadline (IsLate result) n.clock ns n'.clock := by
    obtain ⟨a, b, -, rfl, hle⟩ := hwaited hlasts hwait
    exact .trans hle (.refl _ b hlate)
  -- By induction on the calls, each of which waits once.
  fun_induction Network.receive deadline shape d script pending n generalizing ns with
  | case1 script pending n fault hread =>
    refine ⟨fun _ => ?_, .refl n.clock ns (by simp [Failure.kindOfBreakdown])⟩
    rw [Script.reading.eq_def]
    dsimp only
    rw [hread]
    rfl
  | case2 script pending n response cursor hread =>
    refine ⟨fun _ => ?_, .refl n.clock ns (by simp)⟩
    rw [Script.reading.eq_def]
    dsimp only
    rw [hread]
    rfl
  | case3 pending n missing cursor hread readiness n' hwait =>
    have hnil : Pause.Lasts ([] ++ []) 0 := .nil
    refine ⟨fun _ => ?_, ?_⟩
    · rw [Script.reading, hread]
      rfl
    · exact (hlast hnil hwait (isLate_endOfStream pending)).mono (Nat.zero_le ns) id
  | case4 pending n missing cursor hread event script n' hwait =>
    obtain ⟨a, b, ha, hb, rfl⟩ := hlasts.of_append
    have hlapse := (lapse_wait ha hwait).2
    exact ⟨fun hlate => absurd rfl hlate, hlapse.mono (Nat.le_add_right a b) fun _ => rfl⟩
  | case5 pending n missing cursor hread event script e n' hwait =>
    obtain ⟨a, b, ha, hb, rfl⟩ := hlasts.of_append
    simpa using (lapse_wait ha hwait).1
  | case6 pending n missing cursor hread event script n' hwait hevent =>
    refine ⟨fun _ => ?_, (hlast hlasts hwait (isLate_endOfStream pending) :)⟩
    rw [Script.reading, hread, hevent]
    rfl
  | case7 pending n missing cursor hread event script n' hwait b hevent n'' =>
    rename_i hempty
    refine ⟨fun _ => ?_, (hlast hlasts hwait (isLate_endOfStream pending) :)⟩
    rw [Script.reading, hread, hevent]
    exact (if_pos hempty).symm
  | case8 pending n missing cursor hread event script n' hwait b hevent n'' hempty =>
    rename_i ih
    obtain ⟨a, rest, hrest, rfl, hle⟩ := hwaited hlasts hwait
    obtain ⟨hreading, hlapse⟩ := ih hrest
    refine ⟨fun hlate => ?_, .trans hle hlapse⟩
    rw [hreading hlate, Script.reading, hread, hevent]
    exact (if_neg hempty).symm
  | case9 pending n missing cursor hread event script n' hwait n'' =>
    rename_i hevent ih
    obtain ⟨a, rest, hrest, rfl, hle⟩ := hwaited hlasts hwait
    obtain ⟨hreading, hlapse⟩ := ih hrest
    refine ⟨fun hlate => ?_, .trans hle hlapse⟩
    rw [hreading hlate, Script.reading, hread, hevent]
    rfl
  | case10 pending n missing cursor hread event script n' hwait e hevent =>
    rename_i he
    have hlate : ¬IsLate (.error (.receiveFailed e) : Except Breakdown Received) := by
      simp [Failure.kindOfBreakdown]
    refine ⟨fun _ => ?_, (hlast hlasts hwait hlate :)⟩
    rw [Script.reading, hread, hevent]
    exact (if_neg he).symm

end Network

/-! ### Addresses -/

namespace Address

variable {a : Address} {addresses : List Address} {obstacle : Obstacle}

/-- An address that connects, at once or after a while, or that fails in a call that is made in
both ways: in asking for a socket, in connecting, or in setting an option. -/
def IsPlain : Address → Prop
  | reachable | pending _ _ => True
  | failing .socket _ | failing .noDelay _ => True
  | failing .connect _ | failing .outcomeOfConnect _ => True
  | failing _ _ | silent | answering _ => False

/-- An address that connects. -/
def isOpen : Address → Bool
  | reachable | pending _ _ => true
  | _ => false

/-- An address that would connect, but for a signal that comes in between. -/
def isInterrupted : Address → Bool
  | failing .connect e | failing .outcomeOfConnect e => e = .interrupted
  | _ => false

/-- The first address that would connect if no signal came in between. -/
def first? (addresses : List Address) : Option Address :=
  addresses.find? fun a => a.isOpen || a.isInterrupted

@[simp] theorem first?_nil : first? [] = none := rfl

/-- The nanoseconds that connecting takes. -/
def delay : Address → Nat
  | pending span _ => span.nanoseconds
  | _ => 0

/-- What keeps an address from being used, with a deadline or without one. Only without one a call
to connect is repeated after a signal. -/
def hindrance? (isBounded : Bool) : Address → Option Obstacle
  | failing .socket e => some (.socket e)
  | failing .connect e | failing .outcomeOfConnect e =>
    if e = .interrupted && !isBounded then none else some (.connect e)
  | failing .noDelay e => some (.noDelay e)
  | _ => none

/-- The place of the first address that can be used, counted from one, or the obstacle of the last
address, if there are any. -/
def place (isBounded : Bool) (obstacle : Obstacle) : List Address → Except Obstacle Nat
  | [] => .error obstacle
  | a :: more =>
    match a.hindrance? isBounded with
    | some obstacle => (place isBounded obstacle more).map (· + 1)
    | none => .ok 1

/-- Connecting to an address ends as the address has it, or too early. -/
theorem connect_plain (hplain : a.IsPlain) (hsocket : ∀ e, a ≠ .failing .socket e)
    (deadline : Deadline) (now : Int) :
    Lapse deadline ((a.connect deadline now).1 = .timedOut) now a.delay
        (a.connect deadline now).2 ∧
      match (a.connect deadline now).1 with
      | .timedOut => True
      | .failed obstacle => a.hindrance? deadline.isSome = some obstacle
      | .connected => a.hindrance? deadline.isSome = a.setback? deadline := by
  have hstill {result : Result} (h : result ≠ .timedOut) :
      Lapse deadline (result = .timedOut) now 0 now := .refl now 0 h
  cases a with
  | reachable => cases deadline <;> exact ⟨hstill nofun, rfl⟩
  | silent | answering => exact hplain.elim
  | pending span interruptions =>
    cases deadline with
    | none => exact ⟨⟨le_rfl, nofun⟩, rfl⟩
    | some limit =>
      unfold connect connectUntil delay
      dsimp only
      split
      · refine ⟨⟨?_, fun _ => ⟨rfl, ?_⟩⟩, trivial⟩ <;> omega
      · exact ⟨⟨le_rfl, nofun⟩, rfl⟩
  | failing stage e =>
    cases stage with
    | socket => exact absurd rfl (hsocket e)
    | noDelay => cases deadline <;> exact ⟨hstill nofun, rfl⟩
    | connect | outcomeOfConnect =>
      cases deadline with
      | some limit => exact ⟨hstill nofun, by simp [connect, connectUntil, hindrance?]⟩
      | none =>
        by_cases he : e = .interrupted
        · subst he
          exact ⟨hstill nofun, rfl⟩
        · simp only [connect, connectFreely, if_neg he]
          exact ⟨hstill nofun, by simp [hindrance?, he]⟩
    | _ => exact hplain.elim

/-! ### The two ways -/

theorem hindrance?_of_isOpen (h : a.isOpen = true) (isBounded : Bool) :
    a.hindrance? isBounded = none := by
  cases a with
  | reachable | pending => rfl
  | failing | silent | answering => cases h

theorem hindrance?_of_isInterrupted (h : a.isInterrupted = true) :
    a.isOpen = false ∧ a.hindrance? false = none ∧
      ∃ obstacle, a.hindrance? true = some obstacle := by
  cases a with
  | failing stage e =>
    cases stage with
    | connect | outcomeOfConnect =>
      obtain rfl : e = .interrupted := by simpa [isInterrupted] using h
      exact ⟨rfl, rfl, _, rfl⟩
    | _ => cases h
  | _ => cases h

/-- Any other plain address fails alike in both ways. -/
theorem hindrance?_of_closed (hplain : a.IsPlain) (hopen : a.isOpen = false)
    (hinterrupted : a.isInterrupted = false) :
    ∃ obstacle, ∀ isBounded, a.hindrance? isBounded = some obstacle := by
  cases a with
  | reachable | pending => cases hopen
  | silent | answering => exact hplain.elim
  | failing stage e =>
    cases stage with
    | connect | outcomeOfConnect =>
      have he : e ≠ .interrupted := by simpa [isInterrupted] using hinterrupted
      exact ⟨.connect e, fun isBounded => by simp [hindrance?, he]⟩
    | socket | noDelay => exact ⟨_, fun _ => rfl⟩
    | _ => exact hplain.elim

theorem place_of_usable {isBounded : Bool} {more : List Address}
    (h : a.hindrance? isBounded = none) (obstacle : Obstacle) :
    place isBounded obstacle (a :: more) = .ok 1 := by
  rw [place, h]

theorem place_of_hindered {isBounded : Bool} {more : List Address} {next : Obstacle}
    (h : a.hindrance? isBounded = some next) (obstacle : Obstacle) :
    place isBounded obstacle (a :: more) = (place isBounded next more).map (· + 1) := by
  rw [place, h]

/-- An address at a later place than the given one was found, if any of some addresses connects, or
none if none does. -/
def FoundBehind (k : Nat) (addresses : List Address) : Except Obstacle Nat → Prop
  | .ok k' => addresses.any isOpen = true ∧ k < k'
  | .error _ => addresses.any isOpen = false

/-- The addresses behind one that does not connect. -/
theorem FoundBehind.cons {k : Nat} {result : Except Obstacle Nat} (hopen : a.isOpen = false)
    (h : FoundBehind k addresses result) :
    FoundBehind (k + 1) (a :: addresses) (result.map (· + 1)) := by
  have hany : (a :: addresses).any isOpen = addresses.any isOpen := by
    rw [List.any_cons, hopen, Bool.false_or]
  cases result with
  | error last => exact hany.trans h
  | ok k' => exact ⟨hany.trans h.1, Nat.succ_lt_succ h.2⟩

theorem FoundBehind.mono {k k' : Nat} {result : Except Obstacle Nat}
    (h : FoundBehind k' addresses result) (hle : k ≤ k') : FoundBehind k addresses result := by
  cases result with
  | error last => exact h
  | ok found => exact ⟨h.1, hle.trans_lt h.2⟩

/-- With a deadline, the first address that connects is taken. -/
theorem place_bounded (hplain : ∀ a ∈ addresses, a.IsPlain) (obstacle : Obstacle) :
    FoundBehind 0 addresses (place true obstacle addresses) := by
  induction addresses generalizing obstacle with
  | nil => rfl
  | cons a more ih =>
    obtain ⟨ha, hmore⟩ := List.forall_mem_cons.1 hplain
    cases hopen : a.isOpen with
    | true =>
      rw [place_of_usable (hindrance?_of_isOpen hopen true)]
      exact ⟨by rw [List.any_cons, hopen, Bool.true_or], Nat.one_pos⟩
    | false =>
      obtain ⟨next, hnext⟩ : ∃ next, a.hindrance? true = some next := by
        cases hinterrupted : a.isInterrupted with
        | true => exact (hindrance?_of_isInterrupted hinterrupted).2.2
        | false => exact (hindrance?_of_closed ha hopen hinterrupted).imp fun _ h => h true
      rw [place_of_hindered hnext]
      exact ((ih hmore next).cons hopen).mono (Nat.zero_le 1)

/-- Both ways take the same address, or fail alike, unless the first address that would connect is
interrupted: it is taken without a deadline, and with one the next address that connects is. -/
theorem place_alike (hplain : ∀ a ∈ addresses, a.IsPlain) (obstacle : Obstacle) :
    (place true obstacle addresses = place false obstacle addresses ∧
      ∀ a, first? addresses = some a → a.isInterrupted = false) ∨
    ∃ a k, first? addresses = some a ∧ a.isInterrupted = true ∧
      place false obstacle addresses = .ok k ∧
      FoundBehind k addresses (place true obstacle addresses) := by
  unfold first?
  induction addresses generalizing obstacle with
  | nil => exact .inl ⟨rfl, by simp⟩
  | cons a more ih =>
    obtain ⟨ha, hmore⟩ := List.forall_mem_cons.1 hplain
    cases hinterrupted : a.isInterrupted with
    | true =>
      obtain ⟨hopen, hfree, next, hbounded⟩ := hindrance?_of_isInterrupted hinterrupted
      refine .inr ⟨a, 1, List.find?_cons_of_pos (by simp [hinterrupted]), hinterrupted,
        place_of_usable hfree obstacle, ?_⟩
      rw [place_of_hindered hbounded]
      exact (place_bounded hmore next).cons hopen
    | false =>
      cases hopen : a.isOpen with
      | true =>
        rw [List.find?_cons_of_pos (by simp [hopen]),
          place_of_usable (hindrance?_of_isOpen hopen true),
          place_of_usable (hindrance?_of_isOpen hopen false)]
        refine .inl ⟨rfl, ?_⟩
        rintro _ ⟨⟩
        exact hinterrupted
      | false =>
        obtain ⟨next, hnext⟩ := hindrance?_of_closed ha hopen hinterrupted
        rw [List.find?_cons_of_neg (by simp [hopen, hinterrupted]), place_of_hindered (hnext true),
          place_of_hindered (hnext false)]
        rcases ih hmore next with ⟨hsame, hfirst⟩ | ⟨first, k, hfirst, hsignal, hfree, hfound⟩
        · exact .inl ⟨by rw [hsame], hfirst⟩
        · refine .inr ⟨first, k + 1, hfirst, hsignal, by rw [hfree]; rfl, hfound.cons hopen⟩

end Address

/-- The addresses that a name resolves to, if it does. -/
def Attempt.addresses (a : Attempt) : List Address :=
  match a.resolution with
  | .ok addresses => addresses
  | .error _ => []

/-- The place of the address over which an attempt leads to a socket, or why it does not. -/
def Attempt.place (a : Attempt) (isBounded : Bool) (endpoint : Endpoint) : Except Breakdown Nat :=
  match a.resolution with
  | .error e => .error (.unresolved endpoint.host e)
  | .ok [] => .error (.unresolved endpoint.host .noAddress)
  | .ok addresses =>
    match Address.place isBounded .noAddress addresses with
    | .ok k => .ok k
    | .error obstacle => .error (.unreachable endpoint obstacle)

/-! ### Opening a socket -/

/-- A call that asks for a socket. -/
def Call.asksSocket : Call → Bool
  | .socket _ => true
  | _ => false

namespace Network

variable {n n' : Network} {deadline : Deadline} {d : Nat} {attempt : Attempt}
  {arrivals : Script Arrival} {addresses : List Address}

/-- How many sockets were asked for. -/
def sockets (n : Network) : Nat :=
  n.calls.countP Call.asksSocket

/-- Calls on a socket that is open ask for none. -/
theorem Conveys.sockets_eq {written read : Bytes} (h : Conveys d written read n n') :
    n'.sockets = n.sockets := by
  obtain ⟨calls, hcalls, hon, -, -⟩ := h
  unfold sockets
  rw [hcalls, List.countP_append, Nat.add_eq_right]
  refine List.countP_eq_zero.2 fun call hcall => ?_
  have hcallOn := hon call hcall
  cases call with
  | resolve | socket => exact hcallOn.elim
  | use | send | receive | close => exact Bool.false_ne_true

/-- A socket was opened over the address at the place where it should be. -/
def OpenedAt (attempt : Attempt) (arrivals : Script Arrival) (place : Except Obstacle Nat)
    (n n' : Network) : Opening → Prop
  | .opened socket => ∃ k d, place = .ok k ∧ n'.sockets = n.sockets + k ∧
      socket = ⟨d, arrivals, attempt.departures, false⟩
  | .failed last => place = .error last
  | .timedOut => True

/-- One socket was asked for before the others. -/
theorem OpenedAt.behind {place : Except Obstacle Nat} {n₁ : Network} {opening : Opening}
    (hasked : n₁.sockets = n.sockets + 1) (h : OpenedAt attempt arrivals place n₁ n' opening) :
    OpenedAt attempt arrivals (place.map (· + 1)) n n' opening := by
  cases opening with
  | timedOut => trivial
  | failed last =>
    obtain rfl : place = .error last := h
    rfl
  | opened socket =>
    obtain ⟨k, d, rfl, hsockets, hsocket⟩ := h
    exact ⟨k + 1, d, rfl, by omega, hsocket⟩

/-- An attempt with a script of its own leads to its peer. -/
theorem reach_script (harrivals : attempt.arrivals = some arrivals) (d : Nat) :
    n.reach attempt d = (⟨d, arrivals, attempt.departures, false⟩, n) := by
  unfold reach
  rw [harrivals]
  rfl

theorem sockets_ask {call : Call} (h : call.asksSocket = true) :
    (n.record call).sockets = n.sockets + 1 :=
  List.countP_cons_of_pos h

theorem sockets_record {call : Call} (h : call.asksSocket = false) :
    (n.record call).sockets = n.sockets :=
  List.countP_cons_of_neg (ne_true_of_eq_false h)

theorem sockets_openDescriptor (hopen : n.openDescriptor = (d, n')) :
    n'.sockets = n.sockets + 1 ∧ n'.clock = n.clock := by
  cases hopen
  exact ⟨sockets_ask rfl, rfl⟩

/-- Addresses are tried in order, up to the first that can be used, if there is time enough for
their delays. -/
theorem tryAddresses_place (harrivals : attempt.arrivals = some arrivals)
    (hplain : ∀ a ∈ addresses, a.IsPlain) (deadline : Deadline) (obstacle : Obstacle)
    (n : Network) :
    Lapse deadline ((tryAddresses deadline attempt obstacle addresses n).1 = .timedOut) n.clock
        (addresses.map Address.delay).sum
        (tryAddresses deadline attempt obstacle addresses n).2.clock ∧
      OpenedAt attempt arrivals (Address.place deadline.isSome obstacle addresses) n
        (tryAddresses deadline attempt obstacle addresses n).2
        (tryAddresses deadline attempt obstacle addresses n).1 := by
  -- By induction on the addresses: for each of them that is tried, one socket is asked for.
  fun_induction tryAddresses deadline attempt obstacle addresses n with
  | case1 obstacle n => exact ⟨.refl _ _ (by simp), rfl⟩
  | case2 obstacle e more n ih =>
    obtain ⟨hlapse, hopened⟩ := ih (List.forall_mem_cons.1 hplain).2
    rw [Address.place_of_hindered rfl, List.map_cons, List.sum_cons]
    exact ⟨Lapse.trans (le_add_nanoseconds _ _) hlapse, hopened.behind (sockets_ask rfl)⟩
  | case3 obstacle address more n hsocket d n₁ hopen time n₂ hconnect =>
    obtain ⟨ha, hmore⟩ := List.forall_mem_cons.1 hplain
    obtain ⟨hasked, hclock⟩ := sockets_openDescriptor hopen
    obtain ⟨hlapse, -⟩ := Address.connect_plain ha hsocket deadline n₁.clock
    rw [hconnect, hclock] at hlapse
    rw [List.map_cons, List.sum_cons]
    exact ⟨hlapse.mono (Nat.le_add_right _ _) fun _ => rfl, trivial⟩
  | case4 obstacle address more n hsocket d n₁ hopen time n₂ obstacle' hconnect ih =>
    obtain ⟨ha, hmore⟩ := List.forall_mem_cons.1 hplain
    obtain ⟨hasked, hclock⟩ := sockets_openDescriptor hopen
    obtain ⟨hlapse, hhindered⟩ := Address.connect_plain ha hsocket deadline n₁.clock
    obtain ⟨hrest, hopened⟩ := ih hmore
    rw [hconnect] at hlapse hhindered
    rw [hclock] at hlapse
    rw [Address.place_of_hindered hhindered, List.map_cons, List.sum_cons]
    refine ⟨Lapse.trans hlapse.le hrest, hopened.behind ?_⟩
    exact (sockets_record rfl).trans ((sockets_record rfl).trans hasked)
  | case5 obstacle address more n hsocket d n₁ hopen time n₂ peer n₃ hreach n₄ obstacle' hsetback
      hconnect ih =>
    obtain ⟨ha, hmore⟩ := List.forall_mem_cons.1 hplain
    obtain ⟨hasked, hclock⟩ := sockets_openDescriptor hopen
    obtain ⟨hlapse, hhindered⟩ := Address.connect_plain ha hsocket deadline n₁.clock
    obtain ⟨hrest, hopened⟩ := ih hmore
    rw [hconnect] at hlapse hhindered
    rw [hclock] at hlapse
    rw [reach_script harrivals] at hreach
    cases hreach
    rw [Address.place_of_hindered (hhindered.trans hsetback), List.map_cons, List.sum_cons]
    refine ⟨Lapse.trans hlapse.le hrest, hopened.behind ?_⟩
    exact (sockets_record rfl).trans ((sockets_record rfl).trans
      ((sockets_record rfl).trans hasked))
  | case6 obstacle address more n hsocket d n₁ hopen time n₂ peer n₃ hreach n₄ hsetback hconnect =>
    obtain ⟨ha, hmore⟩ := List.forall_mem_cons.1 hplain
    obtain ⟨hasked, hclock⟩ := sockets_openDescriptor hopen
    obtain ⟨hlapse, hhindered⟩ := Address.connect_plain ha hsocket deadline n₁.clock
    rw [hconnect] at hlapse hhindered
    rw [hclock] at hlapse
    rw [reach_script harrivals] at hreach
    cases hreach
    rw [Address.place_of_usable (hhindered.trans hsetback), List.map_cons, List.sum_cons]
    refine ⟨hlapse.mono (Nat.le_add_right _ _) (by simp), 1, d, rfl, ?_, rfl⟩
    exact (sockets_record rfl).trans ((sockets_record rfl).trans hasked)

theorem calls_nextAttempt (n : Network) : n.nextAttempt.2.calls = n.calls := by
  unfold nextAttempt
  split <;> rfl

/-- The attempt decides over which address a socket is opened, if there is time enough. -/
theorem openSocket_place (hnext : n.nextAttempt.1 = attempt)
    (harrivals : attempt.arrivals = some arrivals) (hplain : ∀ a ∈ attempt.addresses, a.IsPlain)
    (deadline : Deadline) (endpoint : Endpoint) :
    Lapse deadline (IsLate (n.openSocket deadline endpoint).1) n.clock
        (attempt.delay.nanoseconds + (attempt.addresses.map Address.delay).sum)
        (n.openSocket deadline endpoint).2.clock ∧
      match (n.openSocket deadline endpoint).1 with
      | .ok socket => ∃ k d, attempt.place deadline.isSome endpoint = .ok k ∧
          (n.openSocket deadline endpoint).2.sockets = n.sockets + k ∧
          socket = ⟨d, arrivals, attempt.departures, false⟩
      | .error reason => ¬IsLate (.error reason : Except Breakdown Socket) →
          attempt.place deadline.isSome endpoint = .error reason := by
  unfold Attempt.place Attempt.addresses openSocket
  have hclock := n.clock_nextAttempt
  have hcalls := n.calls_nextAttempt
  rcases hattempt : n.nextAttempt with ⟨a, n₁⟩
  rw [hattempt] at hclock hcalls hnext
  obtain rfl : a = attempt := hnext
  dsimp only
  -- To resolve the name takes its time, and asks for no socket.
  have hresolved : ((n₁.record (.resolve endpoint.host endpoint.port)).pass a.delay).clock ≤
      n.clock + a.delay.nanoseconds := by
    rw [← show n₁.clock = n.clock from hclock]
    exact le_rfl
  have hasked : ((n₁.record (.resolve endpoint.host endpoint.port)).pass a.delay).sockets =
      n.sockets := by
    refine (sockets_record rfl).trans ?_
    rw [sockets, sockets, show n₁.calls = n.calls from hcalls]
  have hunresolved {e : ResolveError} :
      ¬IsLate (.error (.unresolved endpoint.host e) : Except Breakdown Socket) := by
    simp [Failure.kindOfBreakdown]
  cases hresolution : a.resolution with
  | error e => exact ⟨.trans hresolved (.refl _ _ hunresolved), fun _ => rfl⟩
  | ok addresses =>
    cases addresses with
    | nil => exact ⟨.trans hresolved (.refl _ _ hunresolved), fun _ => rfl⟩
    | cons address more =>
      have hmore : ∀ b ∈ address :: more, b.IsPlain := by
        rwa [Attempt.addresses, hresolution] at hplain
      obtain ⟨hlapse, hopened⟩ := tryAddresses_place harrivals hmore deadline .noAddress
        ((n₁.record (.resolve endpoint.host endpoint.port)).pass a.delay)
      dsimp only
      rcases htry : tryAddresses deadline a .noAddress (address :: more)
        ((n₁.record (.resolve endpoint.host endpoint.port)).pass a.delay) with ⟨opening, n'⟩
      rw [htry] at hlapse hopened
      cases opening with
      | timedOut =>
        exact ⟨.trans hresolved (hlapse.mono le_rfl fun _ => rfl), fun hlate => absurd rfl hlate⟩
      | failed last =>
        rw [show Address.place _ _ _ = .error last from hopened]
        have hunreachable :
            ¬IsLate (.error (.unreachable endpoint last) : Except Breakdown Socket) := by
          simp [Failure.kindOfBreakdown]
        exact ⟨.trans hresolved (hlapse.mono le_rfl fun h => absurd h hunreachable), fun _ => rfl⟩
      | opened socket =>
        obtain ⟨k, d, hplace, hsockets, hsocket⟩ := hopened
        rw [hplace]
        refine ⟨.trans hresolved (hlapse.mono le_rfl (by simp)), k, d, rfl, ?_, hsocket⟩
        exact hsockets.trans (congrArg (· + k) hasked)

end Network
end RemoteCache
