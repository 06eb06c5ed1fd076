import RemoteCache.Proofs.Network.Setbacks

/-!
# What one deadline allows

A call makes many waits before one deadline, and each of them is given what is left at the time,
rounded down to whole milliseconds. So all of them together end with the deadline at the latest.
Only the resolution of a name is not a wait: what it takes, it takes.

A wait is also cut off at the longest time that a wait can last. A call that fails for want of
time has then not used up its deadline, but it has waited that long.

## Main definitions

* `Deadline.Fits` — a timeout after which the clock has not wrapped around
* `Deadline.Spends` — time passes, but not beyond a limit
* `Deadline.IsUp` — less than a millisecond is left, or the longest wait is over
* `Deadline.Keeps` — time is spent up to a limit, and given up only when it is up

## Main results

* `Pause.keeps_await`, `Address.keeps_connect` — one wait keeps to a limit, whatever interrupts it
* `Network.keeps_sendAll`, `Network.keeps_receive` — so do writing and reading, in all their parts
* `Network.keeps_openSocket` — and so does connecting, once the name is resolved
-/

namespace RemoteCache

/-! ### Limits -/

/-- Numbers that 64 bits hold do not wrap around. -/
theorem wrapInstant_of_bounds {x : Int} (hlower : -2 ^ 63 ≤ x) (hupper : x < 2 ^ 63) :
    wrapInstant x = x :=
  Int.bmod_eq_of_le (by omega) (by omega)

namespace Deadline

-- Instants are compared as the integers that they are.
variable {limit start now later timeout : Int} {late : Prop}

/-- A positive timeout after which the clock, as it stands now, has not wrapped around. -/
structure Fits (now timeout : Int) : Prop where
  pos : 0 < timeout
  le_now : -2 ^ 63 ≤ now
  duration_lt : milliseconds timeout < 2 ^ 63
  limit_lt : now + milliseconds timeout < 2 ^ 63

theorem Fits.nonneg (h : Fits now timeout) : 0 ≤ milliseconds timeout := by
  have hpos := h.pos
  unfold milliseconds
  omega

theorem Fits.after_eq (h : Fits now timeout) :
    after now timeout = some (now + milliseconds timeout) := by
  have hnonneg := h.nonneg
  obtain ⟨hpos, hnow, hduration, hlimit⟩ := h
  rw [after, if_neg (by omega), wrapInstant_of_bounds (x := milliseconds timeout) (by omega)
    hduration, wrapInstant_of_bounds (by omega) hlimit]

/-- Time passes from one instant to another, but not beyond a limit: once that is over, the clock
stands still. -/
structure Spends (limit start now : Int) : Prop where
  start_le : start ≤ now
  le_limit : -2 ^ 63 ≤ limit - start → now ≤ max start limit

theorem Spends.refl (limit start : Int) : Spends limit start start :=
  ⟨le_rfl, fun _ => le_max_left _ _⟩

theorem Spends.trans (h : Spends limit start now) (h' : Spends limit now later) :
    Spends limit start later := by
  obtain ⟨hstart, hlimit⟩ := h
  obtain ⟨hnow, hlimit'⟩ := h'
  refine ⟨hstart.trans hnow, fun hfits => ?_⟩
  have hle := hlimit hfits
  have hle' := hlimit' (by omega)
  omega

/-- What does not take longer does not take too long. -/
theorem Spends.of_le (h : Spends limit start later) (hstart : start ≤ now) (hle : now ≤ later) :
    Spends limit start now :=
  ⟨hstart, fun hfits => hle.trans (h.le_limit hfits)⟩

/-- What starts in time ends in time. -/
theorem Spends.le_of_le (h : Spends limit start now) (hle : start ≤ limit) : now ≤ limit :=
  (h.le_limit (by omega)).trans_eq (max_eq_right hle)

/-- Time is up: less than a millisecond is left, or the longest wait is over. This is said of limits
only that the clock can count to. -/
def IsUp (limit start now : Int) : Prop :=
  limit - start < 2 ^ 63 → limit - now < milliseconds 1 ∨ start + milliseconds longestWait ≤ now

theorem Spends.isUp (h : Spends limit start now) (hup : IsUp limit now later) :
    IsUp limit start later := by
  intro hfits
  have hstart := h.start_le
  refine (hup (by omega)).imp_right fun hlong => ?_
  omega

/-- Time is spent up to a limit, and if it turns out too short, then because it is up. -/
structure Keeps (limit : Int) (late : Prop) (start now : Int) : Prop where
  spends : Spends limit start now
  isUp : late → IsUp limit start now

theorem Keeps.of_spends (h : Spends limit start now) (hlate : ¬late) :
    Keeps limit late start now :=
  ⟨h, fun hlate' => absurd hlate' hlate⟩

theorem Spends.trans_keeps (h : Spends limit start now) (h' : Keeps limit late now later) :
    Keeps limit late start later :=
  ⟨h.trans h'.spends, fun hlate => h.isUp (h'.isUp hlate)⟩

/-- A wait for all that is granted ends with the limit at the latest, and then time is up. -/
theorem keeps_granted (limit start : Int) (late : Prop) :
    Keeps limit late start (start + (granted limit start).nanoseconds) := by
  obtain ⟨left, hremaining⟩ : ∃ left, remaining limit start = left := ⟨_, rfl⟩
  obtain ⟨span, hspan⟩ : ∃ span : Int, wrapInstant (limit - start) = span := ⟨_, rfl⟩
  -- What is left is counted in 64 bits: too much of it comes out as less than there is.
  have hle (hfits : -2 ^ 63 ≤ limit - start) : span ≤ limit - start :=
    hspan ▸ Cache.wrapInstant_le hfits
  have heq (hfits : limit - start < 2 ^ 63) (hsince : start ≤ limit) : span = limit - start :=
    hspan ▸ wrapInstant_of_bounds (by omega) hfits
  rw [granted_nanoseconds, hremaining]
  have hnonneg : 0 ≤ milliseconds left := Int.mul_nonneg (Int.natCast_nonneg left) (by decide)
  refine ⟨⟨Int.le_add_of_nonneg_right hnonneg, fun hfits => ?_⟩, fun _ hfits => ?_⟩
  · rcases Nat.eq_zero_or_pos left with rfl | hpos
    · exact le_max_of_le_left (by simp [milliseconds])
    · have hleft := ((le_remaining_iff hpos).1 hremaining.ge).1
      rw [hspan] at hleft
      have hbound := hle hfits
      exact le_max_of_le_right (by omega)
  · -- One millisecond more is not left.
    have hmore : ¬left + 1 ≤ remaining limit start := by omega
    rw [le_remaining_iff (Nat.succ_pos left), hspan] at hmore
    unfold milliseconds at *
    omega

/-- A part of what is granted may be spent. -/
theorem spends_of_le_granted (hstart : start ≤ now)
    (hle : now ≤ start + (granted limit start).nanoseconds) : Spends limit start now :=
  (keeps_granted limit start False).spends.of_le hstart hle

end Deadline

/-! ### One wait -/

section Waits

open Deadline

variable {limit start now : Int} {left : Nat}

/-- A wait that has not lasted longer than it may keeps to the limit, and also if it starts anew
with what is left. -/
theorem Pause.keeps_awaitUntil (pauses : List Pause) (hstart : start ≤ now)
    (hleft : now + left = start + (granted limit start).nanoseconds) :
    Keeps limit ((awaitUntil limit pauses left now).1 = .timedOut) start
      (awaitUntil limit pauses left now).2 := by
  have hspent {start now : Int} {left : Nat} (hstart : start ≤ now)
      (hleft : now + left = start + (granted limit start).nanoseconds) : Spends limit start now :=
    spends_of_le_granted hstart (hleft ▸ le_add_nanoseconds now left)
  -- By induction on the pauses: those that are over have spent some of what was left.
  fun_induction awaitUntil limit pauses left now generalizing start with
  | case1 left now => exact .of_spends (hspent hstart hleft) (by simp)
  | case2 span rest left now hlate => exact hleft ▸ keeps_granted limit start _
  | case3 span rest left now hspan ih =>
    refine ih (hstart.trans (le_add_nanoseconds now _)) ?_
    rw [← hleft]
    omega
  | case4 rest left now => exact hleft ▸ keeps_granted limit start _
  | case5 rest left now ih => exact (hspent hstart hleft).trans_keeps (ih le_rfl rfl)
  | case6 e rest left now he => exact .of_spends (hspent hstart hleft) (by simp)

theorem Pause.keeps_await (limit : Int) (pauses : List Pause) (now : Int) :
    Keeps limit ((await (some limit) pauses now).1 = .timedOut) now
      (await (some limit) pauses now).2 :=
  keeps_awaitUntil pauses le_rfl rfl

/-- Of the calls to connect to an address that are made before a deadline, one is waited for. -/
theorem Address.Answers.keeps_connectUntil (limit : Int) (a : Answers) (now : Int) :
    Keeps limit ((a.connectUntil limit now).1 = .timedOut) now (a.connectUntil limit now).2 := by
  have hwait := Pause.keeps_await limit a.pauses now
  unfold connectUntil
  split
  case h_5 =>
    split <;> rename_i hawait <;> rw [hawait] at hwait
    · exact ⟨hwait.spends, fun _ => hwait.isUp rfl⟩
    · exact .of_spends hwait.spends nofun
    · split <;> exact .of_spends hwait.spends nofun
  all_goals exact .of_spends (.refl limit now) nofun

/-- Connecting to an address is one wait, or none. -/
theorem Address.keeps_connect (limit : Int) (a : Address) (now : Int) :
    Keeps limit ((a.connect (some limit) now).1 = .timedOut) now
      (a.connect (some limit) now).2 := by
  have hstill {result : Result} (h : result ≠ .timedOut) :
      Keeps limit (result = .timedOut) now now :=
    .of_spends (.refl limit now) h
  cases a with
  | reachable => exact hstill nofun
  | silent => exact keeps_granted limit now _
  | answering answers => exact answers.keeps_connectUntil limit now
  | pending span interruptions =>
    unfold connect connectUntil
    dsimp only
    split
    · exact keeps_granted limit now _
    · rename_i hspan
      refine .of_spends (spends_of_le_granted (le_add_nanoseconds now _) ?_) nofun
      omega
  | failing stage e =>
    cases stage with
    | poll =>
      unfold connect connectUntil
      dsimp only
      split <;> exact hstill nofun
    | _ => exact hstill nofun

end Waits

/-! ### Many waits -/

namespace Network

open Deadline

variable {n n' : Network} {limit : Int} {socket : Socket} {attempt : Attempt} {d : Nat}

/-- A call that fails for want of time. -/
def IsLate {α : Type} : Except Breakdown α → Prop
  | .ok _ => False
  | .error reason => Failure.kindOfBreakdown reason = .timeout

@[simp] theorem isLate_ok {α : Type} (x : α) : IsLate (.ok x : Except Breakdown α) ↔ False := .rfl

@[simp] theorem isLate_error {α : Type} (reason : Breakdown) :
    IsLate (.error reason : Except Breakdown α) ↔ Failure.kindOfBreakdown reason = .timeout := .rfl

theorem isLate_map {α β : Type} (f : α → β) (result : Except Breakdown α) :
    IsLate (result.map f) ↔ IsLate result := by
  cases result <;> rfl

theorem keeps_wait {pauses : List Pause} {readiness : Readiness}
    (hwait : n.wait (some limit) d pauses = (readiness, n')) :
    Keeps limit (readiness = .timedOut) n.clock n'.clock := by
  obtain ⟨rfl, rfl⟩ := Prod.ext_iff.1 hwait
  exact Pause.keeps_await limit pauses n.clock

/-- To hand bytes to a socket takes no time. -/
theorem clock_deliver {b : Bytes} {result : Except Breakdown Unit}
    (h : n.deliver socket b = (result, n')) : n'.clock = n.clock ∧ ¬IsLate result := by
  unfold deliver at h
  dsimp only at h
  split at h
  · cases h
    exact ⟨rfl, nofun⟩
  · split at h <;> cases h <;> exact ⟨rfl, nofun⟩

/-- Writing keeps to the limit, however short its calls fall. -/
theorem keeps_sendAll (limit : Int) (socket : Socket) (script : Script Departure) (b : Bytes)
    (n : Network) :
    Keeps limit (IsLate (n.sendAll (some limit) socket script b).1) n.clock
      (n.sendAll (some limit) socket script b).2.clock := by
  have hspent {n n' n'' : Network} {pauses : List Pause} {readiness : Readiness} {b : Bytes}
      {result : Except Breakdown Unit}
      (hwait : n.wait (some limit) socket.descriptor pauses = (readiness, n'))
      (hdeliver : n'.deliver socket b = (result, n'')) : Spends limit n.clock n''.clock := by
    rw [(clock_deliver hdeliver).1]
    exact (keeps_wait hwait).spends
  -- By induction on the calls: each of them waits once and then takes no time.
  fun_induction Network.sendAll (some limit) socket script b n with
  | case1 script n => exact .of_spends (.refl limit n.clock) (by simp)
  | case2 b rest n readiness n' hwait result n'' hdeliver =>
    exact .of_spends (hspent hwait hdeliver) (mt (isLate_map _ _).1 (clock_deliver hdeliver).2)
  | case3 event script b rest n n' hwait =>
    exact ⟨(keeps_wait hwait).spends, fun _ => (keeps_wait hwait).isUp rfl⟩
  | case4 event script b rest n e n' hwait =>
    exact .of_spends (keeps_wait hwait).spends (by simp [Failure.kindOfBreakdown])
  | case5 event script b rest n n' hwait hevent result n'' hdeliver =>
    exact .of_spends (hspent hwait hdeliver) (mt (isLate_map _ _).1 (clock_deliver hdeliver).2)
  | case6 event script b rest n n' hwait limit hevent reason n'' hdeliver =>
    exact .of_spends (hspent hwait hdeliver) (clock_deliver hdeliver).2
  | case7 event script b rest n n' hwait n'' hevent hdeliver =>
    exact .of_spends (hspent hwait hdeliver) (by simp [Failure.kindOfBreakdown])
  | case8 event script b rest n n' hwait limit hevent n'' hdeliver hlimit ih =>
    exact (hspent hwait hdeliver).trans_keeps ih
  | case9 event script b rest n n' hwait hevent ih =>
    exact (keeps_wait hwait).spends.trans_keeps ih
  | case10 event script b rest n n' hwait e hevent he =>
    exact .of_spends (keeps_wait hwait).spends (by simp [Failure.kindOfBreakdown])

theorem isLate_endOfStream {α : Type} (pending : Bytes) :
    ¬IsLate (.error (endOfStream pending) : Except Breakdown α) := by
  rw [endOfStream]
  split <;> exact nofun

/-- Reading keeps to the limit, however small the segments are. -/
theorem keeps_receive (limit : Int) (shape : Shape) (d : Nat) (script : Script Arrival)
    (pending : Bytes) (n : Network) :
    Keeps limit (IsLate (n.receive (some limit) shape d script pending).1) n.clock
      (n.receive (some limit) shape d script pending).2.clock := by
  -- By induction on the calls, each of which waits once.
  fun_induction Network.receive (some limit) shape d script pending n with
  | case1 script pending n fault hread =>
    exact .of_spends (.refl limit n.clock) (by simp [Failure.kindOfBreakdown])
  | case2 script pending n response cursor hread =>
    exact .of_spends (.refl limit n.clock) (by simp)
  | case3 pending n missing cursor hread readiness n' hwait =>
    exact .of_spends (keeps_wait hwait).spends (isLate_endOfStream pending)
  | case4 pending n missing cursor hread event script n' hwait =>
    exact ⟨(keeps_wait hwait).spends, fun _ => (keeps_wait hwait).isUp rfl⟩
  | case5 pending n missing cursor hread event script e n' hwait =>
    exact .of_spends (keeps_wait hwait).spends (by simp [Failure.kindOfBreakdown])
  | case6 pending n missing cursor hread event script n' hwait =>
    exact .of_spends (keeps_wait hwait).spends (isLate_endOfStream pending)
  | case7 pending n missing cursor hread event script n' hwait b hevent n'' hempty =>
    exact .of_spends (keeps_wait hwait).spends (isLate_endOfStream pending)
  | case8 pending n missing cursor hread event script n' hwait b hevent n'' hempty ih =>
    exact (keeps_wait hwait).spends.trans_keeps ih
  | case9 pending n missing cursor hread event script n' hwait n'' hevent ih =>
    exact (keeps_wait hwait).spends.trans_keeps ih
  | case10 pending n missing cursor hread event script n' hwait =>
    exact .of_spends (keeps_wait hwait).spends (by simp [Failure.kindOfBreakdown])

/-- The server looks at what it was sent in no time. -/
theorem clock_settle (n : Network) (deadline : Deadline) (socket : Socket) :
    (n.settle deadline socket).2.clock = n.clock := by
  unfold settle
  split
  · split <;> rfl
  · rfl

/-! ### Opening a socket -/

theorem clock_reach {peer : Socket} (h : n.reach attempt d = (peer, n')) : n'.clock = n.clock := by
  unfold reach at h
  dsimp only at h
  split at h <;> cases h <;> rfl

theorem keeps_connecting (hopen : n.openDescriptor = (d, n')) {address : Address}
    {result : Address.Result} {time : Int}
    (hconnect : address.connect (some limit) n'.clock = (result, time)) :
    Keeps limit (result = .timedOut) n.clock time := by
  cases hopen
  obtain ⟨rfl, rfl⟩ := Prod.ext_iff.1 hconnect
  exact Address.keeps_connect limit address n.clock

/-- To try addresses in order keeps to the limit, however many there are. -/
theorem keeps_tryAddresses (limit : Int) (attempt : Attempt) (obstacle : Obstacle)
    (addresses : List Address) (n : Network) :
    Keeps limit ((tryAddresses (some limit) attempt obstacle addresses n).1 = .timedOut) n.clock
      (tryAddresses (some limit) attempt obstacle addresses n).2.clock := by
  -- By induction on the addresses: each of them is waited for once.
  fun_induction tryAddresses (some limit) attempt obstacle addresses n with
  | case1 obstacle n => exact .of_spends (.refl limit n.clock) (by simp)
  | case2 obstacle e more n ih => exact ih
  | case3 obstacle address more n hsocket d n₁ hopen time n₂ hconnect =>
    exact ⟨(keeps_connecting hopen hconnect).spends,
      fun _ => (keeps_connecting hopen hconnect).isUp rfl⟩
  | case4 obstacle address more n hsocket d n₁ hopen time n₂ obstacle' hconnect ih =>
    exact (keeps_connecting hopen hconnect).spends.trans_keeps ih
  | case5 obstacle address more n hsocket d n₁ hopen time n₂ peer n₃ hreach n₄ obstacle' hsetback
      hconnect ih =>
    have hspent := (keeps_connecting hopen hconnect).spends
    have hreached : n₃.clock = time := clock_reach hreach
    rw [← hreached] at hspent
    exact hspent.trans_keeps ih
  | case6 obstacle address more n hsocket d n₁ hopen time n₂ peer n₃ hreach n₄ hsetback hconnect =>
    have hspent := (keeps_connecting hopen hconnect).spends
    have hreached : n₃.clock = time := clock_reach hreach
    rw [← hreached] at hspent
    exact .of_spends hspent (by simp)

/-- The instant at which the name is resolved, by the next attempt. -/
def resolvedAt (n : Network) : Int := n.clock + n.nextAttempt.1.delay.nanoseconds

theorem clock_nextAttempt (n : Network) : n.nextAttempt.2.clock = n.clock := by
  unfold nextAttempt
  split <;> rfl

/-- Opening a socket keeps to the limit from the instant on at which the name is resolved. -/
theorem keeps_openSocket (limit : Int) (endpoint : Endpoint) (n : Network) :
    Keeps limit (IsLate (n.openSocket (some limit) endpoint).1) n.resolvedAt
      (n.openSocket (some limit) endpoint).2.clock := by
  have hclock := n.clock_nextAttempt
  unfold openSocket resolvedAt
  rcases hnext : n.nextAttempt with ⟨attempt, n'⟩
  rw [hnext] at hclock
  dsimp only
  rw [← show n'.clock = n.clock from hclock]
  split
  · exact .of_spends (.refl limit _) nofun
  · exact .of_spends (.refl limit _) nofun
  · rename_i addresses _ _
    have htried := keeps_tryAddresses limit attempt .noAddress addresses
      ((n'.record (.resolve endpoint.host endpoint.port)).pass attempt.delay)
    split <;> rename_i htry <;> rw [htry] at htried
    · exact .of_spends htried.spends nofun
    · exact .of_spends htried.spends nofun
    · exact ⟨htried.spends, fun _ => htried.isUp rfl⟩

/-- Where nothing answers, all the time that is left is spent. -/
theorem openSocket_silent (hattempt : n.nextAttempt.1 = { resolution := .ok [.silent] })
    (limit : Int) (endpoint : Endpoint) :
    ∃ n', n.openSocket (some limit) endpoint = (.error (.connectTimedOut endpoint), n') ∧
      n'.clock = n.resolvedAt + (granted limit n.resolvedAt).nanoseconds := by
  have hclock := n.clock_nextAttempt
  unfold openSocket resolvedAt
  rcases hnext : n.nextAttempt with ⟨attempt, n'⟩
  rw [hnext] at hclock hattempt
  obtain rfl : attempt = _ := hattempt
  rw [← show n'.clock = n.clock from hclock]
  exact ⟨_, rfl, rfl⟩

end Network

end RemoteCache
