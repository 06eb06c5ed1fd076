import RemoteCache.Proofs.Network.Modes

/-!
# Waits that leave no trace

Before a deadline, every call on a socket is preceded by a wait, and without one the call blocks
instead. As long as all waits end in time, that is all the difference there is: the same calls are
made in the same order, and they meet the same events at the same instants. A wait shows in the
record of the calls only.

So a network is compared with itself without its record of waits, and what is done before a deadline
with what is done without one.

## Main definitions

* `Network.erase` — a network without its record of waits
* `Script.pausesWriting`, `Script.pausesReading` — the pauses that writing and reading meet
* `Network.Delays` — how long the delays last that a request and its response meet

## Main results

* `Network.wait_erase` — a wait that ends in time passes the time that a call would block
* `Network.sendAll_erase`, `Network.receive_erase` — writing and reading before a deadline come to
  the same as without one
-/

namespace RemoteCache

open Wire

namespace Call

/-- A call that only waits, or uses a descriptor in another way without bytes passing. -/
def isUse : Call → Bool
  | .use _ => true
  | _ => false

/-- What was written shows in the other calls. -/
theorem sent_filter_isUse (calls : List Call) :
    sent (calls.filter fun call => !call.isUse) = sent calls := by
  induction calls with
  | nil => rfl
  | cons call earlier ih =>
    cases call with
    | send d b => exact congrArg (· ++ b) ih
    | _ => exact ih

end Call

namespace Pause

theorem time_eq_pass {limit now time : Instant} {pauses : List Pause} {left : Nat}
    (h : awaitUntil limit pauses left now = (.ready, time)) : time = pass pauses now := by
  fun_induction awaitUntil limit pauses left now with
  | case1 left now => exact (Prod.ext_iff.1 h).2.symm
  | case2 => cases h
  | case3 left now ms rest hleft ih => exact ih h
  | case4 => cases h
  | case5 rest left now ih => exact ih h
  | case6 => cases h

theorem Lasts.append {pauses more : List Pause} {ns rest : Nat} (h : Lasts pauses ns)
    (h' : Lasts more rest) : Lasts (pauses ++ more) (ns + rest) := by
  induction h with
  | nil => rwa [Nat.zero_add]
  | delay span h ih =>
    rw [Nat.add_assoc]
    exact .delay span ih
  | signal h ih => exact .signal ih

end Pause

namespace Network

variable {n n' : Network} {deadline : Deadline} {d : Nat} {socket : Socket}

/-- A network without its record of waits. -/
def erase (n : Network) : Network :=
  { n with calls := n.calls.filter fun call => !call.isUse }

theorem sent_erase (n : Network) : Call.sent n.erase.calls = Call.sent n.calls :=
  Call.sent_filter_isUse n.calls

/-- A wait that ends in time passes the time that a call would block. -/
theorem wait_erase {pauses more : List Pause} (h : n.InTime deadline (pauses ++ more)) (d : Nat) :
    ∃ n', n.wait deadline d pauses = (.ready, n') ∧
      n.erase.wait none d pauses = (.ready, n'.erase) ∧ n'.InTime deadline more := by
  obtain ⟨n', hwait, hmore⟩ := wait_of_inTime h d
  refine ⟨n', hwait, ?_, hmore⟩
  cases deadline with
  | none =>
    obtain rfl := (Prod.ext_iff.1 hwait).2
    rfl
  | some limit =>
    have hawait : ((Pause.await (some limit) pauses n.clock).1,
        ({ n with clock := (Pause.await (some limit) pauses n.clock).2 }).record (.use d)) =
          (.ready, n') := hwait
    obtain ⟨hready, rfl⟩ := Prod.ext_iff.1 hawait
    have htime : (Pause.await (some limit) pauses n.clock).2 = Pause.pass pauses n.clock :=
      Pause.time_eq_pass (Prod.ext hready rfl)
    rw [htime]
    rfl

/-! ### Writing -/

end Network

/-- The pauses that writing some bytes meets, where every wait ends with its event. A peer that is
gone takes nothing. -/
def Script.pausesWriting (isGone : Bool) : Script Departure → Bytes → List Pause
  | _, [] | [], _ => []
  | met :: script, b :: rest =>
    met.pauses ++
      match met.event with
      | .accept none => []
      | .accept (some limit) =>
        if isGone || limit = 0 then [] else pausesWriting isGone script ((b :: rest).drop limit)
      | .failed e => if e = .interrupted then pausesWriting isGone script (b :: rest) else []

namespace Network

variable {n n' : Network} {deadline : Deadline} {d : Nat} {socket : Socket}

theorem deliver_erase (n : Network) (socket : Socket) (b : Bytes) :
    n.erase.deliver socket b = ((n.deliver socket b).1, (n.deliver socket b).2.erase) := by
  have hgone : n.erase.isGone socket = n.isGone socket := rfl
  unfold deliver
  rw [hgone]
  split
  · rfl
  · split <;> rfl

/-- A peer takes bytes exactly if it is there, and then it stays there. -/
theorem isGone_of_deliver {b : Bytes} {result : Except Breakdown Unit}
    (h : n.deliver socket b = (result, n')) :
    match result with
    | .ok _ => n.isGone socket = false ∧ n'.isGone socket = false
    | .error _ => n.isGone socket = true := by
  unfold deliver at h
  dsimp only at h
  split at h
  · rename_i hgone
    cases h
    exact hgone
  · rename_i hgone
    have hthere : n.isGone socket = false := Bool.eq_false_of_not_eq_true hgone
    split at h <;> cases h
    · refine ⟨hthere, ?_⟩
      rw [← hthere]
      unfold isGone record
      dsimp only
      cases n.service with
      | none => rfl
      | some service => cases service with | mk server caller => cases caller <;> rfl
    · exact ⟨hthere, hthere⟩

/-- Writing in time before a deadline comes to the same as without one. -/
theorem sendAll_erase {more : List Pause} {script : Script Departure} {b : Bytes}
    (h : n.InTime deadline (script.pausesWriting (n.isGone socket) b ++ more)) :
    ∃ n', n.sendAll deadline socket script b = ((n.erase.sendAll none socket script b).1, n') ∧
      n'.erase = (n.erase.sendAll none socket script b).2 ∧ n'.InTime deadline more := by
  -- By induction on the events that writing meets. A peer that is there stays there while it takes
  -- bytes, so the pauses of what is left are those that the rest meets.
  induction script generalizing b n with
  | nil =>
    cases b with
    | nil => exact ⟨n, by rw [sendAll, sendAll], by rw [sendAll], h⟩
    | cons c rest =>
      have hnone : n.InTime deadline ([] ++ more) := h
      obtain ⟨n₁, hwait, hfree, hmore⟩ := wait_erase hnone socket.descriptor
      simp only [sendAll, hwait, hfree, deliver_erase]
      rcases hdeliver : n₁.deliver socket (c :: rest) with ⟨result, n₂⟩
      exact ⟨n₂, rfl, rfl, hmore.congr (clock_deliver hdeliver).1⟩
  | cons met script ih =>
    cases b with
    | nil => exact ⟨n, by rw [sendAll, sendAll], by rw [sendAll], h⟩
    | cons c rest =>
      rw [Script.pausesWriting, List.append_assoc] at h
      obtain ⟨n₁, hwait, hfree, hmore⟩ := wait_erase h socket.descriptor
      have hgone : n.isGone socket = n₁.isGone socket :=
        congrArg (fun waited => waited.2.isGone socket) hfree
      simp only [sendAll, hwait, hfree, deliver_erase]
      cases hevent : met.event with
      | accept limit =>
        cases limit with
        | none =>
          rw [hevent] at hmore
          dsimp only
          rcases hdeliver : n₁.deliver socket (c :: rest) with ⟨result, n₂⟩
          exact ⟨n₂, rfl, rfl, hmore.congr (clock_deliver hdeliver).1⟩
        | some limit =>
          rw [hevent, hgone] at hmore
          dsimp only at hmore ⊢
          rcases hdeliver : n₁.deliver socket ((c :: rest).take limit) with ⟨result, n₂⟩
          have hthere := isGone_of_deliver hdeliver
          have hlater := hmore.congr (clock_deliver hdeliver).1
          cases result with
          | error reason =>
            rw [show n₁.isGone socket = true from hthere] at hlater
            exact ⟨n₂, rfl, rfl, hlater⟩
          | ok u =>
            obtain ⟨hthere, hstays⟩ := hthere
            rw [hthere, Bool.false_or] at hlater
            dsimp only
            by_cases hlimit : limit = 0
            · rw [if_pos hlimit, if_pos hlimit]
              rw [hlimit] at hlater
              exact ⟨n₂, rfl, rfl, hlater⟩
            · rw [if_neg hlimit, if_neg hlimit]
              rw [if_neg (by simpa using hlimit), ← hstays] at hlater
              exact ih hlater
      | failed e =>
        rw [hevent] at hmore
        dsimp only at hmore ⊢
        by_cases he : e = .interrupted
        · rw [if_pos he, hgone] at hmore
          rw [if_pos he, if_pos he]
          exact ih (n := n₁.record (.send socket.descriptor [])) hmore
        · rw [if_neg he] at hmore
          rw [if_neg he, if_neg he]
          exact ⟨_, rfl, rfl, hmore⟩

end Network

/-! ### Reading -/

/-- The pauses that reading a response meets, where every wait ends with its event. Once it is
decided what there is to read, nothing more is met. -/
def Script.pausesReading (shape : Shape) : Script Arrival → Bytes → List Pause
  | script, pending =>
    match Reply.read shape (.start pending) with
    | .done _ _ | .malformed _ => []
    | .short _ _ =>
      match script with
      | [] => []
      | met :: script =>
        met.pauses ++
          match met.event with
          | .close => []
          | .segment b => if b.isEmpty then [] else pausesReading shape script (pending ++ b)
          | .failed e => if e = .interrupted then pausesReading shape script pending else []

namespace Network

variable {n n' : Network} {deadline : Deadline} {d : Nat} {socket : Socket} {shape : Shape}

/-- Reading in time before a deadline comes to the same as without one. -/
theorem receive_erase {script : Script Arrival} {pending : Bytes}
    (h : n.InTime deadline (script.pausesReading shape pending)) (d : Nat) :
    ∃ n', n.receive deadline shape d script pending =
        ((n.erase.receive none shape d script pending).1, n') ∧
      n'.erase = (n.erase.receive none shape d script pending).2 := by
  -- By the events that reading meets, until it is decided what there is to read.
  fun_induction Script.pausesReading shape script pending generalizing n with
  | case1 script pending r c hread =>
    rw [receive_of_done hread, receive_of_done hread]
    exact ⟨n, rfl, rfl⟩
  | case2 script pending fault hread =>
    unfold receive
    rw [hread]
    exact ⟨n, rfl, rfl⟩
  | case3 pending missing c hread =>
    have hnone : n.InTime deadline ([] ++ []) := h
    obtain ⟨n₁, hwait, hfree, -⟩ := wait_erase hnone d
    simp only [receive, hread, hwait, hfree]
    exact ⟨_, rfl, rfl⟩
  | case4 pending missing c hread met script ihSegment ihSignal =>
    obtain ⟨n₁, hwait, hfree, hmore⟩ := wait_erase h d
    simp only [receive, hread, hwait, hfree]
    cases hevent : met.event with
    | close => exact ⟨_, rfl, rfl⟩
    | segment b =>
      rw [hevent] at hmore
      dsimp only at hmore ⊢
      split
      · exact ⟨_, rfl, rfl⟩
      · rename_i hsome
        rw [if_neg hsome] at hmore
        exact ihSegment b (n := n₁.record (.receive d b)) hmore
    | failed e =>
      rw [hevent] at hmore
      dsimp only at hmore ⊢
      split
      · rename_i he
        rw [if_pos he] at hmore
        exact ihSignal (n := n₁.record (.receive d [])) hmore
      · exact ⟨_, rfl, rfl⟩

/-- A server that is ready in time looks at what it was sent, before a deadline and without one. -/
theorem settle_erase (hready : ∀ service, socket.isHosted = true → n.service = some service →
    outlasts deadline n.clock service = false) :
    n.erase.settle none socket =
      ((n.settle deadline socket).1, (n.settle deadline socket).2.erase) := by
  unfold settle
  cases hhosted : socket.isHosted with
  | false => rfl
  | true =>
    rw [show n.erase.service = n.service from rfl]
    cases hservice : n.service with
    | none => rfl
    | some service =>
      rw [hhosted] at hready
      dsimp only
      rw [hready service rfl hservice]
      rfl

/-- What a server writes does not depend on what writing to it will meet. -/
theorem arrivals_settle (n : Network) (deadline : Deadline) (socket : Socket)
    (departures : Script Departure) :
    (n.settle deadline { socket with departures }).1.arrivals =
      (n.settle deadline socket).1.arrivals := by
  unfold settle
  cases socket.isHosted with
  | false => rfl
  | true =>
    cases n.service with
    | none => rfl
    | some service =>
      dsimp only
      split <;> rfl

/-! ### A request and its response -/

/-- What writing a request comes to, where no wait is limited. -/
def asked (command : Command) (socket : Socket) (n : Network) :
    Except Breakdown (Script Departure) × Network :=
  n.sendAll none socket socket.departures (Request.encode command)

/-- The pauses that writing a request meets. -/
def pausesAsking (command : Command) (socket : Socket) (n : Network) : List Pause :=
  socket.departures.pausesWriting (n.isGone socket) (Request.encode command)

/-- The pauses that reading the response to a request meets, if it is written whole. -/
def pausesHearing (command : Command) (socket : Socket) (n : Network) : List Pause :=
  match n.asked command socket with
  | (.ok _, written) =>
    (written.settle none socket).1.arrivals.pausesReading command.shape []
  | (.error _, _) => []

/-- The delays on the way of a request and its response last so many nanoseconds, and no wait for
them fails. A server that is the peer is ready to look at the request by then. -/
structure Delays (command : Command) (socket : Socket) (ns : Nat) (n : Network) : Prop where
  lasts : Pause.Lasts (n.pausesAsking command socket ++ n.pausesHearing command socket) ns
  ready : ∀ service, socket.isHosted = true → (n.asked command socket).2.service = some service →
    ∃ spent busy, Pause.Lasts (n.pausesAsking command socket) spent ∧ spent + busy ≤ ns ∧
      service.readyAt (n.asked command socket).2.clock ≤
        (n.asked command socket).2.clock + busy

/-- A request that is written in time leaves the network as it would without a deadline, and time
enough for what is still to come. -/
theorem sendAll_in_time {command : Command} {more : List Pause}
    (h : n.InTime deadline (n.pausesAsking command socket ++ more)) :
    ∃ n', n.sendAll deadline socket socket.departures (Request.encode command) =
        ((n.asked command socket).1, n') ∧
      n'.erase = (n.asked command socket).2.erase ∧ n'.InTime deadline more := by
  obtain ⟨n', hsend, herase, hmore⟩ := sendAll_erase h
  have hnone : n.InTime none (socket.departures.pausesWriting (n.isGone socket)
      (Request.encode command) ++ []) := nofun
  obtain ⟨written, hasked, hfree, -⟩ := sendAll_erase hnone
  unfold asked
  rw [hasked]
  exact ⟨n', hsend, herase.trans hfree.symm, hmore⟩

/-- A server that is busy for less time than is left is waited for. -/
theorem outlasts_eq_false {service : Service} {busy : Nat}
    (h : n.InTime deadline [.delay ⟨busy⟩]) (hready : service.readyAt n.clock ≤ n.clock + busy) :
    outlasts deadline n.clock service = false := by
  cases deadline with
  | none => rfl
  | some limit =>
    obtain ⟨ns, htimely⟩ := h limit rfl
    cases htimely with
    | delay _ hgranted =>
      have hbusy : busy ≤ (Deadline.granted limit n.clock).nanoseconds :=
        (Nat.le_add_right busy _).trans hgranted
      refine decide_eq_false (not_lt.2 (hready.trans (Int.add_le_add_left ?_ _)))
      exact Int.ofNat_le.2 hbusy

end Network

end RemoteCache
