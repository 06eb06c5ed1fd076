import Mathlib.Logic.Function.Basic
import RemoteCache.Proofs.Server.Logs

/-!
# A map that drops values in time

A lease is a value with the lifetime that it was given last. A map from keys to leases drops each
lease at the very instant at which its lifetime ends. What it holds under a key can be read off the
log of the commands: the latest value that was stored and not deleted, if its lifetime is not over.

## Main definitions

* `Lease` — a value with the lifetime that it was given last
* `EagerMap` — the leases by key
* `EagerMap.reply`, `EagerMap.next` — what such a map makes of a command
* `Cache.Leased` — what a log says about a key

## Main results

* `Lease.secondsLeft_spec` — the rest of a lifetime, rounded up to whole seconds
* `EagerMap.leases_after` — the map holds what the log says
-/

namespace RemoteCache

/-! ### Leases -/

/-- A value with the lifetime that it was given last. -/
structure Lease where
  value : Bytes
  /-- When the lifetime was given. -/
  since : Instant
  /-- The lifetime in seconds; none or zero lasts for ever. -/
  ttl : Option Int
deriving DecidableEq

namespace Lease

/-- The instant at which the lifetime ends, if it does. -/
def limit (l : Lease) : Option Instant :=
  match l.ttl with
  | none => none
  | some ttl => if 0 < ttl then some (l.since + seconds ttl) else none

/-- Whether the end of the lifetime has been reached. -/
def isOver (l : Lease) (now : Instant) : Bool :=
  match l.limit with
  | none => false
  | some limit => limit ≤ now

/-- The seconds that are left, a begun second counted in full; zero stands for no end. -/
def secondsLeft (l : Lease) (now : Instant) : Int :=
  match l.limit with
  | none => 0
  | some limit => (limit - now + (seconds 1 - 1)) / seconds 1

/-- What a store files for the lease. -/
def entry (l : Lease) : Entry := ⟨l.value, l.limit⟩

variable {l : Lease} {now later : Instant}

theorem isExpired_entry : l.entry.isExpired now = l.isOver now := rfl

theorem isOver_mono (h : now ≤ later) (hover : l.isOver now = true) : l.isOver later = true :=
  Entry.isExpired_mono (e := l.entry) h hover

/-- A lifetime that has an end was given as some seconds. -/
theorem limit_eq_some {limit : Instant} (h : l.limit = some limit) :
    ∃ ttl, l.ttl = some ttl ∧ 0 < ttl ∧ limit = l.since + seconds ttl := by
  unfold Lease.limit at h
  cases httl : l.ttl with
  | none => simp [httl] at h
  | some ttl =>
    simp only [httl] at h
    split at h
    · rename_i hpos
      exact ⟨ttl, rfl, hpos, (Option.some.inj h).symm⟩
    · cases h

theorem seconds_cover {now limit : Int} (h : now < limit) :
    1 ≤ (limit - now + (seconds 1 - 1)) / seconds 1 ∧
      limit ≤ now + seconds ((limit - now + (seconds 1 - 1)) / seconds 1) ∧
      now + seconds ((limit - now + (seconds 1 - 1)) / seconds 1 - 1) < limit := by
  unfold seconds
  omega

/-- The seconds left are the least number of them that reaches the end. -/
theorem secondsLeft_spec {limit : Instant} (hlimit : l.limit = some limit)
    (hover : l.isOver now = false) :
    1 ≤ l.secondsLeft now ∧ limit ≤ now + seconds (l.secondsLeft now) ∧
      now + seconds (l.secondsLeft now - 1) < limit := by
  have hlater : now < limit := by simpa [isOver, hlimit] using hover
  simp only [secondsLeft, hlimit]
  exact seconds_cover hlater

end Lease

/-! ### The map that drops values in time -/

/-- Values and their leases, and the length that a value may have. -/
structure EagerMap where
  capacity : Nat
  leases : Bytes → Option Lease

namespace EagerMap

/-- The map that a cache without entries stands for. -/
def ofCapacity (capacity : Nat) : EagerMap := ⟨capacity, fun _ => none⟩

/-- The map at an instant: every lease that is over has been dropped. -/
def pruned (m : EagerMap) (now : Instant) : EagerMap :=
  { m with leases := fun key => (m.leases key).filter fun l => !l.isOver now }

/-- Whether a value is stored. -/
def Accepts (m : EagerMap) (value : Bytes) : Prop := value ≠ [] ∧ value.length ≤ m.capacity

instance (m : EagerMap) (value : Bytes) : Decidable (m.Accepts value) :=
  inferInstanceAs (Decidable (_ ∧ _))

/-- What is said about the lease of a key. -/
def tell (m : EagerMap) (key : Bytes) (answer : Lease → Payload) : Response :=
  match m.leases key with
  | none => .refused (.ofCache .keyNotFound)
  | some l => .ok (answer l)

/-- What the map, in which no lease is over, answers to a command about a key. -/
def reply (m : EagerMap) (now : Instant) : Command → Option Response
  | .get key | .peek key => some (m.tell key fun l => .value l.value)
  | .has key => some (.ok (.flag (m.leases key).isSome))
  | .valueSize key => some (m.tell key fun l => .size l.value.length.toUInt32)
  | .getTtl key => some (m.tell key fun l => .expiry (l.secondsLeft now))
  | .del key | .setTtl key _ => some (m.tell key fun _ => .ack)
  | .set _ value _ =>
    if value = [] then some (.refused (.ofCache .zeroValueSize))
    else if m.capacity < value.length then some (.refused (.ofCache .exceedingValueSize))
    else some (.ok .ack)
  | .ping | .version | .wipe | .resize _ | .setPolicy _ | .getStatus => none

/-- What becomes of the map with a command. -/
def next (m : EagerMap) (now : Instant) : Command → EagerMap
  | .set key value ttl =>
    if m.Accepts value then
      { m with leases := Function.update m.leases key (some ⟨value, now, ttl⟩) }
    else m
  | .del key => { m with leases := Function.update m.leases key none }
  | .setTtl key ttl =>
    let renewed := (m.leases key).map fun l => { l with since := now, ttl := ttl }
    { m with leases := Function.update m.leases key renewed }
  | .wipe => { m with leases := fun _ => none }
  | .resize capacity =>
    if capacity = 0 then m else { m with capacity := (capacity % 2 ^ 64).toNat }
  | .ping | .version | .get _ | .peek _ | .has _ | .valueSize _ | .getTtl _ | .setPolicy _
  | .getStatus => m

/-- The map once the commands of a log have come, each at its instant. -/
def after (m : EagerMap) : Cache.Log → EagerMap
  | [] => m
  | (now, command) :: log => ((m.pruned now).next now command).after log

variable {m : EagerMap} {now later : Instant} {key : Bytes}

theorem pruned_pruned (h : now ≤ later) : (m.pruned now).pruned later = m.pruned later := by
  have hleases (key : Bytes) :
      ((m.pruned now).pruned later).leases key = (m.pruned later).leases key := by
    simp only [EagerMap.pruned]
    cases m.leases key with
    | none => rfl
    | some l =>
      cases hnow : l.isOver now with
      | false => simp [Option.filter, hnow]
      | true => simp [Option.filter, hnow, Lease.isOver_mono h hnow]
  exact congrArg (EagerMap.mk m.capacity) (funext hleases)

theorem pruned_leases_eq_some {l : Lease} :
    (m.pruned now).leases key = some l ↔ m.leases key = some l ∧ l.isOver now = false := by
  simp [EagerMap.pruned, Option.filter_eq_some_iff]

theorem after_concat (m : EagerMap) (log : Cache.Log) (now : Instant) (command : Command) :
    m.after (log ++ [(now, command)]) = ((m.after log).pruned now).next now command := by
  induction log generalizing m with
  | nil => rfl
  | cons event log ih => exact ih _

/-- What is under the keys once the lease of one of them was replaced. -/
theorem pruned_update (m : EagerMap) (key : Bytes) (lease : Option Lease) (now : Instant)
    (other : Bytes) :
    ({ m with leases := Function.update m.leases key lease }.pruned now).leases other =
      if other = key then lease.filter fun l => !l.isOver now
      else (m.pruned now).leases other := by
  by_cases h : other = key
  · subst h
    simp [pruned]
  · simp [pruned, h]

end EagerMap

/-! ### What a log says about a key -/

namespace Cache

/-- The capacity after a log: the one that was set last, as 64 bits without a sign hold it. -/
def capacityAfter (capacity : Nat) : Log → Nat
  | [] => capacity
  | (_, .resize n) :: log =>
    capacityAfter (if n = 0 then capacity else (n % 2 ^ 64).toNat) log
  | _ :: log => capacityAfter capacity log

end Cache

/-- A command after which a key has another lease than before, or none. -/
def Command.Replaces (capacity : Nat) (key : Bytes) : Command → Prop
  | .set other value _ => other = key ∧ value ≠ [] ∧ value.length ≤ capacity
  | .del other | .setTtl other _ => other = key
  | .wipe => True
  | _ => False

namespace Cache

/-- The lease that a log leaves to a key, over or not: the latest value that was stored under it and
not deleted since, with the lifetime that it was given last while it was there. -/
inductive Leased (capacity : Nat) (key : Bytes) : Log → Lease → Prop
  | stored {log : Log} {now : Instant} {value : Bytes} {ttl : Option Int} (hvalue : value ≠ [])
      (hlength : value.length ≤ capacityAfter capacity log) :
      Leased capacity key (log ++ [(now, .set key value ttl)]) ⟨value, now, ttl⟩
  | renewed {log : Log} {now : Instant} {lease : Lease} {ttl : Option Int}
      (hlease : Leased capacity key log lease) (hover : lease.isOver now = false) :
      Leased capacity key (log ++ [(now, .setTtl key ttl)]) ⟨lease.value, now, ttl⟩
  | kept {log : Log} {now : Instant} {lease : Lease} {command : Command}
      (hlease : Leased capacity key log lease)
      (hcommand : ¬ command.Replaces (capacityAfter capacity log) key) :
      Leased capacity key (log ++ [(now, command)]) lease

variable {capacity : Nat} {key : Bytes} {log : Log} {lease : Lease} {now : Instant}
  {command : Command}

/-- A lease was given by a command of the log. -/
theorem Leased.since_le (h : Leased capacity key log lease) (hnow : ∀ event ∈ log, event.1 ≤ now) :
    lease.since ≤ now := by
  induction h with
  | stored | renewed => exact hnow _ List.mem_concat_self
  | kept _ _ ih => exact ih fun event hmem => hnow event (List.mem_append_left _ hmem)

/-- What the last command of a log did to the lease of a key. -/
theorem leased_concat_iff :
    Leased capacity key (log ++ [(now, command)]) lease ↔
      (∃ value ttl, command = .set key value ttl ∧ value ≠ [] ∧
        value.length ≤ capacityAfter capacity log ∧ lease = ⟨value, now, ttl⟩) ∨
      (∃ old ttl, command = .setTtl key ttl ∧ Leased capacity key log old ∧
        old.isOver now = false ∧ lease = ⟨old.value, now, ttl⟩) ∨
      (Leased capacity key log lease ∧
        ¬ command.Replaces (capacityAfter capacity log) key) := by
  constructor
  · intro h
    generalize hlog : log ++ [(now, command)] = whole at h
    cases h with
    | stored hvalue hlength =>
      obtain ⟨rfl, hlast⟩ := List.append_inj' hlog rfl
      cases hlast
      exact .inl ⟨_, _, rfl, hvalue, hlength, rfl⟩
    | renewed hlease hover =>
      obtain ⟨rfl, hlast⟩ := List.append_inj' hlog rfl
      cases hlast
      exact .inr (.inl ⟨_, _, rfl, hlease, hover, rfl⟩)
    | kept hlease hcommand =>
      obtain ⟨rfl, hlast⟩ := List.append_inj' hlog rfl
      cases hlast
      exact .inr (.inr ⟨hlease, hcommand⟩)
  · rintro (⟨value, ttl, rfl, hvalue, hlength, rfl⟩ | ⟨old, ttl, rfl, hlease, hover, rfl⟩ |
      ⟨hlease, hcommand⟩)
    · exact .stored hvalue hlength
    · exact .renewed hlease hover
    · exact .kept hlease hcommand

theorem capacityAfter_concat (capacity : Nat) (log : Log) (now : Instant) (command : Command) :
    capacityAfter capacity (log ++ [(now, command)]) =
      capacityAfter (capacityAfter capacity log) [(now, command)] := by
  induction log generalizing capacity with
  | nil => rfl
  | cons event log ih =>
    obtain ⟨time, first⟩ := event
    cases first with
    | _ => exact ih _

end Cache

namespace EagerMap

variable {m : EagerMap} {now : Instant} {command : Command} {key : Bytes}

theorem capacity_next (m : EagerMap) (now : Instant) (command : Command) :
    (m.next now command).capacity = Cache.capacityAfter m.capacity [(now, command)] := by
  cases command with
  | set key value ttl =>
    simp only [next]
    split <;> rfl
  | resize n =>
    simp only [next, Cache.capacityAfter]
    split <;> rfl
  | _ => rfl

theorem capacity_after (capacity : Nat) (log : Cache.Log) :
    ((ofCapacity capacity).after log).capacity = Cache.capacityAfter capacity log := by
  induction log using List.reverseRecOn with
  | nil => rfl
  | append_singleton log event ih =>
    rw [after_concat, capacity_next, Cache.capacityAfter_concat, ← ih]
    rfl

/-- A command that does not replace the lease of a key leaves it as it is. -/
theorem next_leases (h : ¬ command.Replaces m.capacity key) :
    (m.next now command).leases key = m.leases key := by
  cases command with
  | set other value ttl =>
    simp only [next]
    split
    · rename_i haccepts
      exact Function.update_of_ne (fun hkey => h ⟨hkey.symm, haccepts⟩) _ _
    · rfl
  | del other | setTtl other ttl => exact Function.update_of_ne (fun hkey => h hkey.symm) _ _
  | wipe => exact absurd trivial h
  | resize n =>
    simp only [next]
    split <;> rfl
  | _ => rfl

/-- What a command did to the lease of a key. -/
theorem next_leases_eq_some {lease : Lease} :
    (m.next now command).leases key = some lease ↔
      (∃ value ttl, command = .set key value ttl ∧ value ≠ [] ∧ value.length ≤ m.capacity ∧
        lease = ⟨value, now, ttl⟩) ∨
      (∃ old ttl, command = .setTtl key ttl ∧ m.leases key = some old ∧
        lease = ⟨old.value, now, ttl⟩) ∨
      (m.leases key = some lease ∧ ¬ command.Replaces m.capacity key) := by
  by_cases hcommand : command.Replaces m.capacity key
  · cases command with
    | set other value ttl =>
      obtain ⟨rfl, hvalue, hlength⟩ := hcommand
      have haccepts : m.Accepts value := ⟨hvalue, hlength⟩
      simp only [next, if_pos haccepts, Function.update_self, Option.some.injEq]
      constructor
      · rintro rfl
        exact .inl ⟨value, ttl, rfl, hvalue, hlength, rfl⟩
      · rintro (⟨_, _, heq, -, -, rfl⟩ | ⟨_, _, heq, -⟩ | ⟨-, hother⟩)
        · cases heq
          rfl
        · cases heq
        · exact absurd ⟨rfl, hvalue, hlength⟩ hother
    | del other =>
      cases hcommand
      simp [next, Command.Replaces]
    | setTtl other ttl =>
      cases hcommand
      simp only [next, Function.update_self, Option.map_eq_some_iff]
      constructor
      · rintro ⟨old, hold, rfl⟩
        exact .inr (.inl ⟨old, ttl, rfl, hold, rfl⟩)
      · rintro (⟨_, _, heq, -⟩ | ⟨old, _, heq, hold, rfl⟩ | ⟨-, hother⟩)
        · cases heq
        · cases heq
          exact ⟨old, hold, rfl⟩
        · exact absurd rfl hother
    | wipe => simp [next, Command.Replaces]
    | _ => exact absurd hcommand id
  · rw [next_leases hcommand]
    constructor
    · exact fun hlease => .inr (.inr ⟨hlease, hcommand⟩)
    · rintro (⟨value, ttl, rfl, hvalue, hlength, -⟩ | ⟨_, _, rfl, -⟩ | ⟨hlease, -⟩)
      · exact absurd ⟨rfl, hvalue, hlength⟩ hcommand
      · exact absurd rfl hcommand
      · exact hlease

/-- The map holds what the log says. -/
theorem leases_after {capacity : Nat} {log : Cache.Log}
    (hsorted : log.Pairwise fun event later => event.1 ≤ later.1)
    (hnow : ∀ event ∈ log, event.1 ≤ now) (lease : Lease) :
    (((ofCapacity capacity).after log).pruned now).leases key = some lease ↔
      Cache.Leased capacity key log lease ∧ lease.isOver now = false := by
  rw [pruned_leases_eq_some]
  refine and_congr_left fun hlater => ?_
  induction log using List.reverseRecOn generalizing now lease with
  | nil =>
    refine ⟨nofun, fun h => ?_⟩
    generalize hlog : ([] : Cache.Log) = whole at h
    cases h <;> simp at hlog
  | append_singleton log event ih =>
    obtain ⟨time, command⟩ := event
    obtain ⟨hlog, -, hbefore⟩ := List.pairwise_append.1 hsorted
    have htime : time ≤ now := hnow _ List.mem_concat_self
    -- What the map holds when the last command comes.
    have hheld (old : Lease) :
        (((ofCapacity capacity).after log).pruned time).leases key = some old ↔
          Cache.Leased capacity key log old ∧ old.isOver time = false := by
      rw [pruned_leases_eq_some]
      exact and_congr_left
        (ih hlog (fun event hmem => hbefore event hmem _ List.mem_cons_self) old)
    have hcapacity : (((ofCapacity capacity).after log).pruned time).capacity =
        Cache.capacityAfter capacity log := capacity_after capacity log
    have hstill : lease.isOver time = false := by
      by_contra hover
      rw [Bool.not_eq_false] at hover
      rw [Lease.isOver_mono htime hover] at hlater
      cases hlater
    rw [after_concat, next_leases_eq_some, Cache.leased_concat_iff, hcapacity]
    simp only [hheld, hstill, and_true, and_assoc]

end EagerMap

end RemoteCache
