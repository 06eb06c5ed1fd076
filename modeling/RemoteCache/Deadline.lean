import RemoteCache.Bytes

/-!
# Deadlines

The clock counts nanoseconds in a signed 64-bit number, and sums wrap around in it. A timeout is
given in milliseconds; none, or one that is not positive, sets no deadline. A wait is given whole
milliseconds as well, but what is waited for may take any number of nanoseconds.

## Main definitions

* `Span` — how long something takes
* `Instant` — a reading of the clock
* `Deadline` — an instant, or none for waiting without end
* `Deadline.after` — the deadline that a timeout sets
* `Deadline.remaining`, `Deadline.granted` — the whole milliseconds left before an instant, as many
  as a wait takes
* `Deadline.wait` — the same for any deadline; minus one stands for waiting without end

## Main results

* `Deadline.remaining_le` — no wait is longer than the longest wait
-/

namespace RemoteCache

/-- How long something takes, in nanoseconds. -/
structure Span where
  nanoseconds : Nat
deriving DecidableEq, Inhabited

namespace Span

/-- A span of whole milliseconds. -/
def ofMilliseconds (ms : Nat) : Span := ⟨ms * 1000000⟩

/-- A number by itself counts milliseconds. -/
instance : Coe Nat Span := ⟨ofMilliseconds⟩

instance {n : Nat} : OfNat Span n := ⟨ofMilliseconds n⟩

end Span

/-- A reading of the clock, in nanoseconds. -/
abbrev Instant := Int

/-- An instant to be done by, or none for waiting without end. -/
abbrev Deadline := Option Instant

/-- Milliseconds, in nanoseconds. -/
def milliseconds (n : Int) : Int := n * 1000000

/-- Seconds, in nanoseconds. -/
def seconds (n : Int) : Int := n * 1000000000

/-- A number of nanoseconds as the clock's 64 bits hold it. -/
def wrapInstant (n : Int) : Instant := n.bmod (2 ^ 64)

namespace Deadline

/-- The deadline that a timeout of some milliseconds sets. -/
def after (now : Instant) (timeout : Int) : Deadline :=
  if timeout ≤ 0 then none else some (wrapInstant (now + wrapInstant (milliseconds timeout)))

/-- The longest wait, in milliseconds. -/
def longestWait : Nat := 2 ^ 31 - 1

/-- The whole milliseconds left before an instant, at most as many as the longest wait takes. -/
def remaining (limit now : Instant) : Nat :=
  min ((wrapInstant (limit - now)).tdiv 1000000).toNat longestWait

/-- How long a wait lasts at most that is given what is left before an instant. -/
def granted (limit now : Instant) : Span := remaining limit now

/-- The whole milliseconds left; minus one when nothing limits the wait. -/
def wait (deadline : Deadline) (now : Instant) : Int :=
  match deadline with
  | none => -1
  | some limit => remaining limit now

theorem remaining_le (limit now : Instant) : remaining limit now ≤ longestWait :=
  Nat.min_le_right _ _

end Deadline

end RemoteCache
