import Mathlib.Data.Rat.Floor
import RemoteCache.Proofs.Network.Deadlines

/-!
# How a deadline is counted down

The time that is left before a deadline depends on its timeout and on the time that has passed since
it was set, not on the instants. It is the difference of both, in whole milliseconds, cut off at
none and at the longest wait, provided that the clock can count the nanoseconds of the timeout. A
longer timeout wraps around: its deadline may be over when it is set, and more may be left the
later it is.

## Main definitions

* `Deadline.due` — the whole milliseconds that should be left of a timeout

## Main results

* `Deadline.wait_after` — what is left of a timeout is its rest as the clock counts it
* `Deadline.due_anti`, `Deadline.due_pos` — what should be left is something at first, and never
  grows
* `Deadline.wait_eq_due_iff` — a deadline is counted down as it should be if and only if the clock
  can count its timeout
-/

namespace RemoteCache.Deadline

-- Instants are compared as the integers that they are.
variable {timeout elapsed later x : Int}

/-- The whole milliseconds in so many nanoseconds, cut off at none and at the longest wait. -/
def wholeWait (x : Int) : Int := max 0 (min (longestWait : Int) (x / 1000000))

/-- The whole milliseconds that should be left of a timeout when so many nanoseconds have passed,
not less than none and not more than the longest wait. -/
def due (timeout elapsed : Int) : Int :=
  max 0 (min (longestWait : Int) ⌊(timeout : ℚ) - elapsed / 10 ^ 6⌋)

theorem due_eq (timeout elapsed : Int) :
    due timeout elapsed = wholeWait (milliseconds timeout - elapsed) := by
  have hratio : (timeout : ℚ) - elapsed / 10 ^ 6 =
      ((milliseconds timeout - elapsed : Int) : ℚ) / (1000000 : Nat) := by
    unfold milliseconds
    push_cast
    ring
  rw [due, hratio, Rat.floor_intCast_div_natCast]
  rfl

/-- The more time has passed, the less should be left. -/
theorem due_anti (h : elapsed ≤ later) : due timeout later ≤ due timeout elapsed := by
  have hdiv :
      (milliseconds timeout - later) / 1000000 ≤ (milliseconds timeout - elapsed) / 1000000 :=
    Int.ediv_le_ediv (by decide) (Int.sub_le_sub_left h _)
  rw [due_eq, due_eq, wholeWait, wholeWait]
  omega

theorem due_pos (hpos : 0 < timeout) : 0 < due timeout 0 := by
  rw [due_eq, Int.sub_zero, wholeWait, milliseconds, Int.mul_ediv_cancel _ (by decide)]
  unfold longestWait
  omega

/-- Rounding towards zero makes no difference, since less than nothing is never left. -/
theorem remaining_eq (limit now : Int) :
    (remaining limit now : Int) = wholeWait (wrapInstant (limit - now)) := by
  unfold remaining wholeWait
  generalize wrapInstant (limit - now) = span
  rw [Int.tdiv_eq_ediv, Int.sign_eq_one_of_pos (by decide)]
  split <;> omega

theorem wrapInstant_sub_wrapInstant (x y : Int) :
    wrapInstant (x - wrapInstant y) = wrapInstant (x - y) :=
  Int.sub_bmod_bmod

/-- What is left does not depend on the instants but on the time between them. -/
theorem wait_after (hpos : 0 < timeout) (start elapsed : Int) :
    wait (after start timeout) (start + elapsed) =
      wholeWait (wrapInstant (milliseconds timeout - elapsed)) := by
  have hspan : wrapInstant (wrapInstant (start + wrapInstant (milliseconds timeout)) -
      (start + elapsed)) = wrapInstant (milliseconds timeout - elapsed) := by
    rw [wrapInstant_sub, Int.add_sub_add_left, wrapInstant_sub]
  rw [after, if_neg (Int.not_le.2 hpos), wait, remaining_eq, hspan]

/-- Nanoseconds that wrap around make the same wait only if they still make the longest one. -/
theorem wholeWait_wrapInstant_eq_iff (hlow : -2 ^ 63 ≤ x) :
    wholeWait (wrapInstant x) = wholeWait x ↔
      x < 2 ^ 63 ∨ milliseconds longestWait ≤ wrapInstant x := by
  by_cases hhigh : x < 2 ^ 63
  · rw [wrapInstant_of_bounds hlow hhigh]
    exact iff_of_true rfl (.inl hhigh)
  · unfold wholeWait milliseconds longestWait
    omega

/-- A timeout that the clock can count is counted down as it should be. -/
theorem wait_eq_due (hpos : 0 < timeout) (hfits : milliseconds timeout < 2 ^ 63) (start : Int)
    (helapsed : 0 ≤ elapsed) (hclock : elapsed < 2 ^ 63) :
    wait (after start timeout) (start + elapsed) = due timeout elapsed := by
  have hnonneg : 0 ≤ milliseconds timeout := Int.mul_nonneg hpos.le (by decide)
  rw [wait_after hpos, due_eq, wholeWait_wrapInstant_eq_iff (by omega)]
  exact .inl (by omega)

/-- More nanoseconds than the clock can count make less than the longest wait at some time, while
they are still too many. -/
theorem exists_short (h : 2 ^ 63 ≤ x) :
    ∃ elapsed : Int, 0 ≤ elapsed ∧ elapsed < 2 ^ 63 ∧ 2 ^ 63 ≤ x - elapsed ∧
      wrapInstant (x - elapsed) < milliseconds longestWait := by
  -- They wrap around to too few from the start, or else to as many as can be used up.
  obtain ⟨span, hspan⟩ : ∃ span : Int, wrapInstant x = span := ⟨_, rfl⟩
  by_cases hstart : span < milliseconds longestWait
  · exact ⟨0, le_rfl, by decide, by omega, by rwa [Int.sub_zero, hspan]⟩
  · have hhigh : span < 2 ^ 63 := hspan ▸ Int.bmod_lt (by decide)
    have hused : wrapInstant (x - span) = 0 := by
      rw [← hspan, wrapInstant_sub_wrapInstant, Int.sub_self]
      rfl
    have hfar : 2 ^ 63 ≤ x - span := by
      by_contra hnear
      have hsame : wrapInstant (x - span) = x - span :=
        wrapInstant_of_bounds (by omega) (by omega)
      exact (show x - span ≠ 0 by omega) (hsame.symm.trans hused)
    have hlow : 0 ≤ milliseconds longestWait := by decide
    exact ⟨span, by omega, hhigh, hfar, hused ▸ by decide⟩

/-- Never less than nothing is left. What is left at some time is what should be left if and only if
the clock can count it, or else makes the longest wait of it. So a timeout is counted down as it
should be as long as the clock counts if and only if the clock can count the timeout; something is
left of it when its deadline is set, and what is left never grows. -/
theorem wait_eq_due_iff (hpos : 0 < timeout) (start : Int) :
    (∀ elapsed : Int, 0 ≤ wait (after start timeout) (start + elapsed)) ∧
    (∀ elapsed : Int, 0 ≤ elapsed → elapsed < 2 ^ 63 →
      (wait (after start timeout) (start + elapsed) = due timeout elapsed ↔
        milliseconds timeout - elapsed < 2 ^ 63 ∨
          milliseconds longestWait ≤ wrapInstant (milliseconds timeout - elapsed))) ∧
    ((∀ elapsed : Int, 0 ≤ elapsed → elapsed < 2 ^ 63 →
      wait (after start timeout) (start + elapsed) = due timeout elapsed) ↔
        milliseconds timeout < 2 ^ 63) ∧
    (milliseconds timeout < 2 ^ 63 → 0 < wait (after start timeout) start ∧
      ∀ elapsed later : Int, 0 ≤ elapsed → elapsed ≤ later → later < 2 ^ 63 →
        wait (after start timeout) (start + later) ≤
          wait (after start timeout) (start + elapsed)) := by
  have hnonneg : 0 ≤ milliseconds timeout := Int.mul_nonneg hpos.le (by decide)
  refine ⟨fun elapsed => ?_, fun elapsed helapsed hclock => ?_, ⟨fun h => ?_, fun hfits => ?_⟩,
    fun hfits => ⟨?_, ?_⟩⟩
  · rw [wait_after hpos]
    exact le_max_left _ _
  · rw [wait_after hpos, due_eq]
    exact wholeWait_wrapInstant_eq_iff (by omega)
  · by_contra hlong
    obtain ⟨elapsed, helapsed, hclock, hfar, hshort⟩ := exists_short (Int.not_lt.1 hlong)
    have hwait := h elapsed helapsed hclock
    rw [wait_after hpos, due_eq, wholeWait_wrapInstant_eq_iff (by omega)] at hwait
    exact hwait.elim (Int.not_lt.2 hfar) (Int.not_le.2 hshort)
  · exact fun elapsed => wait_eq_due hpos hfits start
  · have hstart := wait_eq_due hpos hfits start le_rfl (by decide)
    rw [Int.add_zero] at hstart
    exact hstart ▸ due_pos hpos
  · intro elapsed later helapsed hle hclock
    rw [wait_eq_due hpos hfits start (helapsed.trans hle) hclock,
      wait_eq_due hpos hfits start helapsed (hle.trans_lt hclock)]
    exact due_anti hle

/-- Of the longest timeout that the clock can count, the longest wait is left at first; of one
millisecond, nothing is left after a nanosecond. -/
theorem wait_eq_due_iff_longest :
    wait (after 5 9223372036854) 5 = due 9223372036854 0 ∧ 0 < wait (after 5 9223372036854) 5 ∧
      wait (after 5 1) 6 = due 1 1 ∧ wait (after 5 1) 6 ≤ wait (after 5 1) 5 := by
  have hlongest : milliseconds 9223372036854 < 2 ^ 63 := by decide
  have hone : milliseconds 1 < 2 ^ 63 := by decide
  obtain ⟨-, -, hcounts, hdown⟩ := wait_eq_due_iff (show (0 : Int) < 9223372036854 by decide) 5
  obtain ⟨-, -, hcounts', hdown'⟩ := wait_eq_due_iff (show (0 : Int) < 1 by decide) 5
  exact ⟨hcounts.2 hlongest 0 le_rfl (by decide), (hdown hlongest).1,
    hcounts'.2 hone 1 (by decide) (by decide),
    (hdown' hone).2 0 1 le_rfl (by decide) (by decide)⟩

/-- The longest timeout that can be set is over when its deadline is set. -/
theorem wait_longest_timeout :
    wait (after 0 (2 ^ 63 - 1)) 0 = 0 ∧ due (2 ^ 63 - 1) 0 = 2147483647 := by
  constructor
  · decide
  · rw [due_eq]
    decide

end RemoteCache.Deadline
