import RemoteCache.Proofs.Server.Handling

/-!
# Commands one after the other

A log holds commands in the order in which a cache handles them, each with the instant at which
that happens.

## Main definitions

* `Cache.Log` — commands and their instants, in order
* `Cache.after` — a cache once the commands of a log were handled
* `Cache.answers` — the responses to them

## Main results

* `Cache.after_append` — a log is handled part by part
* `Cache.holds_after` — what each command preserves holds after a log
-/

namespace RemoteCache.Cache

/-- Commands in the order in which they are handled, each with its instant. -/
abbrev Log := List (Instant × Command)

/-- The cache once the commands of a log were handled. -/
def after (c : Cache) : Log → Cache
  | [] => c
  | (now, command) :: log => (c.handle now command).1.after log

/-- The responses to the commands of a log. -/
def answers (c : Cache) : Log → List Response
  | [] => []
  | (now, command) :: log => (c.handle now command).2 :: (c.handle now command).1.answers log

variable {c : Cache} {log : Log}

theorem after_append (c : Cache) (log more : Log) :
    c.after (log ++ more) = (c.after log).after more := by
  induction log generalizing c with
  | nil => rfl
  | cons event log ih => exact ih _

theorem after_concat (c : Cache) (log : Log) (now : Instant) (command : Command) :
    c.after (log ++ [(now, command)]) = ((c.after log).handle now command).1 :=
  c.after_append log _

/-- What each command of a log preserves holds after the log. -/
theorem holds_after {P : Cache → Prop}
    (hstep : ∀ now command, (now, command) ∈ log → ∀ c, P c → P (c.handle now command).1)
    (h : P c) : P (c.after log) := by
  induction log generalizing c with
  | nil => exact h
  | cons event log ih =>
    exact ih (fun now command hmem => hstep now command (List.mem_cons_of_mem _ hmem))
      (hstep _ _ List.mem_cons_self c h)

end RemoteCache.Cache
