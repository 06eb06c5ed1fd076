import RemoteCache.Proofs.Network.Addresses
import RemoteCache.Proofs.Session.Outcomes

/-!
# The socket of a connection

A connection gets its socket from the first of its addresses for which all calls succeed. If there
is none, opening it fails and names the obstacle of the last address; where there is a deadline, the
first address for which the time does not suffice is the last one that is tried.

Each address that is given up on the way leaves no socket open behind it.

## Main definitions

* `Session.GaveUp` — addresses were given up, and all sockets to them are closed

## Main results

* `Session.ends_openSocket_accords` — how opening a socket ends, with the calls that it takes
* `Session.exists_openSocket_eq_ok_iff`, `Session.exists_openSocket_eq_error_iff` — when it
  succeeds, and for which reason it fails
* `Session.openSocket_takes_first` — the first address is taken for which all calls succeed
-/

namespace RemoteCache.Session

open Address Network Call

variable {s s' : Session} {addresses : List Address} {deadline : Deadline}

/-- A name was resolved, addresses were given up for some obstacles, and some more calls were made
behind that. -/
def GaveUp (given : List Obstacle) (more : List Call) (s s' : Session) : Prop :=
  ∃ tried, GivesUpAll given tried ∧ s'.network.calls =
    more ++ (tried ++ .resolve s.connection.endpoint.host s.connection.endpoint.port ::
      s.network.calls)

/-- Addresses decide how opening a socket ends, and which calls it takes. -/
theorem ends_openSocket_accords (hlink : s.connection.link.socket? = none)
    (hresolution : s.network.nextAttempt.1.resolution = .ok addresses) (hne : addresses ≠ [])
    (deadline : Deadline) :
    let verdicts := verdicts deadline s.network.resolvedAt addresses
    Ends (openSocket deadline) s
      (fun _ s' => ∃ given peer uses, Result.connected.Follows given verdicts ∧
        s'.connection = { s.connection with link := .up peer [] } ∧
        Carries peer.descriptor [] [] uses ∧
        GaveUp given (uses ++ [.socket (some peer.descriptor)]) s s')
      fun failure s' =>
        (∃ given last, verdicts = (given ++ [last]).map .failed ∧
          failure = .lost (.unreachable s.connection.endpoint last) ∧
          GaveUp (given ++ [last]) [] s s') ∨
        ∃ given own, Result.timedOut.Follows given verdicts ∧
          failure = .lost (.connectTimedOut s.connection.endpoint) ∧
          Discards own ∧ GaveUp given own s s' := by
  obtain ⟨opening, started, hstarted, haccords, hresult⟩ :=
    openSocket_accords hresolution hne deadline s.connection.endpoint
  rw [ends_openSocket]
  rcases hopen : s.network.openSocket deadline s.connection.endpoint with ⟨result, network⟩
  rw [hopen] at haccords hresult
  obtain rfl : result = _ := hresult
  have hbroken (reason : Breakdown) : ({ s with network }.breakWith reason).network.calls =
      network.calls := breakWith_calls_of_none reason hlink
  unfold GaveUp
  rw [← hstarted]
  cases opening with
  | opened peer =>
    obtain ⟨given, tried, uses, hfollows, htried, huses, hcalls⟩ := haccords
    exact ⟨given, peer, uses, hfollows, rfl, huses, tried, htried, hcalls⟩
  | timedOut =>
    obtain ⟨given, tried, own, hfollows, htried, hown, hcalls⟩ := haccords
    exact .inr ⟨given, own, hfollows, rfl, hown, tried, htried, (hbroken _).trans hcalls⟩
  | failed last =>
    obtain ⟨given, tried, hverdicts, htried, hlast, hcalls⟩ := haccords
    obtain ⟨before, last', rfl⟩ : ∃ before last', given = before ++ [last'] := by
      refine ⟨_, _, (List.dropLast_append_getLast ?_).symm⟩
      rintro rfl
      cases addresses with
      | nil => exact hne rfl
      | cons address more => cases hverdicts
    obtain rfl : last = last' := by simpa using hlast
    exact .inl ⟨before, last, hverdicts, rfl, tried, htried, (hbroken _).trans hcalls⟩

/-- A connection is opened exactly if an address connects before one takes too long. -/
theorem exists_openSocket_eq_ok_iff (hlink : s.connection.link.socket? = none)
    (hresolution : s.network.nextAttempt.1.resolution = .ok addresses) (hne : addresses ≠ [])
    (deadline : Deadline) :
    (∃ s', openSocket deadline s = .ok () s') ↔
      ∃ given, Result.connected.Follows given
        (verdicts deadline s.network.resolvedAt addresses) := by
  have hends := ends_openSocket_accords hlink hresolution hne deadline
  unfold Ends at hends
  cases hopen : openSocket deadline s with
  | ok u s' =>
    rw [hopen] at hends
    obtain ⟨given, -, -, hfollows, -⟩ := hends
    exact iff_of_true ⟨s', rfl⟩ ⟨given, hfollows⟩
  | error failure s' =>
    rw [hopen] at hends
    refine iff_of_false (by simp) ?_
    rintro ⟨given, hconnected⟩
    rcases hends with ⟨given', last, hverdicts, -⟩ | ⟨given', own, hlate, -⟩
    · exact hconnected.ne_given rfl _ hverdicts
    · cases hconnected.unique hlate rfl rfl

/-- Opening a connection fails for one of two reasons, and the addresses tell for which. -/
theorem exists_openSocket_eq_error_iff (hlink : s.connection.link.socket? = none)
    (hresolution : s.network.nextAttempt.1.resolution = .ok addresses) (hne : addresses ≠ [])
    (deadline : Deadline) (failure : Failure) :
    let verdicts := verdicts deadline s.network.resolvedAt addresses
    (∃ s', openSocket deadline s = .error failure s') ↔
      (∃ given last, verdicts = (given ++ [last]).map .failed ∧
        failure = .lost (.unreachable s.connection.endpoint last)) ∨
      (∃ given, Result.timedOut.Follows given verdicts) ∧
        failure = .lost (.connectTimedOut s.connection.endpoint) := by
  intro verdicts
  have hends := ends_openSocket_accords hlink hresolution hne deadline
  unfold Ends at hends
  cases hopen : openSocket deadline s with
  | ok u s' =>
    rw [hopen] at hends
    obtain ⟨given, -, -, hconnected, -⟩ := hends
    refine iff_of_false (by simp) ?_
    rintro (⟨given', last, hverdicts, -⟩ | ⟨⟨given', hlate⟩, -⟩)
    · exact hconnected.ne_given rfl _ hverdicts
    · cases hconnected.unique hlate rfl rfl
  | error failed s' =>
    rw [hopen] at hends
    have hfailed : (∃ s'', (.error failed s' : EStateM.Result Failure Session Unit) =
        .error failure s'') ↔ failed = failure := by simp
    rw [hfailed]
    rcases hends with ⟨given, last, hverdicts, rfl, -⟩ | ⟨given, own, hlate, rfl, -⟩
    · constructor
      · rintro rfl
        exact .inl ⟨given, last, hverdicts, rfl⟩
      · rintro (⟨given', last', hverdicts', rfl⟩ | ⟨⟨given', hlate⟩, -⟩)
        · rw [Result.last_eq (hverdicts.symm.trans hverdicts')]
        · exact absurd hverdicts (hlate.ne_given rfl _)
    · constructor
      · rintro rfl
        exact .inr ⟨⟨given, hlate⟩, rfl⟩
      · rintro (⟨given', last', hverdicts', -⟩ | ⟨-, rfl⟩)
        · exact absurd hverdicts' (hlate.ne_given rfl _)
        · rfl

/-- The first address is taken for which all calls succeed. If there is none, opening the
connection fails for the obstacle of the last address, or because the time does not suffice for one
that was tried before it; then no other address is tried. Without a deadline, there is always time
enough. -/
theorem openSocket_takes_first (hlink : s.connection.link.socket? = none)
    (hresolution : s.network.nextAttempt.1.resolution = .ok addresses) (hne : addresses ≠ [])
    (deadline : Deadline) :
    let endpoint := s.connection.endpoint
    let verdicts := verdicts deadline s.network.resolvedAt addresses
    ((∃ s', openSocket deadline s = .ok () s') ↔ ∃ given, Result.connected.Follows given verdicts) ∧
    (∀ failure, (∃ s', openSocket deadline s = .error failure s') ↔
      (∃ given last, verdicts = (given ++ [last]).map .failed ∧
        failure = .lost (.unreachable endpoint last)) ∨
      (∃ given, Result.timedOut.Follows given verdicts) ∧
        failure = .lost (.connectTimedOut endpoint)) ∧
    (deadline = none → .timedOut ∉ verdicts) ∧
    Ends (openSocket deadline) s
      (fun _ s' => ∃ given peer uses, Result.connected.Follows given verdicts ∧
        s'.connection = { s.connection with link := .up peer [] } ∧
        Carries peer.descriptor [] [] uses ∧
        GaveUp given (uses ++ [.socket (some peer.descriptor)]) s s')
      fun _ s' => (∃ given, verdicts = given.map .failed ∧ GaveUp given [] s s') ∨
        ∃ given own, Result.timedOut.Follows given verdicts ∧ Discards own ∧
          GaveUp given own s s' := by
  intro endpoint verdicts
  refine ⟨exists_openSocket_eq_ok_iff hlink hresolution hne deadline,
    exists_openSocket_eq_error_iff hlink hresolution hne deadline, ?_, ?_⟩
  · rintro rfl
    exact timedOut_notMem_verdicts _ _
  · refine (ends_openSocket_accords hlink hresolution hne deadline).mono (fun _ _ h => h) ?_
    rintro failure s' (⟨given, last, hverdicts, -, hgave⟩ | ⟨given, own, hfollows, -, h⟩)
    · exact .inl ⟨_, hverdicts, hgave⟩
    · exact .inr ⟨given, own, hfollows, h⟩

/-- A socket that is not to be had, a call to connect that a signal interrupts before it is refused,
and one that two signals interrupt before it gets through: the third address is taken. Before a
deadline, the wait for the second one lasts too long, and the third one is not tried. -/
theorem openSocket_takes_first_interrupted :
    ∃ s : Session, (∃ s', openSocket none s = .ok () s') ∧
      ∃ s', openSocket (some (milliseconds 50)) s = .error (.lost (.connectTimedOut {})) s' := by
  let addresses : List Address := [.failing .socket .tooManyFiles,
    .answering { failures := [(5, .interrupted), (0, .connectionRefused)],
                 pauses := [.delay 20, .failed .interrupted, .delay 40] },
    .answering { failures := [(1, .interrupted), (2, .interrupted)], delay := 3 }]
  let s : Session :=
    { connection := { endpoint := {} },
      network := { attempts := [{ delay := 10, resolution := .ok addresses }] } }
  have hne : addresses ≠ [] := List.cons_ne_nil _ _
  have hconnected : Result.connected.Follows [.socket .tooManyFiles, .connect .connectionRefused]
      (verdicts none s.network.resolvedAt addresses) := ⟨[], by decide +kernel⟩
  have hlate : Result.timedOut.Follows [.socket .tooManyFiles]
      (verdicts (some (milliseconds 50)) s.network.resolvedAt addresses) :=
    ⟨[.connected], by decide +kernel⟩
  obtain ⟨hfree, -, -, -⟩ := openSocket_takes_first (s := s) rfl rfl hne none
  obtain ⟨-, hbounded, -, -⟩ :=
    openSocket_takes_first (s := s) rfl rfl hne (some (milliseconds 50))
  exact ⟨s, hfree.2 ⟨_, hconnected⟩, (hbounded _).2 (.inr ⟨⟨_, hlate⟩, rfl⟩)⟩

end RemoteCache.Session
