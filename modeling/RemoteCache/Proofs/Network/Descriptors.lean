import RemoteCache.Network.Basic

/-!
# No descriptor is lost or used twice

A record of calls is orderly when every call on a descriptor came while the descriptor was open.
The system may hand out the number of a closed descriptor once more, never that of an open one.
Everything that happens on the network keeps the record orderly, and leaves open at most the one
descriptor that it was given or that it returns.

## Main definitions

* `Call.Fits`, `Call.Orderly` — a call that can be made after others, and a record of such calls
* `Network.Holds` — an orderly network on which some descriptors are open

## Main results

* `Call.Orderly.socket_mem_of_close` — a closed descriptor is only used once it was handed out anew
* `Network.Holds.tryAddresses`, `Network.Holds.openSocket` — of the sockets that are tried only the
  one returned stays open
* `Network.Holds.sendAll`, `Network.Holds.receive`, `Network.Holds.settle` — an open socket stays
  open, however writing to it or reading from it ends
-/

namespace RemoteCache

namespace Call

/-- The descriptor that a call is made on. Opening a socket is not made on one. -/
def descriptor? : Call → Option Nat
  | .use d | .send d _ | .receive d _ | .close d => some d
  | _ => none

/-- A call that can be made after others: it is made on an open descriptor, if on any, and does
not return an open one. -/
def Fits (earlier : List Call) (call : Call) : Prop :=
  (∀ d, call = .socket (some d) → d ∉ openDescriptors earlier) ∧
    ∀ d, call.descriptor? = some d → d ∈ openDescriptors earlier

/-- A record in which every call could be made after those before it, the latest first. -/
def Orderly : List Call → Prop
  | [] => True
  | call :: earlier => call.Fits earlier ∧ Orderly earlier

variable {calls earlier later between : List Call} {call : Call} {d : Nat}

theorem Orderly.of_append (h : Orderly (later ++ earlier)) : Orderly earlier := by
  induction later with
  | nil => exact h
  | cons call later ih => exact ih h.2

theorem Orderly.nodup_openDescriptors (h : Orderly calls) : (openDescriptors calls).Nodup := by
  induction calls with
  | nil => exact List.nodup_nil
  | cons call earlier ih =>
    have hearlier := ih h.2
    cases call with
    | socket descriptor =>
      cases descriptor with
      | none => exact hearlier
      | some d => exact List.nodup_cons.2 ⟨h.1.1 d rfl, hearlier⟩
    | close d => exact hearlier.erase d
    | _ => exact hearlier

/-- A descriptor that is open was open before, unless it was handed out since. -/
theorem mem_openDescriptors_append (h : d ∈ openDescriptors (later ++ earlier)) :
    d ∈ openDescriptors earlier ∨ .socket (some d) ∈ later := by
  induction later with
  | nil => exact .inl h
  | cons call later ih =>
    -- Only the opening of a socket adds a descriptor.
    have hcases : d ∈ openDescriptors (later ++ earlier) ∨ call = .socket (some d) := by
      cases call with
      | socket descriptor =>
        cases descriptor with
        | none => exact .inl h
        | some d' =>
          rcases List.mem_cons.1 h with rfl | hmem
          · exact .inr rfl
          · exact .inl hmem
      | close d' => exact .inl (List.mem_of_mem_erase h)
      | _ => exact .inl h
    rcases hcases with hmem | rfl
    · exact (ih hmem).imp_right (List.mem_cons_of_mem call)
    · exact .inr List.mem_cons_self

/-- Between the closing of a descriptor and a later call on it, a second closing included, the
descriptor was handed out anew. -/
theorem Orderly.socket_mem_of_close
    (h : Orderly (later ++ call :: (between ++ .close d :: earlier)))
    (hcall : call.descriptor? = some d) : .socket (some d) ∈ between := by
  obtain ⟨hfits, hbefore⟩ := h.of_append
  rcases mem_openDescriptors_append (hfits.2 d hcall) with hmem | hmem
  · -- Just after it was closed the descriptor is not open.
    have hnodup := hbefore.of_append.2.nodup_openDescriptors
    exact absurd hmem (hnodup.not_mem_erase)
  · exact hmem

end Call

namespace Network

open Call

/-- An orderly network on which some descriptors are open. -/
structure Holds (n : Network) (held : List Nat) : Prop where
  orderly : Orderly n.calls
  openDescriptors_eq : openDescriptors n.calls = held

variable {n n' : Network} {held : List Nat} {d : Nat} {deadline : Deadline}

/-- Only the record matters. -/
theorem Holds.congr (h : n.Holds held) (hcalls : n'.calls = n.calls) : n'.Holds held where
  orderly := hcalls ▸ h.orderly
  openDescriptors_eq := hcalls ▸ h.openDescriptors_eq

theorem Holds.withClock (h : n.Holds held) (clock : Instant) : { n with clock }.Holds held :=
  h.congr rfl

theorem Holds.pass (h : n.Holds held) (span : Span) : (n.pass span).Holds held :=
  h.withClock _

theorem Holds.withService (h : n.Holds held) (service : Option Service) :
    { n with service }.Holds held :=
  h.congr rfl

theorem Holds.record {call : Call} (h : n.Holds held) (hfits : call.Fits n.calls)
    (hopen : openDescriptors (call :: n.calls) = openDescriptors n.calls) :
    (n.record call).Holds held where
  orderly := ⟨hfits, h.orderly⟩
  openDescriptors_eq := hopen.trans h.openDescriptors_eq

theorem Holds.fits (h : n.Holds held) (hd : d ∈ held) {call : Call}
    (hcall : call.descriptor? = some d) : call.Fits n.calls := by
  constructor
  · rintro d' rfl
    cases hcall
  · intro d' hd'
    obtain rfl := Option.some.inj (hcall.symm.trans hd')
    rwa [h.openDescriptors_eq]

theorem Holds.use (h : n.Holds held) (hd : d ∈ held) : (n.record (.use d)).Holds held :=
  h.record (h.fits hd rfl) rfl

theorem Holds.send (h : n.Holds held) (hd : d ∈ held) (b : Bytes) :
    (n.record (.send d b)).Holds held :=
  h.record (h.fits hd rfl) rfl

theorem Holds.read (h : n.Holds held) (hd : d ∈ held) (b : Bytes) :
    (n.record (.receive d b)).Holds held :=
  h.record (h.fits hd rfl) rfl

theorem Holds.resolve (h : n.Holds held) (host : Bytes) (port : UInt16) :
    (n.record (.resolve host port)).Holds held :=
  h.record ⟨nofun, nofun⟩ rfl

theorem Holds.socketNone (h : n.Holds held) : (n.record (.socket none)).Holds held :=
  h.record ⟨nofun, nofun⟩ rfl

theorem Holds.close (h : n.Holds [d]) : (n.record (.close d)).Holds [] where
  orderly := ⟨h.fits List.mem_cons_self rfl, h.orderly⟩
  openDescriptors_eq := by
    have hopen : openDescriptors (.close d :: n.calls) = (openDescriptors n.calls).erase d := rfl
    rw [Network.record, hopen, h.openDescriptors_eq, List.erase_cons_head]

/-- With no descriptor open, whichever comes next is none of them. -/
theorem Holds.openDescriptor (h : n.Holds []) : n.openDescriptor.2.Holds [n.openDescriptor.1] where
  orderly := by
    refine ⟨⟨fun d _ => ?_, nofun⟩, h.orderly⟩
    rw [h.openDescriptors_eq]
    exact List.not_mem_nil
  openDescriptors_eq := by
    have hopen : openDescriptors n.openDescriptor.2.calls =
        n.openDescriptor.1 :: openDescriptors n.calls := rfl
    rw [hopen, h.openDescriptors_eq]

/-! ### Opening a socket -/

theorem Holds.nextAttempt (h : n.Holds held) {attempt : Attempt}
    (hnext : n.nextAttempt = (attempt, n')) : n'.Holds held := by
  unfold Network.nextAttempt at hnext
  split at hnext <;> cases hnext
  · exact h.congr rfl
  · exact h

/-- The descriptor of a socket that was opened. -/
def Opening.descriptors : Opening → List Nat
  | .opened peer => [peer.descriptor]
  | _ => []

/-- A socket was asked for, and an attempt to connect it was made. -/
theorem Holds.connecting (h : n.Holds []) (hopen : n.openDescriptor = (d, n')) (time : Instant) :
    ({ n' with clock := time }.record (.use d)).Holds [d] := by
  have hheld := h.openDescriptor
  rw [hopen] at hheld
  exact (hheld.withClock time).use List.mem_cons_self

/-- A socket got through to its peer. -/
theorem Holds.reached {attempt : Attempt} {peer : Socket} (h : n.Holds [d])
    (hreach : n.reach attempt d = (peer, n')) :
    (n'.record (.use d)).Holds [d] ∧ peer.descriptor = d := by
  unfold Network.reach at hreach
  dsimp only at hreach
  split at hreach <;> cases hreach
  · exact ⟨(h.withService _).use List.mem_cons_self, rfl⟩
  · exact ⟨h.use List.mem_cons_self, rfl⟩

/-- The socket of every address that fails is closed again, at whichever step it fails. -/
theorem Holds.tryAddresses {attempt : Attempt} {obstacle : Obstacle} {addresses : List Address}
    (h : n.Holds []) :
    (tryAddresses deadline attempt obstacle addresses n).2.Holds
      (tryAddresses deadline attempt obstacle addresses n).1.descriptors := by
  fun_induction Network.tryAddresses deadline attempt obstacle addresses n with
  | case1 => exact h
  | case2 obstacle e more n ih => exact ih h.socketNone
  | case3 obstacle address more n hsocket d n' hopen time =>
    exact (h.connecting hopen time).close
  | case4 obstacle address more n hsocket d n' hopen time connecting obstacle' hconnect ih =>
    exact ih (h.connecting hopen time).close
  | case5 obstacle address more n hsocket d n' hopen time connecting peer reached hreach
      connected obstacle' hsetback hconnect ih =>
    -- The peer was reached, and the socket is closed all the same.
    obtain ⟨hheld, hpeer⟩ := (h.connecting hopen time).reached hreach
    apply ih
    rw [Network.close, hpeer]
    exact hheld.close
  | case6 obstacle address more n hsocket d n' hopen time connecting peer reached hreach =>
    obtain ⟨hheld, hpeer⟩ := (h.connecting hopen time).reached hreach
    rw [Opening.descriptors, hpeer]
    exact hheld

theorem Holds.tryAddresses_eq {attempt : Attempt} {obstacle : Obstacle} {addresses : List Address}
    {opening : Opening} (h : n.Holds [])
    (htry : Network.tryAddresses deadline attempt obstacle addresses n = (opening, n')) :
    n'.Holds opening.descriptors := by
  have hheld : (Network.tryAddresses deadline attempt obstacle addresses n).2.Holds
    (Network.tryAddresses deadline attempt obstacle addresses n).1.descriptors := h.tryAddresses
  rwa [htry] at hheld

/-- However the opening of a socket ends, no socket is open but the one returned. -/
theorem Holds.openSocket {endpoint : Endpoint} {result : Except Breakdown Socket}
    (h : n.Holds []) (hresult : n.openSocket deadline endpoint = (result, n')) :
    n'.Holds (result.toOption.map Socket.descriptor).toList := by
  unfold Network.openSocket at hresult
  rcases hnext : n.nextAttempt with ⟨attempt, started⟩
  have hresolved := ((h.nextAttempt hnext).resolve endpoint.host endpoint.port).pass
    attempt.delay
  rw [hnext] at hresult
  dsimp only at hresult
  split at hresult
  · cases hresult
    exact hresolved
  · cases hresult
    exact hresolved
  · -- The socket that was opened is the one returned, and no other end leaves a socket open.
    split at hresult <;> rename_i htry <;> cases hresult <;>
      exact hresolved.tryAddresses_eq htry

/-! ### Writing and reading -/

theorem Holds.wait {pauses : List Pause} {readiness : Readiness} (h : n.Holds held) (hd : d ∈ held)
    (hwait : n.wait deadline d pauses = (readiness, n')) : n'.Holds held := by
  unfold Network.wait at hwait
  obtain rfl := (Prod.ext_iff.1 hwait).2
  dsimp only
  split
  · exact (h.withClock _).use hd
  · exact h.withClock _

theorem Holds.deliver {peer : Socket} {b : Bytes} {result : Except Breakdown Unit}
    (h : n.Holds held) (hd : peer.descriptor ∈ held)
    (hdeliver : n.deliver peer b = (result, n')) : n'.Holds held := by
  have hsent := h.send hd b
  unfold Network.deliver at hdeliver
  dsimp only at hdeliver
  split at hdeliver
  · cases hdeliver
    exact hsent
  · split at hdeliver <;> cases hdeliver
    · exact hsent.withService _
    · exact hsent

/-- An open socket stays open, however writing to it ends. -/
theorem Holds.sendAll {peer : Socket} {script : Script Departure} {b : Bytes} (h : n.Holds held)
    (hd : peer.descriptor ∈ held) : (sendAll deadline peer script b n).2.Holds held := by
  fun_induction Network.sendAll deadline peer script b n with
  | case1 => exact h
  | case2 b rest n readiness n' hwait result n'' hdeliver =>
    exact (h.wait hd hwait).deliver hd hdeliver
  | case3 event script b rest n n' hwait => exact h.wait hd hwait
  | case4 event script b rest n e n' hwait => exact h.wait hd hwait
  | case5 event script b rest n n' hwait hevent result n'' hdeliver =>
    exact (h.wait hd hwait).deliver hd hdeliver
  | case6 event script b rest n n' hwait limit hevent reason n'' hdeliver =>
    exact (h.wait hd hwait).deliver hd hdeliver
  | case7 event script b rest n n' hwait n'' hevent hdeliver =>
    exact (h.wait hd hwait).deliver hd hdeliver
  | case8 event script b rest n n' hwait limit hevent n'' hdeliver hlimit ih =>
    exact ih ((h.wait hd hwait).deliver hd hdeliver)
  | case9 event script b rest n n' hwait hevent ih => exact ih ((h.wait hd hwait).send hd [])
  | case10 event script b rest n n' hwait e hevent he => exact (h.wait hd hwait).send hd []

theorem Holds.receive {shape : Shape} {script : Script Arrival} {pending : Bytes}
    (h : n.Holds held) (hd : d ∈ held) :
    (receive deadline shape d script pending n).2.Holds held := by
  fun_induction Network.receive deadline shape d script pending n with
  | case1 => exact h
  | case2 => exact h
  | case3 pending n missing cursor hread readiness n' hwait => exact (h.wait hd hwait).read hd []
  | case4 pending n missing cursor hread event script n' hwait => exact h.wait hd hwait
  | case5 pending n missing cursor hread event script e n' hwait => exact h.wait hd hwait
  | case6 pending n missing cursor hread event script n' hwait =>
    exact (h.wait hd hwait).read hd []
  | case7 pending n missing cursor hread event script n' hwait b =>
    exact (h.wait hd hwait).read hd b
  | case8 pending n missing cursor hread event script n' hwait b hevent n'' hempty ih =>
    exact ih ((h.wait hd hwait).read hd b)
  | case9 pending n missing cursor hread event script n' hwait n'' hevent ih =>
    exact ih ((h.wait hd hwait).read hd [])
  | case10 pending n missing cursor hread event script n' hwait =>
    exact (h.wait hd hwait).read hd []

theorem Holds.settle {peer settled : Socket} (h : n.Holds held)
    (hsettle : n.settle deadline peer = (settled, n')) :
    n'.Holds held ∧ settled.descriptor = peer.descriptor := by
  unfold Network.settle at hsettle
  split at hsettle
  · split at hsettle <;> cases hsettle
    · exact ⟨h, rfl⟩
    · exact ⟨h.congr rfl, rfl⟩
  · cases hsettle
    exact ⟨h, rfl⟩

end Network

end RemoteCache
