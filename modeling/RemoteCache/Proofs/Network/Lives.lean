import RemoteCache.Proofs.Network.Descriptors
import RemoteCache.Proofs.Network.Traffic

/-!
# The lives of sockets

A record of calls tells the life of every socket: the calls on it, from its opening to its closing.
The system may hand out the number of a closed descriptor once more, and then another life begins.
Over a socket that is tried in vain nothing passes; of the sockets that are opened one after
another, at most the last one is still open.

## Main definitions

* `Call.Carries` — calls on one socket, by what they wrote and what they read
* `Call.Life`, `Call.lives` — the sockets of a record, each with the calls on it
* `Call.Lived` — a record of closed lives, all of one sort, and perhaps one that goes on
* `Call.InVain`, `Call.Searched` — calls by which sockets are tried in vain

## Main results

* `Call.Lived.open`, `Call.Lived.carry`, `Call.Lived.close` — a life begins, goes on and ends
* `Network.calls_openSocket` — of the sockets that are tried, only the one returned lives on
-/

namespace RemoteCache

namespace Call

/-- Calls on the socket with the given descriptor, which wrote some bytes to it and read some. -/
structure Carries (d : Nat) (written read : Bytes) (calls : List Call) : Prop where
  isOn : ∀ call ∈ calls, call.IsOn d
  sent_eq : sent calls = written
  received_eq : received calls = read

/-- A socket, with the calls on it from its opening to its closing, the latest first. -/
structure Life where
  descriptor : Nat
  isOpen : Bool
  calls : List Call
deriving DecidableEq

/-- One more call on a socket. Its closing ends its life. -/
def Life.extend (life : Life) : Call → Life
  | .close _ => { life with isOpen := false }
  | call => { life with calls := call :: life.calls }

/-- A call goes to the open socket whose descriptor it is made on. A socket that is not known was
opened before the record began. -/
def enter (call : Call) : List Life → List Life
  | [] =>
    match call.descriptor? with
    | some d => [Life.extend ⟨d, true, []⟩ call]
    | none => []
  | life :: more =>
    if life.isOpen = true ∧ call.descriptor? = some life.descriptor then life.extend call :: more
    else life :: enter call more

/-- The sockets of a record, the one opened last first. -/
def lives : List Call → List Life
  | [] => []
  | .socket (some d) :: earlier => ⟨d, true, []⟩ :: lives earlier
  | call :: earlier => enter call (lives earlier)

/-- The sockets of a record are those that are current and others, which are closed and of which
`P` holds. -/
def Lived (P : Life → Prop) (current : List Life) (record : List Call) : Prop :=
  ∃ past, lives record = current ++ past ∧ ∀ life ∈ past, life.isOpen = false ∧ P life

/-- Calls by which sockets are tried in vain: every socket is closed again, and nothing passes. -/
inductive InVain : List Call → Prop
  | nil : InVain []
  | unavailable {calls : List Call} (h : InVain calls) : InVain (.socket none :: calls)
  | tried (d : Nat) {calls uses : List Call} (h : InVain calls) (huses : Carries d [] [] uses) :
    InVain (.close d :: (uses ++ .socket (some d) :: calls))

/-- Calls by which a name is resolved and sockets are tried in vain. -/
def Searched (calls : List Call) : Prop :=
  ∃ host port tried, calls = tried ++ [.resolve host port] ∧ InVain tried

variable {P Q : Life → Prop} {current : List Life} {record calls later earlier : List Call}
  {d : Nat} {written read written' read' : Bytes}

/-! ### What calls carry -/

theorem Carries.nil (d : Nat) : Carries d [] [] [] := ⟨nofun, rfl, rfl⟩

theorem Carries.use (d : Nat) : Carries d [] [] [.use d] := by
  refine ⟨?_, rfl, rfl⟩
  intro call hcall
  obtain rfl := List.mem_singleton.1 hcall
  rfl

theorem Carries.append (h : Carries d written read earlier) (h' : Carries d written' read' later) :
    Carries d (written ++ written') (read ++ read') (later ++ earlier) where
  isOn call hcall := (List.mem_append.1 hcall).elim (h'.isOn call) (h.isOn call)
  sent_eq := by rw [sent_append, h.sent_eq, h'.sent_eq]
  received_eq := by rw [received_append, h.received_eq, h'.received_eq]

theorem Carries.resolutions_eq (h : Carries d written read calls) : resolutions calls = 0 := by
  refine List.countP_eq_zero.2 ?_
  intro call hcall
  have hon := h.isOn call hcall
  cases call <;> simp_all [IsOn]

theorem resolutions_append (later earlier : List Call) :
    resolutions (later ++ earlier) = resolutions later + resolutions earlier :=
  List.countP_append

/-! ### A life begins, goes on and ends -/

theorem Lived.nil : Lived P [] [] := ⟨[], rfl, nofun⟩

theorem Lived.mono (h : Lived P current record) (hPQ : ∀ life, P life → Q life) :
    Lived Q current record := by
  obtain ⟨past, hlives, hpast⟩ := h
  exact ⟨past, hlives, fun life hlife => (hpast life hlife).imp_right (hPQ life)⟩

theorem Lived.open (h : Lived P [] record) (d : Nat) :
    Lived P [⟨d, true, []⟩] (.socket (some d) :: record) := by
  obtain ⟨past, hlives, hpast⟩ := h
  exact ⟨past, by rw [lives, hlives]; rfl, hpast⟩

/-- A call that is made on no descriptor goes to no socket. -/
theorem enter_of_descriptor?_eq_none {call : Call} (h : call.descriptor? = none)
    (sockets : List Life) : enter call sockets = sockets := by
  induction sockets with
  | nil => rw [enter, h]
  | cons life more ih => rw [enter, h, ih, if_neg (by simp)]

theorem Lived.resolve (h : Lived P current record) (host : Bytes) (port : UInt16) :
    Lived P current (.resolve host port :: record) := by
  rw [Lived, lives, enter_of_descriptor?_eq_none rfl]
  · exact h
  · exact nofun

theorem Lived.unavailable (h : Lived P current record) :
    Lived P current (.socket none :: record) := by
  rw [Lived, lives, enter_of_descriptor?_eq_none rfl]
  · exact h
  · exact nofun

/-- A call by which bytes may pass belongs to the life of its socket. -/
theorem lives_cons_of_isOn {call : Call} (hon : call.IsOn d) {past : List Life}
    (h : lives record = ⟨d, true, earlier⟩ :: past) :
    lives (call :: record) = ⟨d, true, call :: earlier⟩ :: past := by
  cases call with
  | use d' | send d' b | receive d' b =>
    obtain rfl : d' = d := hon
    rw [lives, h, enter, if_pos ⟨rfl, rfl⟩]
    · rfl
    · exact nofun
  | resolve | socket | close => cases hon

theorem Lived.carry (h : Lived P [⟨d, true, earlier⟩] record)
    (hcalls : Carries d written read calls) :
    Lived P [⟨d, true, calls ++ earlier⟩] (calls ++ record) := by
  obtain ⟨past, hlives, hpast⟩ := h
  refine ⟨past, ?_, hpast⟩
  have hon := hcalls.isOn
  clear hcalls
  induction calls with
  | nil => exact hlives
  | cons call calls ih =>
    obtain ⟨hcall, hmore⟩ := List.forall_mem_cons.1 hon
    exact lives_cons_of_isOn hcall (ih hmore)

theorem Lived.close (h : Lived P [⟨d, true, earlier⟩] record) (hP : P ⟨d, false, earlier⟩) :
    Lived P [] (.close d :: record) := by
  obtain ⟨past, hlives, hpast⟩ := h
  refine ⟨⟨d, false, earlier⟩ :: past, ?_, List.forall_mem_cons.2 ⟨⟨rfl, hP⟩, hpast⟩⟩
  rw [lives, hlives, List.cons_append, enter, if_pos ⟨rfl, rfl⟩]
  · rfl
  · exact nofun

/-! ### Sockets that are tried in vain -/

theorem InVain.append (h : InVain earlier) (h' : InVain later) : InVain (later ++ earlier) := by
  induction h' with
  | nil => exact h
  | unavailable _ ih => exact .unavailable ih
  | tried d _ huses ih =>
    have hmore := InVain.tried d ih huses
    rwa [List.cons_append, List.append_assoc, List.cons_append]

theorem InVain.resolutions_eq (h : InVain calls) : resolutions calls = 0 := by
  induction h with
  | nil => rfl
  | unavailable _ ih => exact ih
  | tried d _ huses ih =>
    have hparts := resolutions_append
    simp only [resolutions, List.countP_cons, List.countP_append] at *
    have := huses.resolutions_eq
    simp_all [resolutions]

/-- Sockets over which nothing passed have lives of the sort that is asked for. -/
theorem Lived.inVain (h : Lived P [] record) (hcalls : InVain calls)
    (hsilent : ∀ d uses, Carries d [] [] uses → P ⟨d, false, uses⟩) :
    Lived P [] (calls ++ record) := by
  induction hcalls with
  | nil => exact h
  | unavailable _ ih => exact ih.unavailable
  | tried d _ huses ih =>
    have hcarried := (ih.open d).carry huses
    rw [List.append_nil] at hcarried
    rw [List.cons_append, List.append_assoc]
    exact hcarried.close (hsilent d _ huses)

theorem Searched.lived (hcalls : Searched calls) (h : Lived P [] record)
    (hsilent : ∀ d uses, Carries d [] [] uses → P ⟨d, false, uses⟩) :
    Lived P [] (calls ++ record) := by
  obtain ⟨host, port, tried, rfl, hvain⟩ := hcalls
  rw [List.append_assoc]
  exact (h.resolve host port).inVain hvain hsilent

theorem Searched.resolutions_eq (h : Searched calls) : resolutions calls = 1 := by
  obtain ⟨host, port, tried, rfl, hvain⟩ := h
  rw [resolutions_append, hvain.resolutions_eq]
  rfl

end Call

namespace Network

open Call

variable {n n' : Network} {d : Nat} {written read : Bytes} {deadline : Deadline}

theorem conveys_iff :
    Conveys d written read n n' ↔
      ∃ calls, n'.calls = calls ++ n.calls ∧ Carries d written read calls := by
  constructor
  · rintro ⟨calls, hcalls, hon, hsent, hreceived⟩
    exact ⟨calls, hcalls, hon, hsent, hreceived⟩
  · rintro ⟨calls, hcalls, hcarries⟩
    exact ⟨calls, hcalls, hcarries.isOn, hcarries.sent_eq, hcarries.received_eq⟩

/-- The calls between two states of the network tried sockets, all of them in vain or all but the
one returned. -/
def Opening.Tells (n n' : Network) : Opening → Prop
  | .opened peer => ∃ uses tried, n'.calls = uses ++ .socket (some peer.descriptor) ::
      (tried ++ n.calls) ∧ Carries peer.descriptor [] [] uses ∧ InVain tried
  | _ => ∃ tried, n'.calls = tried ++ n.calls ∧ InVain tried

/-- What was tried in vain before is told too. -/
theorem Opening.Tells.after {opening : Opening} {n₁ : Network} {tried : List Call}
    (h : opening.Tells n₁ n') (hcalls : n₁.calls = tried ++ n.calls) (htried : InVain tried) :
    opening.Tells n n' := by
  cases opening with
  | opened peer =>
    obtain ⟨uses, more, hlater, huses, hmore⟩ := h
    refine ⟨uses, more ++ tried, ?_, huses, htried.append hmore⟩
    rw [hlater, hcalls, List.append_assoc]
  | failed | timedOut =>
    obtain ⟨more, hlater, hmore⟩ := h
    refine ⟨more ++ tried, ?_, htried.append hmore⟩
    rw [hlater, hcalls, List.append_assoc]

theorem reach_calls {attempt : Attempt} {peer : Socket} (h : n.reach attempt d = (peer, n')) :
    n'.calls = n.calls ∧ peer.descriptor = d := by
  unfold reach at h
  dsimp only at h
  split at h <;> cases h <;> exact ⟨rfl, rfl⟩

theorem openDescriptor_calls (h : n.openDescriptor = (d, n')) :
    n'.calls = .socket (some d) :: n.calls := by
  cases h
  rfl

/-- Every socket that is tried but the one returned is closed again, and nothing passed over it. -/
theorem calls_tryAddresses (deadline : Deadline) (attempt : Attempt) (obstacle : Obstacle)
    (addresses : List Address) (n : Network) :
    (tryAddresses deadline attempt obstacle addresses n).1.Tells n
      (tryAddresses deadline attempt obstacle addresses n).2 := by
  fun_induction tryAddresses deadline attempt obstacle addresses n with
  | case1 obstacle n => exact ⟨[], rfl, .nil⟩
  | case2 obstacle e more n ih => exact ih.after rfl (.unavailable .nil)
  | case3 obstacle address more n hsocket d n' hopen time =>
    have hcalls := openDescriptor_calls hopen
    refine ⟨.close d :: ([.use d] ++ .socket (some d) :: []), ?_, .tried d .nil (.use d)⟩
    exact congrArg (fun calls => .close d :: .use d :: calls) hcalls
  | case4 obstacle address more n hsocket d n' hopen time connecting obstacle' hconnect ih =>
    have hcalls := openDescriptor_calls hopen
    refine ih.after ?_ (.tried d .nil (.use d))
    exact congrArg (fun calls => .close d :: .use d :: calls) hcalls
  | case5 obstacle address more n hsocket d n' hopen time connecting peer reached hreach
      connected obstacle' hsetback hconnect ih =>
    -- The peer was reached, and the socket is closed all the same.
    obtain ⟨hreached, hpeer⟩ := reach_calls hreach
    have hcalls := openDescriptor_calls hopen
    have huses : Carries d [] [] [.use d, .use d] := (Carries.use d).append (.use d)
    refine ih.after ?_ (.tried d .nil huses)
    change .close peer.descriptor :: .use d :: reached.calls = _
    rw [hpeer, hreached]
    exact congrArg (fun calls => .close d :: .use d :: .use d :: calls) hcalls
  | case6 obstacle address more n hsocket d n' hopen time connecting peer reached hreach =>
    obtain ⟨hreached, hpeer⟩ := reach_calls hreach
    have hcalls := openDescriptor_calls hopen
    refine ⟨[.use d, .use d], [], ?_, ?_, .nil⟩
    · change .use d :: reached.calls = _
      rw [hreached, hpeer]
      exact congrArg (fun calls => .use d :: .use d :: calls) hcalls
    · rw [hpeer]
      exact (Carries.use d).append (.use d)

/-- Of the sockets that are tried, only the one returned lives on. -/
theorem calls_openSocket {endpoint : Endpoint} {result : Except Breakdown Socket}
    (h : n.openSocket deadline endpoint = (result, n')) :
    match result with
    | .ok peer => ∃ uses searched, n'.calls = uses ++ .socket (some peer.descriptor) ::
        (searched ++ n.calls) ∧ Carries peer.descriptor [] [] uses ∧ Searched searched
    | .error _ => ∃ searched, n'.calls = searched ++ n.calls ∧ Searched searched := by
  unfold openSocket at h
  rcases hnext : n.nextAttempt with ⟨attempt, started⟩
  have hstarted : started.calls = n.calls := by
    unfold nextAttempt at hnext
    split at hnext <;> cases hnext <;> rfl
  rw [hnext] at h
  dsimp only at h
  have hresolved : ((started.record (.resolve endpoint.host endpoint.port)).pass
      attempt.delay).calls = [.resolve endpoint.host endpoint.port] ++ n.calls :=
    congrArg (List.cons _) hstarted
  split at h
  · cases h
    exact ⟨_, hresolved, _, _, [], rfl, .nil⟩
  · cases h
    exact ⟨_, hresolved, _, _, [], rfl, .nil⟩
  · rename_i addresses _ _
    have htold := calls_tryAddresses deadline attempt .noAddress addresses
      ((started.record (.resolve endpoint.host endpoint.port)).pass attempt.delay)
    split at h <;> rename_i htry <;> rw [htry] at htold <;> cases h
    · obtain ⟨uses, tried, hcalls, huses, htried⟩ := htold
      refine ⟨uses, tried ++ [.resolve endpoint.host endpoint.port], ?_, huses,
        _, _, tried, rfl, htried⟩
      rw [hcalls, hresolved, List.append_assoc]
    all_goals
      obtain ⟨tried, hcalls, htried⟩ := htold
      refine ⟨tried ++ [.resolve endpoint.host endpoint.port], ?_, _, _, tried, rfl, htried⟩
      rw [hcalls, hresolved, List.append_assoc]

end Network

end RemoteCache
