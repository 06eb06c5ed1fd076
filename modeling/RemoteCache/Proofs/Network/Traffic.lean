import RemoteCache.Network.Basic

/-!
# What passes over one socket

Writing a request and reading a response make calls on one socket alone: none of them opens a
socket or closes one. What they wrote and what they read can be told from the record.

## Main definitions

* `Call.IsOn` — a call by which bytes may pass over a socket
* `Call.received` — the bytes that some calls read
* `Network.Conveys` — the calls between two states wrote some bytes to one socket and read some

## Main results

* `Network.conveys_sendAll` — what is written is a beginning of the request, and all of it when
  writing succeeds
* `Network.conveys_receive` — a response is read from what was left over and what was read
-/

namespace RemoteCache

namespace Call

/-- A call by which bytes may pass over the socket with the given descriptor. -/
def IsOn (d : Nat) : Call → Prop
  | .use d' | .send d' _ | .receive d' _ => d' = d
  | .resolve _ _ | .socket _ | .close _ => False

/-- The bytes that some calls read, from whichever socket, the latest call first. -/
def received : List Call → Bytes
  | [] => []
  | .receive _ b :: earlier => received earlier ++ b
  | _ :: earlier => received earlier

theorem sent_append (later earlier : List Call) :
    sent (later ++ earlier) = sent earlier ++ sent later := by
  induction later with
  | nil => rw [List.nil_append, sent, List.append_nil]
  | cons call later ih => cases call <;> simp [sent, ih]

theorem received_append (later earlier : List Call) :
    received (later ++ earlier) = received earlier ++ received later := by
  induction later with
  | nil => rw [List.nil_append, received, List.append_nil]
  | cons call later ih => cases call <;> simp [received, ih]

end Call

namespace Network

open Call

/-- The calls from one state of the network to another are made on one socket, and some bytes
were written to it and some read from it. -/
def Conveys (d : Nat) (written read : Bytes) (n n' : Network) : Prop :=
  ∃ calls, n'.calls = calls ++ n.calls ∧ (∀ call ∈ calls, call.IsOn d) ∧
    sent calls = written ∧ received calls = read

variable {n n' n'' : Network} {d : Nat} {written read written' read' : Bytes}
  {deadline : Deadline}

theorem Conveys.of_calls_eq (h : n'.calls = n.calls) : Conveys d [] [] n n' :=
  ⟨[], h, nofun, rfl, rfl⟩

theorem Conveys.trans (h : Conveys d written read n n') (h' : Conveys d written' read' n' n'') :
    Conveys d (written ++ written') (read ++ read') n n'' := by
  obtain ⟨calls, hcalls, hon, rfl, rfl⟩ := h
  obtain ⟨calls', hcalls', hon', rfl, rfl⟩ := h'
  refine ⟨calls' ++ calls, ?_, ?_, sent_append _ _, received_append _ _⟩
  · rw [hcalls', hcalls, List.append_assoc]
  · intro call hcall
    exact (List.mem_append.1 hcall).elim (hon' call) (hon call)

/-- One more call. -/
theorem Conveys.record (h : Conveys d written read n n') (call : Call) (hon : call.IsOn d) :
    Conveys d (written ++ sent [call]) (read ++ received [call]) n (n'.record call) := by
  refine h.trans ⟨[call], rfl, ?_, rfl, rfl⟩
  intro call' hcall'
  rwa [List.mem_singleton.1 hcall']

theorem Conveys.wait (h : Conveys d written read n n') {pauses : List Pause}
    {readiness : Readiness} (hwait : n'.wait deadline d pauses = (readiness, n'')) :
    Conveys d written read n n'' := by
  unfold Network.wait at hwait
  obtain rfl := (Prod.ext_iff.1 hwait).2
  have hclock (clock : Instant) : Conveys d written read n { n' with clock } := h
  dsimp only
  split
  · have huse := (hclock (Pause.await deadline pauses n'.clock).2).record (.use d) rfl
    simpa [sent, received] using huse
  · exact h

theorem Conveys.deliver (h : Conveys d written read n n') {peer : Socket} {b : Bytes}
    {result : Except Breakdown Unit} (hd : peer.descriptor = d)
    (hdeliver : n'.deliver peer b = (result, n'')) : Conveys d (written ++ b) read n n'' := by
  have hsent := h.record (.send peer.descriptor b) hd
  have hrecord : Conveys d (written ++ b) read n (n'.record (.send peer.descriptor b)) := by
    simpa [sent, received] using hsent
  unfold Network.deliver at hdeliver
  dsimp only at hdeliver
  split at hdeliver
  · cases hdeliver
    exact hrecord
  · split at hdeliver <;> cases hdeliver
    · exact hrecord
    · exact hrecord

/-- What is written is a beginning of the bytes, and all of them when writing succeeds. -/
theorem conveys_sendAll (deadline : Deadline) (peer : Socket) (script : Script Departure)
    (b : Bytes) (n : Network) :
    ∃ w, Conveys peer.descriptor w [] n (sendAll deadline peer script b n).2 ∧ w <+: b ∧
      ∀ script', (sendAll deadline peer script b n).1 = .ok script' → w = b := by
  fun_induction Network.sendAll deadline peer script b n with
  | case1 script n => exact ⟨[], .of_calls_eq rfl, List.prefix_rfl, fun _ _ => rfl⟩
  | case2 b rest n readiness n' hwait result n'' hdeliver =>
    refine ⟨b :: rest, ?_, List.prefix_rfl, fun _ _ => rfl⟩
    exact ((Conveys.of_calls_eq rfl).wait hwait).deliver rfl hdeliver
  | case3 event script b rest n n' hwait =>
    exact ⟨[], (Conveys.of_calls_eq rfl).wait hwait, List.nil_prefix, nofun⟩
  | case4 event script b rest n e n' hwait =>
    exact ⟨[], (Conveys.of_calls_eq rfl).wait hwait, List.nil_prefix, nofun⟩
  | case5 event script b rest n n' hwait hevent result n'' hdeliver =>
    refine ⟨b :: rest, ?_, List.prefix_rfl, fun _ _ => rfl⟩
    exact ((Conveys.of_calls_eq rfl).wait hwait).deliver rfl hdeliver
  | case6 event script b rest n n' hwait limit hevent reason n'' hdeliver =>
    refine ⟨(b :: rest).take limit, ?_, List.take_prefix _ _, nofun⟩
    exact ((Conveys.of_calls_eq rfl).wait hwait).deliver rfl hdeliver
  | case7 event script b rest n n' hwait n'' hevent hdeliver =>
    refine ⟨(b :: rest).take 0, ?_, List.take_prefix _ _, nofun⟩
    exact ((Conveys.of_calls_eq rfl).wait hwait).deliver rfl hdeliver
  | case8 event script b rest n n' hwait limit hevent n'' hdeliver hlimit ih =>
    -- The bytes that were taken, and then what is written of the others.
    obtain ⟨w, hmore, hw, hall⟩ := ih
    have htaken : Conveys peer.descriptor ((b :: rest).take limit) [] n n'' :=
      ((Conveys.of_calls_eq rfl).wait hwait).deliver rfl hdeliver
    refine ⟨(b :: rest).take limit ++ w, htaken.trans hmore, ?_, fun script' h => ?_⟩
    · obtain ⟨others, hothers⟩ := hw
      refine ⟨others, ?_⟩
      rw [List.append_assoc, hothers, List.take_append_drop]
    · rw [hall script' h, List.take_append_drop]
  | case9 event script b rest n n' hwait hevent ih =>
    obtain ⟨w, hmore, hw, hall⟩ := ih
    have hsignal : Conveys peer.descriptor [] [] n (n'.record (.send peer.descriptor [])) :=
      ((Conveys.of_calls_eq rfl).wait hwait).record _ rfl
    exact ⟨w, hsignal.trans hmore, hw, hall⟩
  | case10 event script b rest n n' hwait e hevent he =>
    refine ⟨[], ?_, List.nil_prefix, nofun⟩
    exact ((Conveys.of_calls_eq rfl).wait hwait).record _ rfl

/-- A response is read from what was left over and what was read, and what lies behind it there is
left over. When none is read, there is none in those bytes. -/
theorem conveys_receive (deadline : Deadline) (shape : Shape) (d : Nat) (script : Script Arrival)
    (pending : Bytes) (n : Network) :
    ∃ b, Conveys d [] b n (receive deadline shape d script pending n).2 ∧
      (∀ received, (receive deadline shape d script pending n).1 = .ok received →
        ∃ offset, Reply.read shape (.start (pending ++ b)) =
          .done received.response ⟨offset, received.pending⟩) ∧
      ∀ reason, (receive deadline shape d script pending n).1 = .error reason →
        ∀ r c, Reply.read shape (.start (pending ++ b)) ≠ .done r c := by
  -- Before the last bytes came, there was no response in what was left over.
  have hnone {pending : Bytes} {outcome : Wire.Outcome Response}
      (hread : Reply.read shape (.start pending) = outcome) (houtcome : ∀ r c, outcome ≠ .done r c)
      (r : Response) (c : Wire.Cursor) : Reply.read shape (.start (pending ++ [])) ≠ .done r c := by
    rw [List.append_nil, hread]
    exact houtcome r c
  fun_induction Network.receive deadline shape d script pending n with
  | case1 script pending n fault hread =>
    exact ⟨[], .of_calls_eq rfl, nofun, fun _ _ => hnone hread nofun⟩
  | case2 script pending n response cursor hread =>
    refine ⟨[], .of_calls_eq rfl, fun received h => ⟨cursor.offset, ?_⟩, nofun⟩
    cases h
    rw [List.append_nil, hread]
  | case3 pending n missing cursor hread readiness n' hwait =>
    exact ⟨[], ((Conveys.of_calls_eq rfl).wait hwait).record _ rfl, nofun,
      fun _ _ => hnone hread nofun⟩
  | case4 pending n missing cursor hread event script n' hwait =>
    exact ⟨[], (Conveys.of_calls_eq rfl).wait hwait, nofun, fun _ _ => hnone hread nofun⟩
  | case5 pending n missing cursor hread event script e n' hwait =>
    exact ⟨[], (Conveys.of_calls_eq rfl).wait hwait, nofun, fun _ _ => hnone hread nofun⟩
  | case6 pending n missing cursor hread event script n' hwait =>
    exact ⟨[], ((Conveys.of_calls_eq rfl).wait hwait).record _ rfl, nofun,
      fun _ _ => hnone hread nofun⟩
  | case7 pending n missing cursor hread event script n' hwait b hevent n'' hempty =>
    obtain rfl := List.isEmpty_iff.1 hempty
    exact ⟨[], ((Conveys.of_calls_eq rfl).wait hwait).record _ rfl, nofun,
      fun _ _ => hnone hread nofun⟩
  | case8 pending n missing cursor hread event script n' hwait b hevent n'' hempty ih =>
    obtain ⟨more, hmore, hresponse⟩ := ih
    have hsegment : Conveys d [] b n (n'.record (.receive d b)) :=
      ((Conveys.of_calls_eq rfl).wait hwait).record _ rfl
    refine ⟨b ++ more, hsegment.trans hmore, ?_⟩
    rw [← List.append_assoc]
    exact hresponse
  | case9 pending n missing cursor hread event script n' hwait n'' hevent ih =>
    obtain ⟨more, hmore, hresponse⟩ := ih
    have hsignal : Conveys d [] [] n (n'.record (.receive d [])) :=
      ((Conveys.of_calls_eq rfl).wait hwait).record _ rfl
    exact ⟨more, hsignal.trans hmore, hresponse⟩
  | case10 pending n missing cursor hread event script n' hwait =>
    exact ⟨[], ((Conveys.of_calls_eq rfl).wait hwait).record _ rfl, nofun,
      fun _ _ => hnone hread nofun⟩

theorem conveys_settle {peer settled : Socket} (h : n.settle deadline peer = (settled, n')) :
    Conveys d [] [] n n' ∧ settled.descriptor = peer.descriptor := by
  unfold Network.settle at h
  split at h
  · split at h <;> cases h
    · exact ⟨.of_calls_eq rfl, rfl⟩
    · exact ⟨.of_calls_eq rfl, rfl⟩
  · cases h
    exact ⟨.of_calls_eq rfl, rfl⟩

end Network

end RemoteCache
