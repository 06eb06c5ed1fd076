import RemoteCache.Proofs.Server.Leases

/-!
# Entries that expire unnoticed

A cache takes an entry that has expired out only when it is looked for, so that such entries linger
through any number of commands about other keys. None of its answers about a key tells of them: they
are those of a map that drops each value in time.

## Main definitions

* `Cache.Steady` — a log whose clock does not go back, and which stays clear of the clock's end
* `Cache.Mirrors` — a cache and a map that hold the same from an instant on
* `Cache.Tells`, `Cache.Misses` — the answers about a key that is there, and about one that is not

## Main results

* `Cache.Mirrors.reply`, `Cache.Mirrors.handle` — a cache answers as the map does, and goes on to
  do so
* `Cache.answers_as_leased` — the answers of a cache after any log
-/

namespace RemoteCache

/-! ### A cache and the map that it stands for -/

namespace Command

/-- The lifetime that a command gives. -/
def lifetime : Command → Option Int
  | .set _ _ ttl | .setTtl _ ttl => ttl
  | _ => none

end Command

namespace Cache

variable {c : Cache} {m : EagerMap} {since now : Instant} {command : Command}

/-- A cache stands for a map, from an instant on, if they hold the same at every instant. -/
structure Mirrors (c : Cache) (m : EagerMap) (since : Instant) : Prop where
  capacity : c.capacity = m.capacity
  live : ∀ now, since ≤ now → ∀ key,
    c.store.live? now key = ((m.pruned now).leases key).map Lease.entry

/-- A cache without entries stands for the map without leases. -/
theorem mirrors_ofCapacity (h : c.store = []) (since : Instant) :
    c.Mirrors (.ofCapacity c.capacity) since where
  capacity := rfl
  live := fun now _ key => by
    rw [h]
    rfl

/-- The lifetime ends when the lease says so, unless the clock has ended before. -/
theorem entry_of_fits {value : Bytes} {ttl : Option Int} (hclock : (-2 ^ 63 : Int) ≤ now)
    (hfits : ∀ n, ttl = some n → (now + seconds n : Int) < 2 ^ 63) :
    (⟨value, expiryAfter now ttl⟩ : Entry) = (⟨value, now, ttl⟩ : Lease).entry := by
  have hwrap {n : Int} (hlow : -2 ^ 63 ≤ n) (hhigh : n < 2 ^ 63) : n.bmod (2 ^ 64) = n := by
    rw [Int.bmod_def]
    omega
  have hlimit : expiryAfter now ttl = (⟨value, now, ttl⟩ : Lease).limit := by
    cases ttl with
    | none => rfl
    | some n =>
      simp only [expiryAfter, Lease.limit]
      split
      · rename_i hpos
        refine congrArg some (hwrap ?_ (hfits n rfl))
        unfold seconds
        omega
      · rfl
  exact congrArg (Entry.mk value) hlimit

/-- The rest of a lifetime, in seconds, is that of the lease. -/
theorem secondsLeft_entry {l : Lease} (hover : l.isOver now = false) :
    (match l.entry.expiry with
      | none => 0
      | some limit => secondsLeft now limit) = l.secondsLeft now := by
  have hround {now limit : Int} (h : now < limit) :
      secondsLeft now limit = (limit - now + (seconds 1 - 1)) / seconds 1 := by
    unfold secondsLeft seconds
    omega
  unfold Lease.entry Lease.secondsLeft
  cases hlimit : l.limit with
  | none => rfl
  | some limit => exact hround (by simpa [Lease.isOver, hlimit] using hover)

/-- A cache answers as the map that it stands for. -/
theorem Mirrors.reply (h : c.Mirrors m since) (hnow : since ≤ now) {response : Response}
    (hreply : (m.pruned now).reply now command = some response) :
    (c.handle now command).2 = response := by
  have hlive := h.live now hnow
  have hfound {key : Bytes} {answer : Entry → Payload} {tale : Lease → Payload}
      (hsame : ∀ l : Lease, l.isOver now = false → answer l.entry = tale l) :
      found (c.store.live? now key) (fun e => .ok (answer e)) = (m.pruned now).tell key tale := by
    rw [hlive, EagerMap.tell]
    cases hl : (m.pruned now).leases key with
    | none => rfl
    | some l => exact congrArg Response.ok (hsame l (EagerMap.pruned_leases_eq_some.1 hl).2)
  cases command with
  | get key | peek key | del key | valueSize key =>
    cases hreply
    exact hfound fun l _ => rfl
  | getTtl key =>
    cases hreply
    exact hfound fun l hover => congrArg Payload.expiry (secondsLeft_entry hover)
  | has key =>
    cases hreply
    simp only [Cache.handle, hlive, Option.isSome_map]
  | setTtl key ttl =>
    cases hreply
    rw [← @hfound key (fun _ => .ack) (fun _ => .ack) fun l _ => rfl]
    simp only [Cache.handle]
    cases c.store.live? now key <;> rfl
  | set key value ttl =>
    have hcapacity : (m.pruned now).capacity = c.capacity := h.capacity.symm
    simp only [EagerMap.reply, hcapacity] at hreply
    simp only [Cache.handle, Cache.set, List.isEmpty_iff]
    split at hreply
    · rename_i hempty
      rw [if_pos hempty]
      exact Option.some.inj hreply
    · rename_i hempty
      rw [if_neg hempty]
      split at hreply
      · rename_i hlong
        rw [if_pos hlong]
        exact Option.some.inj hreply
      · rename_i hlong
        rw [if_neg hlong]
        exact Option.some.inj hreply
  | ping | version | wipe | resize | setPolicy | getStatus => cases hreply

/-- Some time later the cache stands for what the map has left. -/
theorem Mirrors.pruned (h : c.Mirrors m since) (hnow : since ≤ now) :
    c.Mirrors (m.pruned now) now where
  capacity := h.capacity
  live := fun later hlater key => by
    rw [h.live later (hnow.trans hlater) key, EagerMap.pruned_pruned hlater]

theorem Mirrors.settle (h : c.Mirrors m now) (key : Bytes) : (c.settle now key).Mirrors m now where
  capacity := h.capacity
  live := fun later hlater other =>
    (Store.live?_settle c.store hlater key other).trans (h.live later hlater other)

/-- An entry is filed under a key in both. -/
theorem Mirrors.insert (h : c.Mirrors m now) (key : Bytes) {e : Entry} {l : Lease}
    (he : e = l.entry) :
    ({ c with store := c.store.insert key e } : Cache).Mirrors
      { m with leases := Function.update m.leases key (some l) } now where
  capacity := h.capacity
  live := fun later hlater other => by
    rw [Store.live?_insert, EagerMap.pruned_update]
    split
    · subst he
      cases hover : l.isOver later with
      | false => simp [Option.filter, Lease.isExpired_entry, hover]
      | true => simp [Option.filter, Lease.isExpired_entry, hover]
    · exact h.live later hlater other

/-- A key is taken out of both. -/
theorem Mirrors.erase (h : c.Mirrors m now) (key : Bytes) :
    ({ c with store := c.store.erase key } : Cache).Mirrors
      { m with leases := Function.update m.leases key none } now where
  capacity := h.capacity
  live := fun later hlater other => by
    rw [Store.live?_erase, EagerMap.pruned_update]
    split
    · rfl
    · exact h.live later hlater other

/-- A cache goes on to stand for the map. -/
theorem Mirrors.handle (h : c.Mirrors m since) (hnow : since ≤ now)
    (hclock : (-2 ^ 63 : Int) ≤ now)
    (hfits : ∀ ttl, command.lifetime = some ttl → (now + seconds ttl : Int) < 2 ^ 63) :
    (c.handle now command).1.Mirrors ((m.pruned now).next now command) now := by
  have hsame := h.pruned hnow
  cases command with
  | ping | version | getStatus => exact hsame
  | get key | peek key | has key | valueSize key | getTtl key =>
    exact ⟨h.capacity, (hsame.settle key).live⟩
  | del key => exact ⟨h.capacity, ((hsame.settle key).erase key).live⟩
  | wipe => exact ⟨h.capacity, fun later hlater other => rfl⟩
  | set key value ttl =>
    have haccepts : (m.pruned now).Accepts value ↔ value ≠ [] ∧ value.length ≤ c.capacity := by
      rw [h.capacity]
      rfl
    simp only [Cache.handle, Cache.set, EagerMap.next, List.isEmpty_iff]
    split
    · rename_i hempty
      rw [if_neg fun hstored => (haccepts.1 hstored).1 hempty]
      exact ⟨h.capacity, hsame.live⟩
    · rename_i hempty
      split
      · rename_i hlong
        rw [if_neg fun hstored => Nat.not_le_of_lt hlong (haccepts.1 hstored).2]
        exact ⟨h.capacity, hsame.live⟩
      · rename_i hshort
        rw [if_pos (haccepts.2 ⟨hempty, Nat.le_of_not_lt hshort⟩)]
        exact ⟨h.capacity, (hsame.insert key (entry_of_fits hclock hfits)).live⟩
  | setTtl key ttl =>
    have hlive := h.live now hnow key
    simp only [Cache.handle, EagerMap.next]
    cases hl : (m.pruned now).leases key with
    | none =>
      have hnone : c.store.live? now key = none := by rw [hlive, hl, Option.map_none]
      have habsent : Function.update (m.pruned now).leases key none = (m.pruned now).leases :=
        Function.update_eq_self_iff.2 hl.symm
      rw [hnone, Option.map_none, habsent]
      exact hsame.settle key
    | some l =>
      have hsome : c.store.live? now key = some l.entry := by rw [hlive, hl, Option.map_some]
      rw [hsome, Option.map_some]
      exact hsame.insert key (entry_of_fits hclock hfits)
  | resize capacity =>
    simp only [Cache.handle, EagerMap.next]
    split
    · exact hsame
    · exact ⟨rfl, hsame.live⟩
  | setPolicy p =>
    simp only [Cache.handle]
    split
    · exact ⟨h.capacity, hsame.live⟩
    · exact hsame

/-- A log whose clock does not go back, and whose lifetimes end before the clock does. -/
structure Steady (log : Log) : Prop where
  sorted : log.Pairwise fun event later => event.1 ≤ later.1
  start_le : ∀ event ∈ log, (-2 ^ 63 : Int) ≤ event.1
  end_lt : ∀ event ∈ log, ∀ ttl, event.2.lifetime = some ttl →
    (event.1 + seconds ttl : Int) < 2 ^ 63

theorem Steady.of_concat {log : Log} (h : Steady (log ++ [(now, command)])) :
    Steady log ∧ (∀ event ∈ log, event.1 ≤ now) ∧ (-2 ^ 63 : Int) ≤ now ∧
      ∀ ttl, command.lifetime = some ttl → (now + seconds ttl : Int) < 2 ^ 63 := by
  obtain ⟨hsorted, hstart, hend⟩ := h
  obtain ⟨hlog, -, hnow⟩ := List.pairwise_append.1 hsorted
  have hlast : (now, command) ∈ log ++ [(now, command)] := List.mem_concat_self
  refine ⟨⟨hlog, fun event hmem => hstart event (List.mem_append_left _ hmem),
    fun event hmem => hend event (List.mem_append_left _ hmem)⟩, ?_, hstart _ hlast, hend _ hlast⟩
  exact fun event hmem => hnow event hmem _ List.mem_cons_self

/-- After a log, a cache that began without entries stands for what the map has become. -/
theorem mirrors_after (hstore : c.store = []) {log : Log} (hsteady : Steady log)
    (hnow : ∀ event ∈ log, event.1 ≤ now) :
    (c.after log).Mirrors ((EagerMap.ofCapacity c.capacity).after log) now := by
  induction log using List.reverseRecOn generalizing now with
  | nil => exact mirrors_ofCapacity hstore now
  | append_singleton log event ih =>
    obtain ⟨time, command⟩ := event
    obtain ⟨hlog, hsorted, hclock, hfits⟩ := hsteady.of_concat
    rw [after_concat, EagerMap.after_concat]
    have hmirrors := (ih hlog hsorted).handle le_rfl hclock hfits
    exact ⟨hmirrors.capacity, fun later hlater =>
      hmirrors.live later ((hnow _ List.mem_concat_self).trans hlater)⟩

end Cache

/-! ### The answers of a cache -/

namespace Cache

variable {c : Cache} {now : Instant} {key : Bytes} {lease : Lease}

/-- The answers about a key that is there. -/
structure Tells (c : Cache) (now : Instant) (key : Bytes) (lease : Lease) : Prop where
  get : (c.handle now (.get key)).2 = .ok (.value lease.value)
  peek : (c.handle now (.peek key)).2 = .ok (.value lease.value)
  has : (c.handle now (.has key)).2 = .ok (.flag true)
  /-- The answer has 32 bits for the length, as many as the length of a value has on the wire. -/
  valueSize : ∃ n, (c.handle now (.valueSize key)).2 = .ok (.size n) ∧
    n.toNat = lease.value.length % 2 ^ 32
  del : (c.handle now (.del key)).2 = .ok .ack
  setTtl : ∀ ttl, (c.handle now (.setTtl key ttl)).2 = .ok .ack
  /-- The lifetime is counted in whole seconds: none at all for a value that stays, and otherwise as
  many as it takes to reach the end, never more than were given. -/
  getTtl : ∃ n, (c.handle now (.getTtl key)).2 = .ok (.expiry n) ∧
    (n = 0 ↔ lease.limit = none) ∧
    ∀ limit, lease.limit = some limit →
      1 ≤ n ∧ limit ≤ now + seconds n ∧ now + seconds (n - 1) < limit ∧
      ∃ ttl, lease.ttl = some ttl ∧ n ≤ ttl

/-- The answers about a key that is not there. -/
structure Misses (c : Cache) (now : Instant) (key : Bytes) : Prop where
  get : (c.handle now (.get key)).2 = refuse .keyNotFound
  peek : (c.handle now (.peek key)).2 = refuse .keyNotFound
  has : (c.handle now (.has key)).2 = .ok (.flag false)
  valueSize : (c.handle now (.valueSize key)).2 = refuse .keyNotFound
  getTtl : (c.handle now (.getTtl key)).2 = refuse .keyNotFound
  del : (c.handle now (.del key)).2 = refuse .keyNotFound
  setTtl : ∀ ttl, (c.handle now (.setTtl key ttl)).2 = refuse .keyNotFound

variable {m : EagerMap}

theorem Mirrors.tells (h : c.Mirrors m now) (hlease : (m.pruned now).leases key = some lease)
    (hsince : lease.since ≤ now) : c.Tells now key lease := by
  have hover : lease.isOver now = false := (EagerMap.pruned_leases_eq_some.1 hlease).2
  have hreply {command : Command} {payload : Payload}
      (hpayload : (m.pruned now).reply now command = some (.ok payload)) :
      (c.handle now command).2 = .ok payload := h.reply le_rfl hpayload
  have htell {answer : Lease → Payload} :
      some ((m.pruned now).tell key answer) = some (.ok (answer lease)) := by
    rw [EagerMap.tell, hlease]
  refine ⟨hreply htell, hreply htell, hreply ?_, ⟨_, hreply htell, UInt32.toNat_ofNat'⟩,
    hreply htell, fun ttl => hreply htell, lease.secondsLeft now, hreply htell, ?_, ?_⟩
  · simp only [EagerMap.reply, hlease, Option.isSome_some]
  · cases hlimit : lease.limit with
    | none => simp [Lease.secondsLeft, hlimit]
    | some limit =>
      obtain ⟨hpos, -⟩ := Lease.secondsLeft_spec hlimit hover
      simp only [reduceCtorEq, iff_false]
      exact Int.ne_of_gt hpos
  · intro limit hlimit
    obtain ⟨hpos, hreach, hleast⟩ := Lease.secondsLeft_spec hlimit hover
    obtain ⟨ttl, httl, -, rfl⟩ := Lease.limit_eq_some hlimit
    refine ⟨hpos, hreach, hleast, ttl, httl, ?_⟩
    have hcount {since now n ttl : Int} (hsince : since ≤ now)
        (hleast : now + seconds (n - 1) < since + seconds ttl) : n ≤ ttl := by
      unfold seconds at hleast
      omega
    exact hcount hsince hleast

theorem Mirrors.misses (h : c.Mirrors m now) (hlease : (m.pruned now).leases key = none) :
    c.Misses now key := by
  have hreply {command : Command} {response : Response}
      (hresponse : (m.pruned now).reply now command = some response) :
      (c.handle now command).2 = response := h.reply le_rfl hresponse
  have htell {answer : Lease → Payload} :
      some ((m.pruned now).tell key answer) = some (refuse .keyNotFound) := by
    rw [EagerMap.tell, hlease]
    rfl
  refine ⟨hreply htell, hreply htell, hreply ?_, hreply htell, hreply htell, hreply htell,
    fun ttl => hreply htell⟩
  simp only [EagerMap.reply, hlease, Option.isSome_none]

/-- What is refused leaves every entry as it is, from then on. -/
theorem live?_of_refused {command : Command} {refusal : Refusal}
    (h : (c.handle now command).2 = .refused refusal) {later : Instant} (hlater : now ≤ later)
    (key : Bytes) :
    (c.handle now command).1.store.live? later key = c.store.live? later key := by
  cases command with
  | get | peek | has | valueSize | getTtl => exact Store.live?_settle c.store hlater _ key
  | ping | version | getStatus => rfl
  | wipe => cases h
  | del other =>
    simp only [Cache.handle] at h ⊢
    cases hlive : c.store.live? now other with
    | some e =>
      rw [hlive] at h
      cases h
    | none =>
      rw [Store.live?_erase, Store.live?_settle c.store hlater]
      split
      · rename_i hkey
        subst hkey
        -- Nothing is there now, and with time nothing comes back.
        rw [← Store.live?_settle c.store hlater, Store.live?, Store.lookup_settle, if_pos rfl,
          hlive]
        rfl
      · rfl
  | set other value ttl =>
    simp only [Cache.handle, Cache.set] at h ⊢
    split
    · rfl
    · rename_i hempty
      rw [if_neg hempty] at h
      split
      · rfl
      · rename_i hshort
        rw [if_neg hshort] at h
        cases h
  | setTtl other ttl =>
    simp only [Cache.handle] at h ⊢
    cases hlive : c.store.live? now other with
    | none => exact Store.live?_settle c.store hlater other key
    | some e =>
      rw [hlive] at h
      cases h
  | resize n | setPolicy p =>
    simp only [Cache.handle]
    split <;> rfl

/-- After any log, a cache that began without entries answers as the map that drops each value at
the end of its lifetime. A key is there exactly if the log leaves it a lease that is not over, and
the answers tell that lease; what is refused leaves every entry as it is. -/
theorem answers_as_leased (hstore : c.store = []) {log : Log} (hsteady : Steady log)
    (hnow : ∀ event ∈ log, event.1 ≤ now) :
    (∀ command response,
      (((EagerMap.ofCapacity c.capacity).after log).pruned now).reply now command =
        some response →
      ((c.after log).handle now command).2 = response) ∧
    (∀ key lease,
      (((EagerMap.ofCapacity c.capacity).after log).pruned now).leases key = some lease ↔
        Leased c.capacity key log lease ∧ lease.isOver now = false) ∧
    (∀ key lease, Leased c.capacity key log lease → lease.isOver now = false →
      (c.after log).Tells now key lease) ∧
    (∀ key, (∀ lease, Leased c.capacity key log lease → lease.isOver now = true) →
      (c.after log).Misses now key) ∧
    ∀ command refusal, ((c.after log).handle now command).2 = .refused refusal →
      ∀ later, now ≤ later → ∀ key,
        (c.after (log ++ [(now, command)])).store.live? later key =
          (c.after log).store.live? later key := by
  have hmirrors := mirrors_after hstore hsteady hnow
  have hleases (key : Bytes) := @EagerMap.leases_after now key c.capacity log hsteady.sorted hnow
  refine ⟨fun command response => hmirrors.reply le_rfl, hleases, ?_, ?_, ?_⟩
  · intro key lease hlease hover
    exact hmirrors.tells ((hleases key lease).2 ⟨hlease, hover⟩) (hlease.since_le hnow)
  · intro key hgone
    refine hmirrors.misses (Option.eq_none_iff_forall_ne_some.2 fun lease hheld => ?_)
    obtain ⟨hlease, hover⟩ := (hleases key lease).1 hheld
    rw [hgone lease hlease] at hover
    cases hover
  · intro command refusal hrefused later hlater key
    rw [after_concat]
    exact live?_of_refused hrefused hlater key

/-- A value with a lifetime of one second, which is given two more when half of it is over; then
another value that is refused. -/
def renewal : Log :=
  [(0, .set [1] [2] (some 1)), (milliseconds 500, .setTtl [1] (some 2)),
    (seconds 1, .set [1] [] none)]

/-- Two seconds after the start, the first value is there, and has the rest of a second left. -/
theorem answers_as_leased_renewal :
    ({} : Cache).store = [] ∧ Steady renewal ∧ (∀ event ∈ renewal, event.1 ≤ seconds 2) ∧
      (({} : Cache).after renewal).Tells (seconds 2) [1] ⟨[2], milliseconds 500, some 2⟩ := by
  have hsteady : Steady renewal := by
    refine ⟨by decide, by decide, ?_⟩
    simp [renewal, Command.lifetime, seconds, milliseconds]
  have hnow : ∀ event ∈ renewal, event.1 ≤ seconds 2 := by decide
  have hstored : Leased 1048576 [1] [(0, .set [1] [2] (some 1))] ⟨[2], 0, some 1⟩ :=
    @Leased.stored _ _ [] _ _ _ (by decide) (by decide)
  have hrenewed : Leased 1048576 [1]
      [(0, .set [1] [2] (some 1)), (milliseconds 500, .setTtl [1] (some 2))]
      ⟨[2], milliseconds 500, some 2⟩ :=
    @Leased.renewed _ _ [_] _ _ _ hstored (by decide)
  have hkept : Leased 1048576 [1] renewal ⟨[2], milliseconds 500, some 2⟩ :=
    @Leased.kept _ _ [_, _] _ _ _ hrenewed fun h => h.2.1 rfl
  obtain ⟨-, -, htells, -⟩ := answers_as_leased (c := {}) rfl hsteady hnow
  exact ⟨rfl, hsteady, hnow, htells [1] _ hkept (by decide)⟩

end Cache

end RemoteCache
