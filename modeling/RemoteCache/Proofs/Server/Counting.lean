import Mathlib.Algebra.BigOperators.Group.Finset.Basic
import RemoteCache.Proofs.Server.Lifetimes

/-!
# What the report counts

A cache reports how many objects it holds and how many bytes their values take. It counts what is
filed, and so also the entries that have expired and that nobody has looked for since. The report
is of what is there exactly when no such entry is left.

## Main definitions

* `Cache.Lingers` — a key under which an entry is filed that has expired
* `Store.Orderly` — a store with one entry per key, all of them values that can be sent

## Main results

* `Store.length_eq`, `Store.usedSize_eq` — what is filed is what is there and what lingers
* `Cache.status_counts` — the report against the answers about single keys, after any log
* `Cache.status_counts_lingering` — a report of an object that no key has
-/

namespace RemoteCache

namespace Store

variable {s : Store} {now : Instant} {key : Bytes} {e : Entry}

/-- One entry is filed under a key, and its value is one that can be sent and stored. -/
structure Orderly (s : Store) : Prop where
  nodup : (s.map Prod.fst).Nodup
  values : ∀ filed ∈ s, filed.2.value ≠ [] ∧ filed.2.value.length < 2 ^ 32

/-- The entries that have not expired. -/
def present (s : Store) (now : Instant) : Store := s.filter fun filed => !filed.2.isExpired now

/-- The entries that have expired. -/
def lingering (s : Store) (now : Instant) : Store := s.filter fun filed => filed.2.isExpired now

theorem lookup_eq_some_iff (h : (s.map Prod.fst).Nodup) : s.lookup key = some e ↔ (key, e) ∈ s := by
  induction s with
  | nil => simp [lookup]
  | cons filed s ih =>
    obtain ⟨hfresh, hnodup⟩ := List.nodup_cons.1 h
    rw [lookup_cons, List.mem_cons]
    split
    · rename_i hkey
      subst hkey
      have habsent : (filed.1, e) ∉ s := fun hmem => hfresh (List.mem_map.2 ⟨_, hmem, rfl⟩)
      simp [habsent, Prod.ext_iff, eq_comm]
    · rename_i hkey
      rw [ih hnodup]
      exact ⟨.inr, fun hmem => hmem.resolve_left fun heq => hkey (heq ▸ rfl)⟩

theorem mem_present_iff (h : (s.map Prod.fst).Nodup) :
    (key, e) ∈ s.present now ↔ s.live? now key = some e := by
  rw [present, List.mem_filter, live?, Option.filter_eq_some_iff, lookup_eq_some_iff h]

theorem mem_lingering_iff (h : (s.map Prod.fst).Nodup) :
    (key, e) ∈ s.lingering now ↔ s.lookup key = some e ∧ e.isExpired now = true := by
  rw [lingering, List.mem_filter, lookup_eq_some_iff h]

/-- The bytes of a store are those of any part of it and those of the rest. -/
theorem usedSize_filter_add (s : Store) (p : Bytes × Entry → Bool) :
    usedSize (s.filter p) + usedSize (s.filter fun filed => !p filed) = s.usedSize := by
  induction s with
  | nil => rfl
  | cons filed s ih => cases hp : p filed <;> simp [usedSize, hp] <;> omega

/-- What is filed is what is there and what lingers. -/
theorem length_eq (s : Store) (now : Instant) :
    s.length = (s.present now).length + (s.lingering now).length := by
  rw [Nat.add_comm]
  exact s.length_eq_length_filter_add fun filed => filed.2.isExpired now

theorem usedSize_eq (s : Store) (now : Instant) :
    s.usedSize = (s.present now).usedSize + (s.lingering now).usedSize := by
  rw [Nat.add_comm]
  exact (s.usedSize_filter_add fun filed => filed.2.isExpired now).symm

theorem usedSize_eq_sum (s : Store) :
    s.usedSize = (s.map fun filed => filed.2.value.length).sum := by
  induction s with
  | nil => rfl
  | cons filed s ih => simp [usedSize, ih]

theorem length_le_usedSize (h : ∀ filed ∈ s, filed.2.value ≠ []) : s.length ≤ s.usedSize := by
  induction s with
  | nil => exact Nat.le_refl 0
  | cons filed s ih =>
    obtain ⟨hfirst, hrest⟩ := List.forall_mem_cons.1 h
    have hpos := List.length_pos_iff.2 hfirst
    have := ih hrest
    simp only [List.length_cons, usedSize]
    omega

theorem nodup_filter (h : (s.map Prod.fst).Nodup) (p : Bytes × Entry → Bool) :
    ((s.filter p).map Prod.fst).Nodup :=
  h.sublist (List.filter_sublist.map Prod.fst)

theorem nodup_erase (h : (s.map Prod.fst).Nodup) (key : Bytes) :
    ((s.erase key).map Prod.fst).Nodup := nodup_filter h _

theorem nodup_present (h : (s.map Prod.fst).Nodup) (now : Instant) :
    ((s.present now).map Prod.fst).Nodup := nodup_filter h _

theorem nodup_lingering (h : (s.map Prod.fst).Nodup) (now : Instant) :
    ((s.lingering now).map Prod.fst).Nodup := nodup_filter h _

theorem nodup_settle (h : (s.map Prod.fst).Nodup) (now : Instant) (key : Bytes) :
    ((s.settle now key).map Prod.fst).Nodup := by
  unfold settle
  split
  · split
    · exact nodup_erase h key
    · exact h
  · exact h

theorem nodup_insert (h : (s.map Prod.fst).Nodup) (key : Bytes) (e : Entry) :
    ((s.insert key e).map Prod.fst).Nodup := by
  refine List.nodup_cons.2 ⟨fun hmem => ?_, nodup_erase h key⟩
  obtain ⟨filed, hfiled, hkey⟩ := List.mem_map.1 hmem
  simp [erase, hkey] at hfiled

/-- The keys under which entries of some part of the store are filed, each once. -/
def keys (s : Store) : Finset Bytes := (s.map Prod.fst).toFinset

theorem mem_keys : key ∈ s.keys ↔ ∃ e, (key, e) ∈ s := by
  simp [keys]

theorem card_keys (h : (s.map Prod.fst).Nodup) : s.keys.card = s.length := by
  rw [keys, List.toFinset_card_of_nodup h, List.length_map]

/-- The sizes of values, summed up key by key. -/
theorem sum_keys (h : (s.map Prod.fst).Nodup) {size : Bytes → Nat}
    (hsize : ∀ key e, (key, e) ∈ s → size key = e.value.length) :
    ∑ key ∈ s.keys, size key = s.usedSize := by
  rw [keys, List.sum_toFinset _ h, usedSize_eq_sum, List.map_map]
  exact congrArg List.sum (List.map_congr_left fun filed hmem => hsize filed.1 filed.2 hmem)

/-- A store without one of its entries is smaller. -/
theorem usedSize_erase_lt (hvalues : ∀ filed ∈ s, filed.2.value ≠ []) (hmem : (key, e) ∈ s) :
    (s.erase key).usedSize < s.usedSize := by
  have hparts := s.usedSize_filter_add fun filed => filed.1 != key
  have herased : (key, e) ∈ s.filter fun filed => !(filed.1 != key) := by simpa using hmem
  have hcount : 0 < (s.filter fun filed => !(filed.1 != key)).length :=
    List.length_pos_of_mem herased
  have hbytes := length_le_usedSize (s := s.filter fun filed => !(filed.1 != key))
    fun filed hfiled => hvalues filed (List.mem_of_mem_filter hfiled)
  unfold erase
  omega

theorem length_erase_lt (hmem : (key, e) ∈ s) : (s.erase key).length < s.length :=
  List.length_filter_lt_length_iff_exists.2 ⟨_, hmem, by simp⟩

/-- The sizes of the values that are there, summed up key by key as they are answered. -/
theorem sum_present (h : s.Orderly) (now : Instant) :
    ∑ key ∈ (s.present now).keys,
      (((s.live? now key).elim 0 fun e => e.value.length).toUInt32).toNat =
        (s.present now).usedSize := by
  refine sum_keys (nodup_present h.nodup now) fun key e hmem => ?_
  have hlength := (h.values _ (List.mem_of_mem_filter hmem)).2
  rw [(mem_present_iff h.nodup).1 hmem]
  exact UInt32.toNat_ofNat_of_lt' hlength

/-- Whatever lingers takes up room. -/
theorem usedSize_lingering_eq_zero_iff (h : s.Orderly) (now : Instant) :
    (s.lingering now).usedSize = 0 ↔ (s.lingering now).keys = ∅ := by
  rw [← Finset.card_eq_zero, card_keys (nodup_lingering h.nodup now)]
  have hbytes := length_le_usedSize (s := s.lingering now) fun filed hfiled =>
    (h.values filed (List.mem_of_mem_filter hfiled)).1
  constructor
  · omega
  · intro hempty
    rw [List.length_eq_zero_iff.1 hempty]
    rfl

end Store

namespace Cache

variable {c : Cache} {now : Instant} {key : Bytes} {log : Log}

/-- An entry that has expired is still filed under the key. -/
def Lingers (c : Cache) (now : Instant) (key : Bytes) : Prop :=
  ∃ e, c.store.lookup key = some e ∧ e.isExpired now = true

theorem orderly_handle (h : c.store.Orderly) {command : Command}
    (hvalue : ∀ key value ttl, command = .set key value ttl → value.length < 2 ^ 32) :
    (c.handle now command).1.store.Orderly := by
  refine ⟨?_, forall_store_handle (P := fun e => e.value ≠ [] ∧ e.value.length < 2 ^ 32) h.values ?_
    fun key ttl e _ he => he⟩
  · cases command with
    | ping | version | getStatus => exact h.nodup
    | get key | peek key | has key | getTtl key | valueSize key =>
      exact Store.nodup_settle h.nodup now key
    | del key => exact Store.nodup_erase (Store.nodup_settle h.nodup now key) key
    | wipe => exact List.nodup_nil
    | set key value ttl =>
      simp only [Cache.handle, Cache.set]
      split
      · exact h.nodup
      · split
        · exact h.nodup
        · exact Store.nodup_insert h.nodup key _
    | setTtl key ttl =>
      simp only [Cache.handle]
      split
      · exact Store.nodup_settle h.nodup now key
      · exact Store.nodup_insert h.nodup key _
    | resize | setPolicy =>
      simp only [Cache.handle]
      split <;> exact h.nodup
  · rintro key value ttl rfl hvalue' -
    exact ⟨hvalue', hvalue key value ttl rfl⟩

theorem orderly_after (hstore : c.store = [])
    (hvalues : ∀ time key value ttl, (time, .set key value ttl) ∈ log → value.length < 2 ^ 32) :
    (c.after log).store.Orderly := by
  refine holds_after (P := fun c => c.store.Orderly) (fun time command hmem c h => ?_) ?_
  · refine orderly_handle h ?_
    rintro key value ttl rfl
    exact hvalues time key value ttl hmem
  · rw [hstore]
    exact ⟨List.nodup_nil, List.forall_mem_nil _⟩

/-- The answer about a key tells whether it is there. -/
theorem handle_has_eq_true_iff :
    (c.handle now (.has key)).2 = .ok (.flag true) ↔ (c.store.live? now key).isSome = true := by
  simp [Cache.handle]

/-- Looking for a key that does not linger leaves the store as it is, and looking for one that does
takes its entry out. -/
theorem settle_eq : (¬ c.Lingers now key → c.store.settle now key = c.store) ∧
    (c.Lingers now key → c.store.settle now key = c.store.erase key) := by
  unfold Lingers Store.settle
  constructor
  · intro h
    cases hlookup : c.store.lookup key with
    | none => rfl
    | some e => exact if_neg fun he => h ⟨e, hlookup, he⟩
  · rintro ⟨e, hlookup, he⟩
    rw [hlookup]
    exact if_pos he

/-- The keys that are there, the sizes of their values, and the keys that linger. -/
theorem status_eq_of_orderly (h : c.store.Orderly) (now : Instant)
    (hroom : c.store.usedSize < 2 ^ 64) :
    (c.status now).numObjects.toNat =
        (c.store.present now).keys.card + (c.store.lingering now).keys.card ∧
      (c.status now).usedSize.toNat =
        (c.store.present now).usedSize + (c.store.lingering now).usedSize := by
  have hlength := Store.length_le_usedSize fun filed hfiled => (h.values filed hfiled).1
  have hword {n : Nat} (hn : n < 2 ^ 64) : n.toUInt64.toNat = n :=
    UInt64.toNat_ofNat_of_lt' hn
  constructor
  · refine (hword (hlength.trans_lt hroom)).trans ?_
    rw [Store.card_keys (Store.nodup_present h.nodup now),
      Store.card_keys (Store.nodup_lingering h.nodup now)]
    exact c.store.length_eq now
  · exact (hword hroom).trans (c.store.usedSize_eq now)

/-- Looking for a key changes what is reported exactly if the key lingers. -/
theorem status_settle (h : c.store.Orderly) (hroom : c.store.usedSize < 2 ^ 64) :
    (((c.settle now key).status now).numObjects = (c.status now).numObjects ↔
        ¬ c.Lingers now key) ∧
      (((c.settle now key).status now).usedSize = (c.status now).usedSize ↔
        ¬ c.Lingers now key) := by
  have hvalues : ∀ filed ∈ c.store, filed.2.value ≠ [] :=
    fun filed hfiled => (h.values filed hfiled).1
  have hlength := Store.length_le_usedSize hvalues
  -- Numbers that fit 64 bits are reported as they are.
  have hword {m n : Nat} (hm : m < n) (hn : n < 2 ^ 64) : m.toUInt64 ≠ n.toUInt64 := fun heq => by
    have := congrArg UInt64.toNat heq
    rw [UInt64.toNat_ofNat_of_lt' (hm.trans hn), UInt64.toNat_ofNat_of_lt' hn] at this
    exact hm.ne this
  obtain ⟨hkept, herased⟩ := @settle_eq c now key
  by_cases hlingers : c.Lingers now key
  · have hstore := herased hlingers
    have hstays := not_not_intro hlingers
    obtain ⟨e, hlookup, -⟩ := hlingers
    have hmem := (Store.lookup_eq_some_iff h.nodup).1 hlookup
    simp only [status, settle, hstore]
    exact ⟨iff_of_false (hword (Store.length_erase_lt hmem) (hlength.trans_lt hroom)) hstays,
      iff_of_false (hword (Store.usedSize_erase_lt hvalues hmem) hroom) hstays⟩
  · simp only [status, settle, hkept hlingers]
    exact ⟨iff_of_true trivial hlingers, iff_of_true trivial hlingers⟩

/-- After any log, a cache that began without entries reports the objects that are there and those
that linger. Its report is of what is there alone exactly if no key lingers, and looking for a key
changes the report exactly if that key does. -/
theorem status_counts (hstore : c.store = [])
    (hvalues : ∀ time key value ttl, (time, .set key value ttl) ∈ log → value.length < 2 ^ 32)
    (now : Instant) (hroom : (c.after log).store.usedSize < 2 ^ 64) :
    ∃ (present lingering : Finset Bytes) (size : Bytes → UInt32) (report : Status),
      (∀ key, key ∈ present ↔ ((c.after log).handle now (.has key)).2 = .ok (.flag true)) ∧
      (∀ key ∈ present, ((c.after log).handle now (.valueSize key)).2 = .ok (.size (size key))) ∧
      (∀ key, key ∈ lingering ↔ (c.after log).Lingers now key) ∧
      ((c.after log).handle now .getStatus).2 = .ok (.status report) ∧
      report.numObjects.toNat = present.card + lingering.card ∧
      ∑ key ∈ present, (size key).toNat ≤ report.usedSize.toNat ∧
      (report.usedSize.toNat = ∑ key ∈ present, (size key).toNat ↔ lingering = ∅) ∧
      ∀ key, ∀ look ∈ [Command.has key, .get key, .peek key], ∃ next : Status,
        (((c.after log).handle now look).1.handle now .getStatus).2 = .ok (.status next) ∧
        (next.numObjects = report.numObjects ↔ key ∉ lingering) ∧
        (next.usedSize = report.usedSize ↔ key ∉ lingering) := by
  have horderly := orderly_after hstore hvalues
  generalize c.after log = c at horderly hroom
  obtain ⟨hcount, hused⟩ := status_eq_of_orderly horderly now hroom
  have hnodup := horderly.nodup
  have hlingers (key : Bytes) : key ∈ (c.store.lingering now).keys ↔ c.Lingers now key := by
    simp only [Store.mem_keys, Store.mem_lingering_iff hnodup]
    rfl
  refine ⟨(c.store.present now).keys, (c.store.lingering now).keys,
    fun key => ((c.store.live? now key).elim 0 fun e => e.value.length).toUInt32, c.status now,
    ?_, ?_, hlingers, rfl, hcount, ?_⟩
  · intro key
    rw [handle_has_eq_true_iff, Option.isSome_iff_exists, Store.mem_keys]
    exact exists_congr fun e => Store.mem_present_iff hnodup
  · intro key hkey
    obtain ⟨e, he⟩ := Store.mem_keys.1 hkey
    simp only [Cache.handle, (Store.mem_present_iff hnodup).1 he]
    rfl
  · rw [Store.sum_present horderly now, hused]
    refine ⟨Nat.le_add_right _ _,
      Nat.add_eq_left.trans (Store.usedSize_lingering_eq_zero_iff horderly now),
      fun key look hlook => ?_⟩
    obtain ⟨hobjects, hbytes⟩ := @status_settle c now key horderly hroom
    rw [hlingers key]
    -- A lookup that is counted leaves the same store as one that is not.
    rcases List.mem_cons.1 hlook with rfl | hlook
    · exact ⟨_, rfl, hobjects, hbytes⟩
    rcases List.mem_cons.1 hlook with rfl | hlook
    · exact ⟨_, rfl, hobjects, hbytes⟩
    rcases List.mem_singleton.1 hlook with rfl
    exact ⟨_, rfl, hobjects, hbytes⟩

/-- A value that is stored for one second. -/
def shortLived : Log := [(0, .set [1] [2] (some 1))]

/-- Two seconds later it still counts. -/
theorem status_counts_shortLived :
    ({} : Cache).store = [] ∧
      (∀ time key value ttl, (time, .set key value ttl) ∈ shortLived → value.length < 2 ^ 32) ∧
      (({} : Cache).after shortLived).store.usedSize < 2 ^ 64 ∧
      ∃ (present lingering : Finset Bytes) (report : Status),
        (∀ key, key ∈ present ↔
          ((({} : Cache).after shortLived).handle (seconds 2) (.has key)).2 = .ok (.flag true)) ∧
        [1] ∈ lingering ∧
        ((({} : Cache).after shortLived).handle (seconds 2) .getStatus).2 = .ok (.status report) ∧
        report.numObjects.toNat = present.card + lingering.card := by
  have hvalues : ∀ time key value ttl,
      (time, Command.set key value ttl) ∈ shortLived → value.length < 2 ^ 32 := by
    intro time key value ttl hmem
    cases List.mem_singleton.1 hmem
    decide
  have hroom : (({} : Cache).after shortLived).store.usedSize < 2 ^ 64 := by decide
  obtain ⟨present, lingering, -, report, hpresent, -, hlingering, hreport, hcount, -⟩ :=
    status_counts (c := {}) rfl hvalues (seconds 2) hroom
  have hlingers : (({} : Cache).after shortLived).Lingers (seconds 2) [1] :=
    ⟨⟨[2], some (seconds 1)⟩, by decide, by decide⟩
  exact ⟨rfl, hvalues, hroom, present, lingering, report, hpresent, (hlingering _).2 hlingers,
    hreport, hcount⟩

/-- Two seconds after a value was stored for one, no key is there, and yet one object of one byte is
reported, until its key is looked for. -/
theorem status_counts_lingering :
    (∀ key, ((({} : Cache).after shortLived).handle (seconds 2) (.has key)).2 =
      .ok (.flag false)) ∧
    (∃ report, ((({} : Cache).after shortLived).handle (seconds 2) .getStatus).2 =
      .ok (.status report) ∧ report.numObjects = 1 ∧ report.usedSize = 1) ∧
    ∃ report, ((({} : Cache).after (shortLived ++ [(seconds 2, .has [1])])).handle
      (seconds 2) .getStatus).2 = .ok (.status report) ∧ report.numObjects = 0 ∧
      report.usedSize = 0 := by
  refine ⟨fun key => ?_, ⟨_, rfl, by decide, by decide⟩, ⟨_, rfl, by decide, by decide⟩⟩
  have hgone : (({} : Cache).after shortLived).store.live? (seconds 2) key = none := by
    have hstore : (({} : Cache).after shortLived).store = [([1], ⟨[2], some (seconds 1)⟩)] := by
      decide
    rw [hstore, Store.live?, Store.lookup_cons]
    split
    · decide
    · rfl
  simp [Cache.handle, hgone]

end Cache

end RemoteCache
