import RemoteCache.Bytes
import RemoteCache.Deadline

/-!
# Stored entries

A store holds one entry per key. An entry may expire; one that has expired is not found, and is
taken out when it is looked for.

## Main definitions

* `Entry` — a value and when it expires
* `Store` — entries by key
* `Store.live?` — the entry of a key, unless it has expired
* `Store.settle` — the store once a key has been looked for
* `Store.insert`, `Store.erase`, `Store.usedSize`

## Main results

* `Store.lookup_insert`, `Store.lookup_erase`, `Store.lookup_settle` — what is filed under a key
  after an operation
* `Store.live?_insert`, `Store.live?_erase`, `Store.live?_settle` — and what is found under it
-/

namespace RemoteCache

/-- A value and when it expires. -/
structure Entry where
  value : Bytes
  /-- The instant from which on the value is gone, if there is one. -/
  expiry : Option Instant
deriving DecidableEq, Inhabited

/-- Whether the value is gone. -/
def Entry.isExpired (e : Entry) (now : Instant) : Bool :=
  match e.expiry with
  | none => false
  | some limit => limit ≤ now

/-- What has expired does not come back. -/
theorem Entry.isExpired_mono {e : Entry} {now later : Instant} (h : now ≤ later)
    (he : e.isExpired now = true) : e.isExpired later = true := by
  unfold Entry.isExpired at *
  cases hexpiry : e.expiry with
  | none => simp [hexpiry] at he
  | some limit =>
    simp only [hexpiry, decide_eq_true_eq] at he ⊢
    exact Int.le_trans he h

/-- Entries by key. -/
abbrev Store := List (Bytes × Entry)

namespace Store

/-- The entry filed under a key, expired or not. -/
def lookup (s : Store) (key : Bytes) : Option Entry :=
  (s.find? fun filed => filed.1 == key).map Prod.snd

/-- The store without the entries of a key. -/
def erase (s : Store) (key : Bytes) : Store := s.filter fun filed => filed.1 != key

/-- The store with an entry under a key, in place of any other under it. -/
def insert (s : Store) (key : Bytes) (e : Entry) : Store := (key, e) :: erase s key

/-- The entry of a key, unless it has expired. -/
def live? (s : Store) (now : Instant) (key : Bytes) : Option Entry :=
  (lookup s key).filter fun e => !e.isExpired now

/-- The store once a key has been looked for: without its entry, if that has expired. -/
def settle (s : Store) (now : Instant) (key : Bytes) : Store :=
  match lookup s key with
  | some e => if e.isExpired now then erase s key else s
  | none => s

/-- The bytes taken by values, expired ones included. -/
def usedSize : Store → Nat
  | [] => 0
  | filed :: s => filed.2.value.length + usedSize s

theorem lookup_cons (filed : Bytes × Entry) (s : Store) (key : Bytes) :
    lookup (filed :: s) key = if filed.1 = key then some filed.2 else lookup s key := by
  by_cases h : filed.1 = key
  · simp [lookup, h]
  · simp [lookup, h]

theorem lookup_erase (s : Store) (key other : Bytes) :
    lookup (erase s key) other = if other = key then none else lookup s other := by
  induction s with
  | nil => simp [lookup, erase]
  | cons filed s ih =>
    by_cases h : filed.1 = key
    · have : erase (filed :: s) key = erase s key := by simp [erase, h]
      rw [this, ih, lookup_cons]
      split
      · rfl
      · rename_i hne
        rw [if_neg (h ▸ Ne.symm hne)]
    · have : erase (filed :: s) key = filed :: erase s key := by simp [erase, h]
      rw [this, lookup_cons, lookup_cons, ih]
      by_cases hother : filed.1 = other
      · rw [if_pos hother, if_pos hother, if_neg (hother ▸ h)]
      · rw [if_neg hother, if_neg hother]

theorem lookup_insert (s : Store) (key other : Bytes) (e : Entry) :
    lookup (insert s key e) other = if other = key then some e else lookup s other := by
  rw [insert, lookup_cons, lookup_erase]
  by_cases h : other = key
  · simp [h]
  · simp [h, Ne.symm h]

theorem lookup_settle (s : Store) (now : Instant) (key other : Bytes) :
    lookup (settle s now key) other = if other = key then live? s now key else lookup s other := by
  unfold settle live?
  by_cases h : other = key
  · subst h
    rw [if_pos rfl]
    cases hl : lookup s other with
    | none => simp [hl]
    | some e =>
      by_cases he : e.isExpired now = true
      · simp [he, lookup_erase, Option.filter]
      · simp [he, hl, Option.filter]
  · rw [if_neg h]
    cases hl : lookup s key with
    | none => rfl
    | some e =>
      by_cases he : e.isExpired now = true
      · simp [he, lookup_erase, h]
      · simp [he]

theorem live?_insert (s : Store) (now : Instant) (key other : Bytes) (e : Entry) :
    (s.insert key e).live? now other =
      if other = key then (some e).filter fun e => !e.isExpired now else s.live? now other := by
  unfold live?
  rw [lookup_insert]
  split <;> rfl

theorem live?_erase (s : Store) (now : Instant) (key other : Bytes) :
    (s.erase key).live? now other = if other = key then none else s.live? now other := by
  unfold live?
  rw [lookup_erase]
  split <;> rfl

/-- Nobody sees that an entry which has expired was taken out. -/
theorem live?_settle (s : Store) {now later : Instant} (h : now ≤ later)
    (key other : Bytes) :
    (s.settle now key).live? later other = s.live? later other := by
  unfold live?
  rw [lookup_settle]
  split
  · rename_i hkey
    subst hkey
    unfold live?
    cases lookup s other with
    | none => rfl
    | some e =>
      cases he : e.isExpired now with
      | false => simp [Option.filter, he]
      | true => simp [Option.filter, he, Entry.isExpired_mono h he]
  · rfl

end Store

end RemoteCache
