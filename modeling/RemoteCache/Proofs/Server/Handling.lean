import RemoteCache.Proofs.Wire.ReplyRoundTrip
import RemoteCache.Server.Cache

/-!
# What a cache makes of a command on the wire

A command comes over the wire without what its frame has no field for: the parameters that a policy
ignores, and a lifetime of zero seconds. A cache makes the same of it all the same. The response has
the shape of its command, and as long as the cache holds nothing that is longer than its field, it
is read back.

## Main definitions

* `Command.Intelligible` — a command that is read back from its frame
* `Command.received` — what it is read back as
* `Command.Unreadable` — a command that can be sent and is not read back
* `Cache.Agrees` — two caches that are the same up to their policies, which agree
* `Cache.Presentable` — a cache all of whose responses are read back

## Main results

* `Cache.Agrees.handle` — caches that agree make the same of a command and of what is received
* `Cache.Presentable.handle`, `Cache.Presentable.readable` — a presentable cache stays so, and its
  responses are read back
-/

namespace RemoteCache

open Wire

/-! ### Commands -/

namespace Command

/-- A command that can be sent and is read back from its frame: a policy that it chooses names
itself, and a capacity is a signed 64-bit number. -/
structure Intelligible (c : Command) : Prop where
  valid : c.Valid
  namesItself : ∀ p, c = .setPolicy p → p.NamesItself
  capacity_lt : ∀ capacity, c = .resize capacity → capacity < 2 ^ 63

/-- What a command is read back as. -/
def received : Command → Command
  | .setPolicy p => .setPolicy p.essence
  | c => c.withoutZeroTtl

variable {c : Command}

theorem Intelligible.reads (h : c.Intelligible) :
    Reader.Reads Request.read (Request.encode c) c.received := by
  by_cases hpolicy : ∃ p, c = .setPolicy p
  · obtain ⟨p, rfl⟩ := hpolicy
    exact Request.reads_encode_setPolicy (Policy.read?_text (h.namesItself p rfl))
  · have hplain : c.Plain := ⟨h.valid, fun p hp => hpolicy ⟨p, hp⟩, h.capacity_lt⟩
    have hreceived : c.received = c.withoutZeroTtl := by
      cases c with
      | setPolicy p => exact absurd ⟨p, rfl⟩ hpolicy
      | _ => rfl
    rw [hreceived]
    exact Request.reads_encode hplain

/-- A command that can be sent but is no frame: it chooses a policy whose first parameter is the
negative zero. -/
def Unreadable (c : Command) : Prop :=
  ∃ p, c = .setPolicy p ∧ p.kind = .twoQ ∧ p.kIn = .negativeZero

theorem Unreadable.malformed (h : c.Unreadable) :
    ∃ fault, Request.read (.start (Request.encode c)) = .malformed fault := by
  obtain ⟨p, rfl, hkind, hkIn⟩ := h
  have hfault := Request.read_encode_setPolicy_of_eq_none
    (Policy.read?_text_of_signBit hkind (hkIn ▸ rfl)) []
  rw [List.append_nil] at hfault
  exact ⟨_, hfault⟩

/-- All other commands that can be sent are read back. -/
theorem intelligible_of_not_unreadable (hvalid : c.Valid)
    (hcapacity : ∀ capacity, c = .resize capacity → capacity < 2 ^ 63) (h : ¬ c.Unreadable) :
    c.Intelligible where
  valid := hvalid
  namesItself := by
    rintro p rfl
    exact Request.namesItself_of_checkPolicy hvalid fun hzero => h ⟨p, rfl, hzero⟩
  capacity_lt := hcapacity

theorem received_eq_del {key : Bytes} (h : c.received = .del key) : c = .del key := by
  cases c with
  | del _ => exact h
  | _ => cases h

theorem received_eq_setTtl {key : Bytes} {ttl : Option Int} (h : c.received = .setTtl key ttl) :
    ∃ given, c = .setTtl key given := by
  cases c with
  | setTtl _ given =>
    cases h
    exact ⟨given, rfl⟩
  | _ => cases h

theorem received_shape (c : Command) : c.received.shape = c.shape := by
  cases c <;> rfl

end Command

/-! ### Policies -/

namespace Policy

variable {p q : Policy}

theorem essence_essence (p : Policy) : p.essence.essence = p.essence := by
  obtain ⟨kind, kIn, kOut, ratio⟩ := p
  cases kind <;> rfl

/-- Only what a kind does not ignore is compared. -/
theorem agrees_congr {p' q' : Policy} (hp : p.essence = p'.essence) (hq : q.essence = q'.essence) :
    p.agrees q = p'.agrees q' := by
  have hself (p q : Policy) : p.agrees q = p.essence.agrees q.essence := by
    obtain ⟨kind, kIn, kOut, ratio⟩ := p
    obtain ⟨kind', kIn', kOut', ratio'⟩ := q
    cases kind <;> cases kind' <;> rfl
  rw [hself p q, hself p' q', hp, hq]

theorem namesItself_essence : p.essence.NamesItself ↔ p.NamesItself := by
  obtain ⟨kind, kIn, kOut, ratio⟩ := p
  cases kind <;> exact Iff.rfl

end Policy

/-- Two responses are the same but for policies, which agree one by one. -/
def Response.Agrees : Response → Response → Prop
  | .ok payload, .ok back => payload.Agrees back
  | r, back => r = back

/-! ### Caches -/

/-- An entry that can be told of: the length of its value fits its field, and so does the lifetime
that is left to it. -/
structure Entry.Presentable (e : Entry) (now : Instant) : Prop where
  length_lt : e.value.length < 2 ^ 32
  expiry_le : ∀ limit, e.expiry = some limit → limit ≤ now + seconds (2 ^ 32 - 1)

namespace Cache

/-- Two caches that are the same up to their policies, which differ in parameters that are ignored
at most. -/
structure Agrees (c c' : Cache) : Prop where
  policy : c.policy.essence = c'.policy.essence
  rest : { c with policy := c'.policy } = c'

variable {c c' : Cache} {now : Instant}

theorem Agrees.refl (c : Cache) : c.Agrees c := ⟨rfl, rfl⟩

theorem expiryAfter_nonzeroTtl (now : Instant) (ttl : Option Int) :
    expiryAfter now (Command.nonzeroTtl ttl) = expiryAfter now ttl := by
  unfold Command.nonzeroTtl
  split
  · rename_i hzero
    rw [hzero]
    rfl
  · rfl

/-- A lifetime of zero seconds is none to a cache. -/
theorem handle_withoutZeroTtl (c : Cache) (now : Instant) (command : Command) :
    c.handle now command.withoutZeroTtl = c.handle now command := by
  cases command with
  | set key value ttl =>
    simp only [Command.withoutZeroTtl, handle, Cache.set, expiryAfter_nonzeroTtl]
  | setTtl key ttl => simp only [Command.withoutZeroTtl, handle, expiryAfter_nonzeroTtl]
  | _ => rfl

/-- Only the choice of a policy and the report depend on the policy of a cache. -/
theorem handle_policy (c : Cache) (now : Instant) {p : Policy} (hp : c.policy.essence = p.essence)
    {command : Command} (hcommand : ∀ q, command ≠ .setPolicy q) :
    ({ c with policy := p }.handle now command).1 = { (c.handle now command).1 with policy := p } ∧
      (c.handle now command).1.policy = c.policy ∧
      ({ c with policy := p }.handle now command).2.essence =
        (c.handle now command).2.essence := by
  cases command with
  | setPolicy q => exact absurd rfl (hcommand q)
  | getStatus =>
    refine ⟨rfl, rfl, ?_⟩
    simp only [handle, Response.essence, Payload.essence, Status.essence, status, hp]
    rfl
  | set key value ttl =>
    simp only [handle, Cache.set]
    split
    · exact ⟨rfl, rfl, rfl⟩
    · split <;> exact ⟨rfl, rfl, rfl⟩
  | setTtl key ttl =>
    simp only [handle]
    split <;> exact ⟨rfl, rfl, rfl⟩
  | resize capacity =>
    simp only [handle]
    split <;> exact ⟨rfl, rfl, rfl⟩
  | _ => exact ⟨rfl, rfl, rfl⟩

/-- Caches that agree make the same of a command and of what is received of it. -/
theorem Agrees.handle (h : c.Agrees c') (now : Instant) (command : Command) :
    (c.handle now command).1.Agrees (c'.handle now command.received).1 ∧
      (c'.handle now command.received).2.essence = (c.handle now command).2.essence := by
  obtain ⟨hpolicy, hrest⟩ := h
  generalize c'.policy = p at hpolicy hrest
  subst hrest
  by_cases hcommand : ∃ q, command = .setPolicy q
  · obtain ⟨q, rfl⟩ := hcommand
    -- The same policies are known to both, and the essence of a policy agrees with the same ones.
    have hknown : (c.policies.any fun known => known.agrees q.essence) =
        c.policies.any fun known => known.agrees q :=
      congrArg c.policies.any (funext fun known => Policy.agrees_congr rfl q.essence_essence)
    simp only [Command.received, Cache.handle, hknown]
    split
    · exact ⟨⟨q.essence_essence.symm, rfl⟩, rfl⟩
    · exact ⟨⟨hpolicy, rfl⟩, rfl⟩
  · have hplain : command.received = command.withoutZeroTtl := by
      cases command with
      | setPolicy q => exact absurd ⟨q, rfl⟩ hcommand
      | _ => rfl
    obtain ⟨hcache, hkept, hresponse⟩ :=
      c.handle_policy now hpolicy fun q hq => hcommand ⟨q, hq⟩
    rw [hplain, handle_withoutZeroTtl, hcache]
    exact ⟨⟨hkept ▸ hpolicy, rfl⟩, hresponse⟩

/-- A response has the shape of its command. -/
theorem hasShape_handle (c : Cache) (now : Instant) (command : Command) :
    (c.handle now command).2.HasShape command.shape := by
  have hfound {shape : Shape} {entry : Option Entry} {answer : Entry → Response}
      (h : ∀ e, (answer e).HasShape shape) : (found entry answer).HasShape shape := by
    cases entry with
    | none => trivial
    | some e => exact h e
  cases command with
  | get | peek | del | getTtl | valueSize => exact hfound fun e => rfl
  | set key value ttl =>
    simp only [handle, Cache.set]
    split
    · trivial
    · split <;> trivial
  | setTtl key ttl =>
    simp only [handle]
    split <;> trivial
  | resize capacity =>
    simp only [handle]
    split <;> trivial
  | setPolicy q =>
    simp only [handle]
    split <;> trivial
  | _ => rfl

/-! ### The same command again -/

/-- A key that is there is deleted. -/
theorem handle_del_eq_ack_iff {c : Cache} {now : Instant} {key : Bytes} :
    (c.handle now (.del key)).2 = .ok .ack ↔ (c.store.live? now key).isSome = true := by
  simp only [Cache.handle]
  cases c.store.live? now key with
  | none => exact ⟨nofun, nofun⟩
  | some e => exact ⟨fun _ => rfl, fun _ => rfl⟩

/-- A key that was deleted is not there. -/
theorem handle_del_again (c : Cache) (now : Instant) (key : Bytes) :
    ((c.handle now (.del key)).1.handle now (.del key)).2 = refuse .keyNotFound := by
  simp only [Cache.handle, Store.live?_erase, ↓reduceIte]
  rfl

/-- The same command a second time, with nothing between, is answered in the same way. Only a key
that is deleted, or whose new lifetime is over at once, is not there any more. -/
theorem handle_again (c : Cache) (now : Instant) (command : Command) :
    ((c.handle now command).1.handle now command).2 = (c.handle now command).2 ∨
      (c.handle now command).2 = .ok .ack ∧
      ((c.handle now command).1.handle now command).2 = refuse .keyNotFound ∧
      ((∃ key, command = .del key) ∨ ∃ key ttl, command = .setTtl key ttl) := by
  cases command with
  | ping | version | getStatus | wipe => exact .inl rfl
  | get key | peek key | has key | getTtl key | valueSize key =>
    left
    simp only [Cache.handle, Cache.settle, Store.live?_settle _ (Int.le_refl now)]
  | del key =>
    simp only [Cache.handle, Store.live?_erase, ↓reduceIte]
    cases c.store.live? now key with
    | none => exact .inl rfl
    | some e => exact .inr ⟨rfl, rfl, .inl ⟨key, rfl⟩⟩
  | set key value ttl =>
    left
    simp only [Cache.handle, Cache.set]
    split
    · rfl
    · split <;> rfl
  | setTtl key ttl =>
    simp only [Cache.handle]
    cases hlive : c.store.live? now key with
    | none =>
      left
      simp only [Cache.settle, Store.live?_settle _ (Int.le_refl now), hlive]
    | some e =>
      dsimp only
      split
      · exact .inr ⟨rfl, rfl, .inr ⟨key, ttl, rfl⟩⟩
      · exact .inl rfl
  | resize capacity =>
    left
    simp only [Cache.handle]
    split <;> rfl
  | setPolicy p =>
    left
    simp only [Cache.handle]
    split <;> simp_all

/-! ### Responses that are read back -/

/-- A cache that can be told of: its entries can, its policies name themselves, and the lengths fit
their fields. -/
structure Presentable (c : Cache) (now : Instant) : Prop where
  version_lt : c.version.length < 2 ^ 32
  policies_lt : c.policies.length < 2 ^ 32
  policies : ∀ p ∈ c.policies, p.NamesItself
  policy : c.policy.NamesItself
  entries : ∀ filed ∈ c.store, filed.2.Presentable now

/-- A cache that nothing was done to yet can be told of if its policies name themselves. -/
theorem presentable_withPolicies {policies : List Policy} (hcount : policies.length < 2 ^ 32)
    (hnames : ∀ p ∈ policies, p.NamesItself) (now : Instant) :
    (({ } : Cache).withPolicies policies).Presentable now where
  version_lt := show (Bytes.ascii "0.1.0-fake").length < 2 ^ 32 by decide
  policies_lt := hcount
  policies := hnames
  policy := by
    cases policies with
    | nil => trivial
    | cons p more => exact hnames p List.mem_cons_self
  entries := List.forall_mem_nil _

theorem Presentable.mono (h : c.Presentable now) {later : Instant} (hlater : now ≤ later) :
    c.Presentable later :=
  { h with
    entries := fun filed hfiled =>
      { length_lt := (h.entries filed hfiled).length_lt
        expiry_le := fun limit hlimit =>
          ((h.entries filed hfiled).expiry_le limit hlimit).trans
            (Int.add_le_add_right hlater _) } }

/-- A cache that agrees with one that can be told of can be told of, too. -/
theorem Agrees.presentable (hagrees : c.Agrees c') (h : c.Presentable now) :
    c'.Presentable now := by
  obtain ⟨hpolicy, hrest⟩ := hagrees
  generalize c'.policy = p at hpolicy hrest
  subst hrest
  have hnames : p.NamesItself := by
    rw [← Policy.namesItself_essence, ← hpolicy, Policy.namesItself_essence]
    exact h.policy
  exact ⟨h.version_lt, h.policies_lt, h.policies, hnames, h.entries⟩

section Entries

variable {s : Store} {key : Bytes} {e : Entry} {P : Entry → Prop}

theorem forall_erase (h : ∀ filed ∈ s, P filed.2) : ∀ filed ∈ s.erase key, P filed.2 :=
  fun filed hfiled => h filed (List.mem_of_mem_filter hfiled)

theorem forall_settle (h : ∀ filed ∈ s, P filed.2) : ∀ filed ∈ s.settle now key, P filed.2 := by
  unfold Store.settle
  split
  · split
    · exact forall_erase h
    · exact h
  · exact h

theorem forall_insert (h : ∀ filed ∈ s, P filed.2) (he : P e) :
    ∀ filed ∈ s.insert key e, P filed.2 :=
  List.forall_mem_cons.2 ⟨he, forall_erase h⟩

theorem of_live? (h : ∀ filed ∈ s, P filed.2) (hlive : s.live? now key = some e) : P e := by
  obtain ⟨hlookup, -⟩ := Option.filter_eq_some_iff.1 hlive
  obtain ⟨filed, hfind, rfl⟩ := Option.map_eq_some_iff.1 hlookup
  exact h filed (List.mem_of_find?_eq_some hfind)

/-- What holds of all entries holds of them after a command, too, if it holds of a value that is
stored and of an entry with a new lifetime. -/
theorem forall_store_handle {command : Command} (h : ∀ filed ∈ c.store, P filed.2)
    (hset : ∀ key value ttl, command = .set key value ttl → value ≠ [] →
      value.length ≤ c.capacity → P ⟨value, expiryAfter now ttl⟩)
    (hrenew : ∀ key ttl e, command = .setTtl key ttl → P e →
      P { e with expiry := expiryAfter now ttl }) :
    ∀ filed ∈ (c.handle now command).1.store, P filed.2 := by
  cases command with
  | ping | version | getStatus => exact h
  | get key | peek key | has key | getTtl key | valueSize key => exact forall_settle h
  | del key => exact forall_erase (forall_settle h)
  | wipe => exact List.forall_mem_nil _
  | set key value ttl =>
    simp only [Cache.handle, Cache.set]
    split
    · exact h
    · rename_i hvalue
      split
      · exact h
      · rename_i hlong
        exact forall_insert h (hset key value ttl rfl
          (by simpa using hvalue) (Nat.le_of_not_lt hlong))
  | setTtl key ttl =>
    simp only [Cache.handle]
    split
    · exact forall_settle h
    · rename_i e hlive
      exact forall_insert h (hrenew key ttl e rfl (of_live? h hlive))
  | resize capacity | setPolicy p =>
    simp only [Cache.handle]
    split <;> exact h

end Entries

/-- No command changes what a cache is configured with, and only the choice of a policy changes
its policy. -/
theorem handle_configuration (c : Cache) (now : Instant) (command : Command) :
    (c.handle now command).1.version = c.version ∧
      (c.handle now command).1.policies = c.policies ∧
      ((c.handle now command).1.policy = c.policy ∨
        command = .setPolicy (c.handle now command).1.policy) := by
  cases command with
  | set key value ttl =>
    simp only [Cache.handle, Cache.set]
    split
    · exact ⟨rfl, rfl, .inl rfl⟩
    · split <;> exact ⟨rfl, rfl, .inl rfl⟩
  | setTtl | resize =>
    simp only [Cache.handle]
    split <;> exact ⟨rfl, rfl, .inl rfl⟩
  | setPolicy p =>
    simp only [Cache.handle]
    split
    · exact ⟨rfl, rfl, .inr rfl⟩
    · exact ⟨rfl, rfl, .inl rfl⟩
  | _ => exact ⟨rfl, rfl, .inl rfl⟩

/-- From the earliest instant on, the clock wraps around downwards only. -/
theorem wrapInstant_le {n : Int} (h : -2 ^ 63 ≤ n) : wrapInstant n ≤ n := by
  have hwrap : n.bmod (2 ^ 64) ≤ n := by
    rw [Int.bmod_def]
    split <;> omega
  exact hwrap

theorem expiryAfter_le {ttl : Option Int} (httl : Command.checkTtl ttl = .ok ())
    (hnow : (-2 ^ 63 : Int) ≤ now) {limit : Instant} (h : expiryAfter now ttl = some limit) :
    limit ≤ now + seconds (2 ^ 32 - 1) := by
  cases ttl with
  | none => cases h
  | some ttl =>
    obtain ⟨-, hhigh⟩ := Command.bounds_of_checkTtl httl
    rw [expiryAfter] at h
    split at h
    · cases h
      refine (wrapInstant_le ?_).trans (Int.add_le_add_left ?_ _)
      · unfold seconds
        omega
      · unfold seconds
        omega
    · cases h

/-- A cache that can be told of stays so, whatever command comes over the wire. -/
theorem Presentable.handle (h : c.Presentable now) (hnow : (-2 ^ 63 : Int) ≤ now)
    {command : Command} (hcommand : command.Intelligible) :
    (c.handle now command).1.Presentable now := by
  have hvalid := hcommand.valid
  obtain ⟨hversion, hpolicies, hpolicy⟩ := c.handle_configuration now command
  have hentries : ∀ filed ∈ (c.handle now command).1.store, filed.2.Presentable now := by
    refine forall_store_handle (P := fun e => e.Presentable now) h.entries ?_ ?_
    · rintro key value ttl rfl - -
      obtain ⟨-, hrest⟩ := Command.bind_eq_ok_iff.1 hvalid
      obtain ⟨hvalue, httl⟩ := Command.bind_eq_ok_iff.1 hrest
      exact ⟨Command.length_lt_of_checkValue hvalue, fun _ => expiryAfter_le httl hnow⟩
    · rintro key ttl e rfl he
      obtain ⟨-, httl⟩ := Command.bind_eq_ok_iff.1 hvalid
      exact ⟨he.length_lt, fun _ => expiryAfter_le httl hnow⟩
  refine ⟨hversion ▸ h.version_lt, hpolicies ▸ h.policies_lt, hpolicies ▸ h.policies, ?_, hentries⟩
  rcases hpolicy with hkept | hchosen
  · exact hkept ▸ h.policy
  · exact hcommand.namesItself _ hchosen

theorem secondsLeft_lt {now limit : Int} (h : limit ≤ now + seconds (2 ^ 32 - 1)) :
    0 ≤ secondsLeft now limit ∧ secondsLeft now limit < 2 ^ 32 := by
  unfold secondsLeft seconds at *
  omega

/-- Every response of a cache that can be told of is read back. -/
theorem Presentable.readable (h : c.Presentable now) (command : Command) :
    (c.handle now command).2.Readable := by
  have hrefused (code : CacheCode) : (refuse code).Readable := by
    rintro ⟨horigin, -⟩
    cases horigin
  have hfound {key : Bytes} {answer : Entry → Response}
      (hanswer : ∀ e : Entry, e.Presentable now → (answer e).Readable) :
      (found (c.store.live? now key) answer).Readable := by
    cases hlive : c.store.live? now key with
    | none => exact hrefused _
    | some e => exact hanswer e (of_live? (P := fun e => e.Presentable now) h.entries hlive)
  cases command with
  | ping => exact ⟨trivial, show (4 : Nat) < 2 ^ 32 by decide⟩
  | version => exact ⟨trivial, h.version_lt⟩
  | get | peek => exact hfound fun e he => ⟨trivial, he.length_lt⟩
  | del | valueSize => exact hfound fun e he => ⟨trivial, trivial⟩
  | has | wipe => exact ⟨trivial, trivial⟩
  | getTtl key =>
    refine hfound fun e he => ⟨trivial, ?_⟩
    cases hexpiry : e.expiry with
    | none => exact ⟨le_refl 0, show (0 : Int) < 2 ^ 32 by decide⟩
    | some limit => exact secondsLeft_lt (he.expiry_le limit hexpiry)
  | set key value ttl =>
    simp only [Cache.handle, Cache.set]
    split
    · exact hrefused _
    · split
      · exact hrefused _
      · exact ⟨trivial, trivial⟩
  | setTtl key ttl =>
    simp only [Cache.handle]
    split
    · exact hrefused _
    · exact ⟨trivial, trivial⟩
  | resize capacity =>
    simp only [Cache.handle]
    split
    · exact hrefused _
    · exact ⟨trivial, trivial⟩
  | setPolicy p =>
    simp only [Cache.handle]
    split
    · exact ⟨trivial, trivial⟩
    · exact hrefused _
  | getStatus => exact ⟨⟨h.policies, h.policy⟩, h.policies_lt⟩

/-- A refusal of a cache is in the words of its code. -/
theorem essence_handle_refused {command : Command} {refusal : Refusal}
    (h : (c.handle now command).2 = .refused refusal) :
    refusal = .ofCode refusal.origin refusal.code := by
  have hrefuse (code : CacheCode) (h : refuse code = .refused refusal) :
      refusal = .ofCode refusal.origin refusal.code := by
    cases h
    rfl
  have hfound {entry : Option Entry} {answer : Entry → Payload}
      (h : (found entry fun e => .ok (answer e)) = .refused refusal) :
      refusal = .ofCode refusal.origin refusal.code := by
    cases entry with
    | none => exact hrefuse _ h
    | some e => cases h
  cases command with
  | get | peek | del | getTtl | valueSize => exact hfound h
  | ping | version | has | wipe | getStatus => cases h
  | set key value ttl =>
    simp only [Cache.handle, Cache.set] at h
    split at h
    · exact hrefuse _ h
    · split at h
      · exact hrefuse _ h
      · cases h
  | setTtl key ttl =>
    simp only [Cache.handle] at h
    split at h
    · exact hrefuse _ h
    · cases h
  | resize capacity =>
    simp only [Cache.handle] at h
    split at h
    · exact hrefuse _ h
    · cases h
  | setPolicy p =>
    simp only [Cache.handle] at h
    split at h
    · cases h
    · exact hrefuse _ h

/-- A response of a cache that can be told of agrees with what is read of it. -/
theorem Presentable.agrees_essence (h : c.Presentable now) (command : Command) :
    (c.handle now command).2.Agrees (c.handle now command).2.essence := by
  have hreadable := h.readable command
  cases hr : (c.handle now command).2 with
  | ok payload =>
    rw [hr] at hreadable
    exact Payload.agrees_essence hreadable.1
  | refused refusal => exact congrArg Response.refused (essence_handle_refused hr)

end Cache

end RemoteCache
