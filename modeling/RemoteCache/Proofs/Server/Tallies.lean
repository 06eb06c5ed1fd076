import RemoteCache.Proofs.Binary64.Shares
import RemoteCache.Proofs.Server.Lifetimes

/-!
# What a cache keeps to

Whatever commands a cache is given, it counts every request for a value, every attempt to store one
and every attempt to delete one, and nothing else. It never counts more misses than requests, so
the share of them is a number from nought to one. No empty value is stored, the policy is always one
that is configured, and a command that is refused changes nothing else that could be told.

## Main definitions

* `Cache.Handled` — what any command does to the counters, the capacity and the policy
* `Cache.Sound` — what every command preserves
* `Cache.Keeps` — what a command that is refused leaves as it was
* `Cache.countIn`, `Cache.missedIn` — what there is to be counted in a log
* `Cache.InOrder` — what holds of a cache that has handled a log

## Main results

* `Cache.handled`, `Cache.keeps_of_refused` — what one command does, and what it leaves if it is
  refused
* `Cache.counts_after`, `Cache.Sound.after` — what holds after a whole log
* `Cache.missRatio_cases`, `Cache.missRatio_of_lt` — the share of misses is not a quotient by nought
* `Cache.inOrder_after` — all of this together, for a cache as it is configured
-/

namespace RemoteCache

namespace Command

/-- A request for a value that is counted, in contrast to `peek`. -/
def isGet : Command → Bool
  | .get _ => true
  | _ => false

/-- An attempt to store a value. -/
def isSet : Command → Bool
  | .set .. => true
  | _ => false

/-- An attempt to delete a key. -/
def isDel : Command → Bool
  | .del _ => true
  | _ => false

end Command

/-- A response that is no success. -/
def Response.isRefused : Response → Bool
  | .ok _ => false
  | .refused _ => true

/-- A policy without NaNs is equal to itself. -/
theorem Policy.agrees_self {p : Policy} (h : ∀ x ∈ p.parameters, x.isNaN = false) :
    p.agrees p = true := by
  have hsame {x : Binary64} (hx : x ∈ p.parameters) : x.agrees x = true :=
    x.agrees_self_iff.2 (h x hx)
  unfold agrees
  rw [beq_self_eq_true, Bool.true_and]
  split
  · rw [hsame (by simp [parameters]), hsame (by simp [parameters])]
    rfl
  · exact hsame (by simp [parameters])
  · rfl

namespace Cache

variable {c : Cache} {now : Instant} {command : Command}

/-! ### One command -/

/-- What a command does to the counters, the capacity and the policy. It is counted as what it is,
whether or not it is refused; the rest changes only if it is acknowledged. -/
structure Handled (c : Cache) (command : Command) (c' : Cache) (response : Response) : Prop where
  totalGets : c'.totalGets = c.totalGets + command.isGet.toNat
  totalSets : c'.totalSets = c.totalSets + command.isSet.toNat
  totalDels : c'.totalDels = c.totalDels + command.isDel.toNat
  misses : c'.misses = c.misses + (command.isGet && response.isRefused).toNat
  capacity : c'.capacity = c.capacity ∨ response = .ok .ack
  policies : c'.policies = c.policies
  policy : c'.policy = c.policy ∨
    response = .ok .ack ∧ ∃ known ∈ c.policies, known.agrees c'.policy = true

theorem handled (c : Cache) (now : Instant) (command : Command) :
    c.Handled command (c.handle now command).1 (c.handle now command).2 := by
  cases command with
  | get key =>
    -- A miss is counted if and only if nothing is found.
    refine ⟨rfl, rfl, rfl, ?_, .inl rfl, rfl, .inl rfl⟩
    simp only [Cache.handle]
    cases c.store.live? now key <;> rfl
  | set key value ttl =>
    simp only [Cache.handle, Cache.set]
    split
    · exact ⟨rfl, rfl, rfl, rfl, .inl rfl, rfl, .inl rfl⟩
    · split <;> exact ⟨rfl, rfl, rfl, rfl, .inl rfl, rfl, .inl rfl⟩
  | setTtl key ttl =>
    simp only [Cache.handle]
    split <;> exact ⟨rfl, rfl, rfl, rfl, .inl rfl, rfl, .inl rfl⟩
  | resize capacity =>
    simp only [Cache.handle]
    split
    · exact ⟨rfl, rfl, rfl, rfl, .inl rfl, rfl, .inl rfl⟩
    · exact ⟨rfl, rfl, rfl, rfl, .inr rfl, rfl, .inl rfl⟩
  | setPolicy policy =>
    simp only [Cache.handle]
    split
    · rename_i hknown
      exact ⟨rfl, rfl, rfl, rfl, .inl rfl, rfl, .inr ⟨rfl, List.any_eq_true.1 hknown⟩⟩
    · exact ⟨rfl, rfl, rfl, rfl, .inl rfl, rfl, .inl rfl⟩
  | _ => exact ⟨rfl, rfl, rfl, rfl, .inl rfl, rfl, .inl rfl⟩

/-- What is the same in two caches as far as commands can tell from some time on, apart from the
counters: the capacity, the policy, and every entry that has not expired. -/
structure Keeps (c c' : Cache) (now : Instant) : Prop where
  capacity : c'.capacity = c.capacity
  policy : c'.policy = c.policy
  live : ∀ later, now ≤ later → ∀ key, c'.store.live? later key = c.store.live? later key

theorem keeps_of_refused {refusal : Refusal} (h : (c.handle now command).2 = .refused refusal) :
    c.Keeps (c.handle now command).1 now := by
  have hhandled := c.handled now command
  -- What is refused is not acknowledged.
  rw [h] at hhandled
  exact ⟨hhandled.capacity.resolve_right nofun, hhandled.policy.resolve_right nofun,
    fun later hlater key => live?_of_refused h hlater key⟩

/-! ### Many commands -/

/-- How many commands of a log are of some sort. -/
def countIn (log : Log) (sort : Command → Bool) : Nat := log.countP fun event => sort event.2

/-- How many requests of a log for a value are in vain. -/
def missedIn (c : Cache) (log : Log) : Nat :=
  (log.zip (c.answers log)).countP fun (event, response) => event.2.isGet && response.isRefused

theorem countIn_cons (now : Instant) (command : Command) (log : Log) (sort : Command → Bool) :
    countIn ((now, command) :: log) sort = (sort command).toNat + countIn log sort := by
  rw [countIn, List.countP_cons, Nat.add_comm, Bool.toNat, Bool.cond_eq_ite]
  rfl

theorem missedIn_cons (c : Cache) (now : Instant) (command : Command) (log : Log) :
    c.missedIn ((now, command) :: log) =
      (command.isGet && (c.handle now command).2.isRefused).toNat +
        (c.handle now command).1.missedIn log := by
  rw [missedIn, answers, List.zip_cons_cons, List.countP_cons, Nat.add_comm, Bool.toNat,
    Bool.cond_eq_ite]
  rfl

/-- After a log, its commands are counted, each as what it is. -/
theorem counts_after (c : Cache) (log : Log) :
    (c.after log).totalGets = c.totalGets + countIn log Command.isGet ∧
      (c.after log).totalSets = c.totalSets + countIn log Command.isSet ∧
      (c.after log).totalDels = c.totalDels + countIn log Command.isDel ∧
      (c.after log).misses = c.misses + c.missedIn log := by
  induction log generalizing c with
  | nil => exact ⟨rfl, rfl, rfl, rfl⟩
  | cons event log ih =>
    obtain ⟨now, command⟩ := event
    obtain ⟨ihgets, ihsets, ihdels, ihmisses⟩ := ih (c.handle now command).1
    have hhandled := c.handled now command
    rw [after, ihgets, ihsets, ihdels, ihmisses, hhandled.totalGets, hhandled.totalSets,
      hhandled.totalDels, hhandled.misses]
    simp only [countIn_cons, missedIn_cons, Nat.add_assoc, and_self]

/-- What every command preserves: there are no more misses than requests, no empty value is stored,
and the policy is one that is configured. -/
structure Sound (policies : List Policy) (c : Cache) : Prop where
  misses_le : c.misses ≤ c.totalGets
  values : ∀ filed ∈ c.store, filed.2.value ≠ []
  configured : c.policies = policies
  policy : ∃ known ∈ policies, known.agrees c.policy = true

variable {policies : List Policy}

theorem Sound.handle (h : c.Sound policies) (now : Instant) (command : Command) :
    (c.handle now command).1.Sound policies := by
  have hhandled := c.handled now command
  refine ⟨?_, ?_, hhandled.policies.trans h.configured, ?_⟩
  · rw [hhandled.misses, hhandled.totalGets]
    exact Nat.add_le_add h.misses_le (Bool.toNat_le_toNat (Bool.and_le_left _ _))
  · refine forall_store_handle (P := fun e => e.value ≠ []) h.values ?_ fun _ _ _ _ he => he
    exact fun _ _ _ _ hvalue _ => hvalue
  · rcases hhandled.policy with hsame | ⟨-, hknown⟩
    · exact hsame ▸ h.policy
    · exact h.configured ▸ hknown

theorem Sound.after (h : c.Sound policies) (log : Log) : (c.after log).Sound policies :=
  holds_after (fun now command _ _ hsound => hsound.handle now command) h

/-- The share of misses is nought before the first request, and from then on the quotient that it is
meant to be. -/
theorem missRatio_cases (h : c.misses ≤ c.totalGets) :
    (c.totalGets = 0 ∧ c.missRatio = .zero ∨
      0 < c.totalGets ∧
        Binary64.nearest? false (Binary64.integerNear c.misses)
          (Binary64.integerNear c.totalGets) = some c.missRatio) ∧
    c.missRatio.IsShare := by
  unfold missRatio
  rcases Nat.eq_zero_or_pos c.totalGets with hnone | hpos
  · rw [if_pos hnone]
    exact ⟨.inl ⟨hnone, rfl⟩, Binary64.isShare_zero⟩
  · obtain ⟨x, hx, hshare⟩ := Binary64.nearest?_of_le (Binary64.integerNear_pos hpos)
      (Binary64.integerNear_mono h)
    rw [if_neg hpos.ne']
    dsimp only
    rw [hx]
    exact ⟨.inr ⟨hpos, rfl⟩, hshare⟩

/-- Counters of fifty-three bits are divided as they are. -/
theorem missRatio_of_lt (h : c.misses ≤ c.totalGets) (hpos : 0 < c.totalGets)
    (hlt : c.totalGets < 2 ^ 53) :
    Binary64.nearest? false c.misses c.totalGets = some c.missRatio := by
  rcases (missRatio_cases h).1 with ⟨hnone, -⟩ | ⟨-, hratio⟩
  · exact absurd hnone hpos.ne'
  · rwa [Binary64.integerNear_of_lt (h.trans_lt hlt), Binary64.integerNear_of_lt hlt] at hratio

/-! ### A cache as it is configured -/

/-- A cache begins with the first of its policies, and with nothing stored or counted. -/
theorem sound_withPolicies (hpolicies : policies ≠ [])
    (hnumbers : ∀ p ∈ policies, ∀ x ∈ p.parameters, x.isNaN = false) (pid : UInt32)
    (version : Bytes) (capacity : Nat) (startedAt : Instant) :
    (({ pid, version, capacity, startedAt } : Cache).withPolicies policies).Sound policies := by
  cases policies with
  | nil => exact absurd rfl hpolicies
  | cons first more =>
    exact ⟨le_rfl, List.forall_mem_nil _, rfl, first, List.mem_cons_self,
      Policy.agrees_self (hnumbers first List.mem_cons_self)⟩

/-- What holds of a cache that has handled a log since it was started. -/
structure InOrder (start : Cache) (log : Log) (c : Cache) : Prop where
  totalGets : c.totalGets = countIn log Command.isGet
  totalSets : c.totalSets = countIn log Command.isSet
  totalDels : c.totalDels = countIn log Command.isDel
  misses : c.misses = start.missedIn log
  misses_le : c.misses ≤ c.totalGets
  ratio : c.totalGets = 0 ∧ c.missRatio = .zero ∨
    0 < c.totalGets ∧
      Binary64.nearest? false (Binary64.integerNear c.misses)
        (Binary64.integerNear c.totalGets) = some c.missRatio
  /-- As long as fifty-three bits hold the counters, they are divided as they are. -/
  ratio_of_lt : 0 < c.totalGets → c.totalGets < 2 ^ 53 →
    Binary64.nearest? false c.misses c.totalGets = some c.missRatio
  isShare : c.missRatio.IsShare
  /-- The counters are reported as 64 bits hold them. -/
  reported : ∀ now, ∃ report, (c.handle now .getStatus).2 = .ok (.status report) ∧
    report.totalGets = c.totalGets.toUInt64 ∧ report.totalSets = c.totalSets.toUInt64 ∧
    report.totalDels = c.totalDels.toUInt64 ∧ report.missRatio = c.missRatio
  values : ∀ filed ∈ c.store, filed.2.value ≠ []
  policy : ∃ known ∈ start.policies, known.agrees c.policy = true
  refused : ∀ now command refusal, (c.handle now command).2 = .refused refusal →
    c.Keeps (c.handle now command).1 now

/-- Whatever a cache is configured with, as long as there is a policy and no NaN in any, and
whatever commands it has handled since, it is in order. -/
theorem inOrder_after (hpolicies : policies ≠ [])
    (hnumbers : ∀ p ∈ policies, ∀ x ∈ p.parameters, x.isNaN = false) (pid : UInt32)
    (version : Bytes) (capacity : Nat) (startedAt : Instant) (log : Log) :
    InOrder (({ pid, version, capacity, startedAt } : Cache).withPolicies policies) log
      ((({ pid, version, capacity, startedAt } : Cache).withPolicies policies).after log) := by
  have hsound := (sound_withPolicies hpolicies hnumbers pid version capacity startedAt).after log
  obtain ⟨hgets, hsets, hdels, hmisses⟩ := counts_after
    (({ pid, version, capacity, startedAt } : Cache).withPolicies policies) log
  obtain ⟨hratio, hshare⟩ := missRatio_cases hsound.misses_le
  exact {
    totalGets := hgets.trans (Nat.zero_add _)
    totalSets := hsets.trans (Nat.zero_add _)
    totalDels := hdels.trans (Nat.zero_add _)
    misses := hmisses.trans (Nat.zero_add _)
    misses_le := hsound.misses_le
    ratio := hratio
    ratio_of_lt := missRatio_of_lt hsound.misses_le
    isShare := hshare
    reported := fun now => ⟨_, rfl, rfl, rfl, rfl, rfl⟩
    values := hsound.values
    policy := hsound.policy
    refused := fun now command refusal => keeps_of_refused }

/-- A value is stored and asked for, another key is asked for in vain, and an empty value is
refused. -/
theorem inOrder_after_missed :
    ∃ c, ({} : Cache).after [(0, .set [1] [2] none), (1, .get [1]), (2, .get [3]),
        (3, .set [1] [] none)] = c ∧
      c.totalGets = 2 ∧ c.totalSets = 2 ∧ c.totalDels = 0 ∧ c.misses = 1 ∧
      Binary64.nearest? false 1 2 = some c.missRatio ∧ c.missRatio.IsShare := by
  let policies : List Policy := ({} : Cache).policies
  have hnumbers : ∀ p ∈ policies, ∀ x ∈ p.parameters, x.isNaN = false := by decide
  let log : Log := [(0, .set [1] [2] none), (1, .get [1]), (2, .get [3]), (3, .set [1] [] none)]
  have horder := inOrder_after (by decide : policies ≠ []) hnumbers 4242 (Bytes.ascii "0.1.0-fake")
    1048576 0 log
  have hratio := horder.ratio_of_lt (horder.totalGets ▸ by decide) (horder.totalGets ▸ by decide)
  rw [horder.totalGets, horder.misses] at hratio
  exact ⟨_, rfl, horder.totalGets, horder.totalSets, horder.totalDels, horder.misses, hratio,
    horder.isShare⟩

end Cache

end RemoteCache
