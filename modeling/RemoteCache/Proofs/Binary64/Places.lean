import RemoteCache.Binary64.Shortest
import RemoteCache.Proofs.Binary64.Representable

/-!
# How many places a text needs

The search for the fewest decimals goes through all numbers of places in turn. The nearest decimal
with 324 places is so near that it is read back, whatever the number: its error is smaller than
half the distance of any two numbers. So the search ends there at the latest, also for the
smallest numbers, which have 1074 places when they are written exactly.

## Main results

* `Binary64.width_le_of_mem_candidates` — a candidate has few digits in front of its point
* `Binary64.exists_shortestPoint?` — the search succeeds within 324 places
* `Binary64.places_le_of_shortestPoint?`, `Binary64.limit_lt_of_shortestPoint?_eq_none` — what it
  finds has no more of them, and it only fails when it was not allowed so many
-/

namespace RemoteCache

namespace Decimal

theorem width_le {n w : Nat} (hw : 0 < w) (h : n < 10 ^ w) : width n ≤ w := by
  by_cases hn : n = 0
  · rw [hn, width]
    exact hw
  · have hlow := (width_bounds hn).1
    have hlt : width n - 1 < w := (Nat.pow_lt_pow_iff_right (by decide)).1 (hlow.trans_lt h)
    omega

end Decimal

namespace Binary64

variable {x : Binary64}

/-! ### The size of a decimal -/

/-- Over a unit of two or more, rounding does not make a number larger. -/
theorem roundQuotient_le_self {num den : Nat} (hden : 2 ≤ den) : roundQuotient num den ≤ num := by
  have hround := roundQuotient_le num den
  cases hnear : roundQuotient num den with
  | zero => exact Nat.zero_le num
  | succ k =>
    rw [hnear] at hround
    have hodd : (2 * k + 1) * 2 ≤ (2 * k + 1) * den := Nat.mul_le_mul_left _ hden
    have hexpand : 2 * ((k + 1) * den) = (2 * k + 1) * den + den := by ring
    omega

/-- A candidate for a number with at least one bit behind the point has at most sixteen digits in
front of its own. -/
theorem width_le_of_mem_candidates {unit places point : Nat} (hunit : 2 ≤ unit)
    (h : point ∈ x.candidates unit places) : Decimal.width point ≤ places + 16 := by
  apply Decimal.width_le (by omega)
  have hnear : roundQuotient (x.significand * 10 ^ places) unit ≤ x.significand * 10 ^ places :=
    roundQuotient_le_self hunit
  have hpoint : point ≤ x.significand * 10 ^ places + 1 := by
    simp only [candidates, List.mem_cons, List.not_mem_nil, or_false] at h
    rcases h with rfl | rfl
    · omega
    · split <;> omega
  have hpow : 1 ≤ 10 ^ places := Nat.one_le_pow _ _ (by decide)
  calc point ≤ x.significand * 10 ^ places + 10 ^ places := by omega
    _ = (x.significand + 1) * 10 ^ places := by ring
    _ ≤ 2 ^ 53 * 10 ^ places := Nat.mul_le_mul_right _ x.significand_lt
    _ < 10 ^ 16 * 10 ^ places := Nat.mul_lt_mul_of_pos_right (by decide) hpow
    _ = 10 ^ (places + 16) := by rw [pow_add, mul_comm]

/-- So has a number that is written exactly. -/
theorem width_exact_le (x : Binary64) (depth : Nat) :
    Decimal.width (x.significand * 5 ^ depth) ≤ depth + 16 := by
  apply Decimal.width_le (by omega)
  calc x.significand * 5 ^ depth ≤ 2 ^ 53 * 10 ^ depth :=
        Nat.mul_le_mul x.significand_lt.le (Nat.pow_le_pow_left (by decide) _)
    _ < 10 ^ 16 * 10 ^ depth := Nat.mul_lt_mul_of_pos_right (by decide) (by positivity)
    _ = 10 ^ (depth + 16) := by rw [pow_add, mul_comm]

/-! ### The end of the search -/

theorem near_mem_candidates (x : Binary64) (unit places : Nat) :
    roundQuotient (x.significand * 10 ^ places) unit ∈ x.candidates unit places :=
  List.mem_cons_self

theorem mem_candidates_of_shortestPoint? {unit limit point places : Nat}
    (h : x.shortestPoint? unit limit = some (point, places)) :
    places ≤ limit ∧ point ∈ x.candidates unit places := by
  obtain ⟨k, hk, hfound⟩ := List.exists_of_findSome?_eq_some h
  obtain ⟨found, hfind, heq⟩ := Option.map_eq_some_iff.1 hfound
  cases heq
  exact ⟨List.mem_range.1 hk, List.mem_of_find?_eq_some hfind⟩

/-- A search that has found something finds the same when it may go on for longer. -/
theorem shortestPoint?_mono {unit limit limit' : Nat} {found : Nat × Nat} (hle : limit ≤ limit')
    (h : x.shortestPoint? unit limit = some found) : x.shortestPoint? unit limit' = some found := by
  obtain ⟨more, rfl⟩ := Nat.exists_eq_add_of_le hle
  unfold shortestPoint? at h ⊢
  rw [List.range_add, List.findSome?_append, h, Option.some_or]

/-- The nearest decimal with so many places is off by at most half of the last one. -/
theorem abs_sub_near_le (hneg : x.exponent ≤ 0) (places : Nat) :
    |Decimal.absValue ⟨roundQuotient (x.significand * 10 ^ places) (2 ^ (-x.exponent).toNat),
      -(places : ℤ)⟩ - x.absValue| ≤ 10 ^ (-(places : ℤ)) / 2 := by
  have hround := abs_sub_roundQuotient_le (x.significand * 10 ^ places)
    (by positivity : 0 < 2 ^ (-x.exponent).toNat)
  generalize roundQuotient (x.significand * 10 ^ places) (2 ^ (-x.exponent).toNat) = near at *
  have hpow : (0 : ℚ) < 10 ^ (-(places : ℤ)) := by positivity
  have hscaled : x.absValue =
      ((x.significand * 10 ^ places : ℕ) : ℚ) / (2 ^ (-x.exponent).toNat : ℕ) *
        10 ^ (-(places : ℤ)) := by
    rw [absValue, zpow_eq_inv_pow_toNat hneg, zpow_neg, zpow_natCast]
    push_cast
    field_simp
  rw [Decimal.absValue, hscaled, ← sub_mul, abs_mul, abs_of_pos hpow, abs_sub_comm]
  linarith [mul_le_mul_of_nonneg_right hround hpow.le]

/-- The nearest decimal with 324 places is read back. -/
theorem readsBack_near (hfinite : x.isFinite = true) (hx : x.significand ≠ 0)
    (hneg : x.exponent ≤ 0) :
    x.readsBack (roundQuotient (x.significand * 10 ^ 324) (2 ^ (-x.exponent).toNat)) 324 =
      true := by
  have hnear := Decimal.nearest?_of_near hfinite hx <|
    calc _ ≤ (10 : ℚ) ^ (-((324 : ℕ) : ℤ)) / 2 := abs_sub_near_le hneg 324
      _ ≤ 10 ^ (-((324 : ℕ) : ℤ)) := half_le_self (by positivity)
      _ < 2 ^ (-1075 : ℤ) := Decimal.ten_zpow_lt_two_zpow
  rw [readsBack, hnear]
  exact beq_self_eq_true _

/-- The search for the decimals of a number ends within 324 places. -/
theorem exists_shortestPoint? (hfinite : x.isFinite = true) (hx : x.significand ≠ 0)
    (hneg : x.exponent ≤ 0) {limit : Nat} (hlimit : 324 ≤ limit) :
    ∃ point places, places ≤ 324 ∧
      x.shortestPoint? (2 ^ (-x.exponent).toNat) limit = some (point, places) := by
  have hsome : (x.shortestPoint? (2 ^ (-x.exponent).toNat) 324).isSome = true := by
    have hback := readsBack_near hfinite hx hneg
    -- The search may find something else before; that it finds something is enough.
    rw [shortestPoint?, List.isSome_findSome?, List.any_eq_true]
    refine ⟨323, List.mem_range.2 (by decide), ?_⟩
    rw [Option.isSome_map, List.find?_isSome]
    exact ⟨_, near_mem_candidates x _ 324, hback⟩
  obtain ⟨⟨point, places⟩, hfound⟩ := Option.isSome_iff_exists.1 hsome
  exact ⟨point, places, (mem_candidates_of_shortestPoint? hfound).1,
    shortestPoint?_mono hlimit hfound⟩

theorem places_le_of_shortestPoint? (hfinite : x.isFinite = true) (hx : x.significand ≠ 0)
    (hneg : x.exponent ≤ 0) {limit point places : Nat}
    (h : x.shortestPoint? (2 ^ (-x.exponent).toNat) limit = some (point, places)) :
    places ≤ 324 := by
  rcases le_total 324 limit with hlimit | hlimit
  · obtain ⟨point', places', hplaces, hfound⟩ := exists_shortestPoint? hfinite hx hneg hlimit
    rw [hfound] at h
    cases h
    exact hplaces
  · exact (mem_candidates_of_shortestPoint? h).1.trans hlimit

/-- Only a search that was allowed few places comes to nothing. -/
theorem limit_lt_of_shortestPoint?_eq_none (hfinite : x.isFinite = true)
    (hx : x.significand ≠ 0) (hneg : x.exponent ≤ 0) {limit : Nat}
    (h : x.shortestPoint? (2 ^ (-x.exponent).toNat) limit = none) : limit < 324 := by
  by_contra hlimit
  obtain ⟨point, places, -, hfound⟩ :=
    exists_shortestPoint? hfinite hx hneg (Nat.not_lt.1 hlimit)
  rw [hfound] at h
  cases h

end Binary64

end RemoteCache
