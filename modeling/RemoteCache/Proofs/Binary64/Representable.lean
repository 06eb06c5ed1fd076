import Mathlib.Algebra.Order.Archimedean.Basic
import Mathlib.Algebra.Order.Field.Power
import Mathlib.Data.Rat.Cast.Order
import Mathlib.Tactic.FieldSimp
import Mathlib.Tactic.Linarith
import Mathlib.Tactic.NormNum
import Mathlib.Tactic.Positivity
import Mathlib.Tactic.Ring
import RemoteCache.Binary64.Reading

/-!
# Representable numbers, and what is near them

A decimal that stands for exactly the number of a finite pattern is read as that pattern, and so
is every decimal that is near enough. The rounding works with natural numbers alone; here it is
compared with the rational numbers that patterns and decimals stand for.

The finite numbers are at least `2 ^ -1074` apart, so whatever is less than `2 ^ -1075` away from
one of them is rounded to it. At a power of two the unit below is half the unit above. The unit
that is found for a quotient near a power of two may then be that of the lower neighbours, the
significand comes out twice as large, and the pattern is the same.

## Main definitions

* `Binary64.absValue` — the rational number of a finite pattern, without its sign
* `Decimal.absValue` — the rational number of a decimal

## Main results

* `Binary64.unitExponent_eq` — the unit of a quotient is found from its leading bit
* `Binary64.nearest?_of_near` — a quotient near a finite number is rounded to it
* `Decimal.nearest?_of_near` — a decimal near a finite number is read as it
* `Decimal.nearest?_of_absValue` — so is a decimal equal to it
-/

namespace RemoteCache

theorem abs_sub_roundQuotient_le (num : Nat) {den : Nat} (h : 0 < den) :
    |(num : ℚ) / den - roundQuotient num den| ≤ 1 / 2 := by
  have hpos : (0 : ℚ) < den := by exact_mod_cast h
  have hlow : 2 * ((roundQuotient num den : ℚ) * den) ≤ 2 * num + den := by
    exact_mod_cast roundQuotient_le num den
  have hhigh : (2 : ℚ) * num ≤ 2 * (roundQuotient num den * den) + den := by
    exact_mod_cast le_roundQuotient h
  rw [abs_le, le_sub_iff_add_le, sub_le_iff_le_add, le_div_iff₀ hpos, div_le_iff₀ hpos]
  constructor <;> linarith

/-- A quotient less than one half away from an integer is rounded to it. -/
theorem roundQuotient_eq_of_near {num den m : Nat} (hden : 0 < den)
    (h : |(num : ℚ) / den - m| < 1 / 2) : roundQuotient num den = m := by
  obtain ⟨hlow, hhigh⟩ := abs_lt.1 h
  obtain ⟨hlow', hhigh'⟩ := abs_le.1 (abs_sub_roundQuotient_le num hden)
  have hlt : (roundQuotient num den : ℚ) < m + 1 := by linarith
  have hgt : (m : ℚ) < roundQuotient num den + 1 := by linarith
  norm_cast at hlt hgt
  omega

theorem zpow_eq_pow_toNat {a : ℚ} {e : Int} (h : 0 ≤ e) : a ^ e = a ^ e.toNat := by
  rw [← zpow_natCast, Int.toNat_of_nonneg h]

theorem zpow_eq_inv_pow_toNat {a : ℚ} {e : Int} (h : e ≤ 0) : a ^ e = (a ^ (-e).toNat)⁻¹ := by
  rw [← zpow_natCast, Int.toNat_of_nonneg (by omega), zpow_neg, inv_inv]

namespace Binary64

/-! ### Fields -/

theorem fraction_lt (x : Binary64) : x.fraction < 2 ^ 52 := Nat.mod_lt _ (by decide)

theorem exponentField_lt (x : Binary64) : x.exponentField < 2 ^ 11 := Nat.mod_lt _ (by decide)

theorem exponentField_lt_of_isFinite {x : Binary64} (h : x.isFinite = true) :
    x.exponentField < topExponent := by
  have hlt := x.exponentField_lt
  have hne : x.exponentField ≠ topExponent := by simpa [isFinite] using h
  simp only [topExponent] at *
  omega

theorem magnitude_lt {x : Binary64} (h : x.isFinite = true) :
    x.exponentField * 2 ^ 52 + x.fraction < infinityMagnitude := by
  have hfield : x.exponentField < 2047 := exponentField_lt_of_isFinite h
  have hfraction := x.fraction_lt
  change _ < 2047 * 2 ^ 52
  omega

theorem exponent_ge (x : Binary64) : -1074 ≤ x.exponent := by
  simp only [exponent]
  omega

/-- A pattern is its sign and its lower 63 bits. -/
theorem ofMagnitude_signBit (x : Binary64) :
    ofMagnitude x.signBit (x.exponentField * 2 ^ 52 + x.fraction) = x := by
  have hlt := x.bits.toNat_lt
  have hsplit : (if x.signBit then 2 ^ 63 + (x.exponentField * 2 ^ 52 + x.fraction)
      else x.exponentField * 2 ^ 52 + x.fraction) = x.bits.toNat := by
    simp only [signBit, exponentField, fraction, decide_eq_true_eq]
    split <;> omega
  rw [ofMagnitude, hsplit]
  simp

theorem signBit_ofMagnitude {negative : Bool} {magnitude : Nat} (h : magnitude < 2 ^ 63) :
    (ofMagnitude negative magnitude).signBit = negative := by
  cases negative <;> simp [ofMagnitude, signBit] <;> omega

theorem signBit_of_nearest? {negative : Bool} {num den : Nat} {x : Binary64}
    (h : nearest? negative num den = some x) : x.signBit = negative := by
  simp only [nearest?] at h
  obtain ⟨hmagnitude, heq⟩ := Option.ite_none_right_eq_some.1 h
  cases heq
  exact signBit_ofMagnitude (hmagnitude.trans (by decide))

theorem significand_lt (x : Binary64) : x.significand < 2 ^ 53 := by
  have := x.fraction_lt
  unfold significand
  split <;> omega

/-- The number of a finite pattern, without its sign. -/
def absValue (x : Binary64) : ℚ := x.significand * 2 ^ x.exponent

theorem absValue_eq_zero_iff (x : Binary64) : x.absValue = 0 ↔ x.significand = 0 := by
  have hpow : (2 : ℚ) ^ x.exponent ≠ 0 := by positivity
  simp [absValue, hpow]

theorem absValue_lt {x : Binary64} (h : x.isFinite = true) : x.absValue < 2 ^ (1024 : ℤ) := by
  have hfield := exponentField_lt_of_isFinite h
  have hexp : x.exponent ≤ 971 := by
    simp only [exponent, topExponent] at *
    omega
  have hsig : (x.significand : ℚ) < 2 ^ (53 : ℤ) := by
    exact_mod_cast x.significand_lt
  calc x.absValue
      ≤ x.significand * 2 ^ (971 : ℤ) :=
        mul_le_mul_of_nonneg_left (zpow_le_zpow_right₀ (by norm_num) hexp) (by positivity)
    _ < 2 ^ (53 : ℤ) * 2 ^ (971 : ℤ) := mul_lt_mul_of_pos_right hsig (by positivity)
    _ = 2 ^ (1024 : ℤ) := by rw [← zpow_add₀ (by norm_num)]; norm_num

theorem le_absValue {x : Binary64} (h : x.significand ≠ 0) : 2 ^ (-1074 : ℤ) ≤ x.absValue := by
  have hexp := x.exponent_ge
  have hsig : (1 : ℚ) ≤ x.significand := by
    exact_mod_cast Nat.one_le_iff_ne_zero.2 h
  calc (2 : ℚ) ^ (-1074 : ℤ)
      ≤ 2 ^ x.exponent := zpow_le_zpow_right₀ (by norm_num) hexp
    _ ≤ x.absValue := le_mul_of_one_le_left (by positivity) hsig

/-! ### Scaling -/

theorem scaleDown_snd_pos {num den : Nat} (h : 0 < den) (e : Int) :
    0 < (scaleDown num den e).2 := by
  unfold scaleDown
  split <;> positivity

theorem scaleDown_ratio (num den : Nat) (e : Int) :
    ((scaleDown num den e).1 : ℚ) / (scaleDown num den e).2 = num / den / 2 ^ e := by
  unfold scaleDown
  split
  · rename_i he
    push_cast
    rw [zpow_eq_pow_toNat he, div_div]
  · rename_i he
    push_cast
    rw [zpow_eq_inv_pow_toNat (by omega), div_inv_eq_mul, div_mul_eq_mul_div]

theorem scaleDown_fst_lt_iff {num den : Nat} (h : 0 < den) (e : Int) :
    (scaleDown num den e).1 < (scaleDown num den e).2 ↔ (num : ℚ) / den < 2 ^ e := by
  have hpos : (0 : ℚ) < (scaleDown num den e).2 := by exact_mod_cast scaleDown_snd_pos h e
  rw [← div_lt_one (by positivity : (0 : ℚ) < 2 ^ e), ← scaleDown_ratio, div_lt_one hpos,
    Nat.cast_lt]

/-! ### The unit in the last place -/

/-- The leading bits of two numbers enclose their quotient. -/
theorem ratio_bounds {num den : Nat} (hnum : num ≠ 0) (hden : den ≠ 0) :
    (2 : ℚ) ^ ((num.log2 : ℤ) - den.log2 - 1) < num / den ∧
      (num : ℚ) / den < 2 ^ ((num.log2 : ℤ) - den.log2 + 1) := by
  have hnumLow : (2 : ℚ) ^ (num.log2 : ℤ) ≤ num := by exact_mod_cast Nat.log2_self_le hnum
  have hnumHigh : (num : ℚ) < 2 ^ ((num.log2 : ℤ) + 1) := by exact_mod_cast Nat.lt_log2_self
  have hdenLow : (2 : ℚ) ^ (den.log2 : ℤ) ≤ den := by exact_mod_cast Nat.log2_self_le hden
  have hdenHigh : (den : ℚ) < 2 ^ ((den.log2 : ℤ) + 1) := by exact_mod_cast Nat.lt_log2_self
  have hdenPos : (0 : ℚ) < den := by exact_mod_cast Nat.pos_of_ne_zero hden
  constructor
  · rw [lt_div_iff₀ hdenPos]
    calc (2 : ℚ) ^ ((num.log2 : ℤ) - den.log2 - 1) * den
        < 2 ^ ((num.log2 : ℤ) - den.log2 - 1) * 2 ^ ((den.log2 : ℤ) + 1) :=
          mul_lt_mul_of_pos_left hdenHigh (by positivity)
      _ = 2 ^ (num.log2 : ℤ) := by
          rw [← zpow_add₀ (by norm_num)]
          congr 1
          omega
      _ ≤ num := hnumLow
  · rw [div_lt_iff₀ hdenPos]
    calc (num : ℚ) < 2 ^ ((num.log2 : ℤ) + 1) := hnumHigh
      _ = 2 ^ ((num.log2 : ℤ) - den.log2 + 1) * 2 ^ (den.log2 : ℤ) := by
          rw [← zpow_add₀ (by norm_num)]
          congr 1
          omega
      _ ≤ 2 ^ ((num.log2 : ℤ) - den.log2 + 1) * den :=
          mul_le_mul_of_nonneg_left hdenLow (by positivity)

/-- The unit of a quotient stands fifty-two places behind its leading bit, but not behind the
last place of all. -/
theorem unitExponent_eq {num den : Nat} (hden : den ≠ 0) {k : Int} (low : (2 : ℚ) ^ k ≤ num / den)
    (high : (num : ℚ) / den < 2 ^ (k + 1)) : unitExponent num den = max (k - 52) (-1074) := by
  have hnum : num ≠ 0 := by
    rintro rfl
    have : (0 : ℚ) < 2 ^ k := by positivity
    simp only [Nat.cast_zero, zero_div] at low
    linarith
  obtain ⟨hlow, hhigh⟩ := ratio_bounds hnum hden
  have hone : (1 : ℚ) < 2 := by norm_num
  have hk : k < (num.log2 : ℤ) - den.log2 + 1 :=
    (zpow_lt_zpow_iff_right₀ hone).1 (low.trans_lt hhigh)
  have hk' : (num.log2 : ℤ) - den.log2 - 1 < k + 1 :=
    (zpow_lt_zpow_iff_right₀ hone).1 (hlow.trans high)
  -- The guess is the leading place or the one in front of it, and the comparison tells which.
  have hguess : (scaleDown num den ((num.log2 : ℤ) - den.log2)).1 <
      (scaleDown num den ((num.log2 : ℤ) - den.log2)).2 ↔ k < (num.log2 : ℤ) - den.log2 := by
    rw [scaleDown_fst_lt_iff (Nat.pos_of_ne_zero hden)]
    constructor
    · intro hlt
      exact (zpow_lt_zpow_iff_right₀ hone).1 (low.trans_lt hlt)
    · intro hlt
      exact high.trans_le (zpow_le_zpow_right₀ hone.le (by omega))
  simp only [unitExponent]
  split
  · rename_i hlt
    have := hguess.1 hlt
    congr 1
    omega
  · rename_i hge
    have : ¬ k < (num.log2 : ℤ) - den.log2 := fun hlt => hge (hguess.2 hlt)
    congr 1
    omega

theorem unitExponent_ge (num den : Nat) : -1074 ≤ unitExponent num den := le_max_right _ _

/-! ### What is near a number -/

section Near

variable {x : Binary64} {num den : Nat}

/-- Less than half of the least unit is less than half of any. -/
theorem half_least_le {e : Int} (h : -1074 ≤ e) : (2 : ℚ) ^ (-1075 : ℤ) ≤ 2 ^ e / 2 := by
  have hhalf : (2 : ℚ) ^ e / 2 = 2 ^ (e - 1) := by
    rw [zpow_sub_one₀ (by norm_num), div_eq_mul_inv]
  rw [hhalf]
  exact zpow_le_zpow_right₀ (by norm_num) (by omega)

/-- Nothing near a number other than zero is zero. -/
theorem lt_of_near {q : ℚ} (hx : x.significand ≠ 0) (h : |q - x.absValue| < 2 ^ (-1075 : ℤ)) :
    2 ^ (-1075 : ℤ) < q := by
  have hleast := le_absValue hx
  have htwice : (2 : ℚ) ^ (-1074 : ℤ) = 2 ^ (-1075 : ℤ) * 2 := by
    rw [← zpow_add_one₀ (by norm_num)]
    norm_num
  obtain ⟨hlow, -⟩ := abs_lt.1 h
  linarith

theorem lt_two_zpow_of_near {q : ℚ} (hfinite : x.isFinite = true)
    (h : |q - x.absValue| < 2 ^ (-1075 : ℤ)) : q < 2 ^ (1025 : ℤ) := by
  have hlt := absValue_lt hfinite
  have hsmall : (2 : ℚ) ^ (-1075 : ℤ) ≤ 2 ^ (1024 : ℤ) :=
    zpow_le_zpow_right₀ (by norm_num) (by norm_num)
  obtain ⟨-, hhigh⟩ := abs_lt.1 h
  calc q < 2 ^ (-1075 : ℤ) + x.absValue := sub_lt_iff_lt_add.1 hhigh
    _ ≤ 2 ^ (1024 : ℤ) + 2 ^ (1024 : ℤ) := add_le_add hsmall hlt.le
    _ = 2 ^ (1024 + 1 : ℤ) := by rw [zpow_add_one₀ (by norm_num), mul_two]
    _ = 2 ^ (1025 : ℤ) := by norm_num

/-- The quotient stands between the middles to the neighbouring multiples of the unit. -/
theorem between_of_near (h : |(num : ℚ) / den - x.absValue| < 2 ^ (-1075 : ℤ)) :
    (x.significand - 1 / 2) * 2 ^ x.exponent < (num : ℚ) / den ∧
      (num : ℚ) / den < (x.significand + 1 / 2) * 2 ^ x.exponent := by
  have hhalf := half_least_le x.exponent_ge
  obtain ⟨hlow, hhigh⟩ := abs_lt.1 h
  simp only [absValue] at hlow hhigh
  constructor <;> linarith

/-- A quotient below the normal numbers has the least unit, wherever its leading bit is. -/
theorem unitExponent_of_lt (hden : den ≠ 0) (hpos : 0 < (num : ℚ) / den)
    (h : (num : ℚ) / den < 2 ^ (-1022 : ℤ)) : unitExponent num den = -1074 := by
  have htwo : (1 : ℚ) < 2 := by norm_num
  obtain ⟨k, hlow, hhigh⟩ := exists_mem_Ico_zpow hpos htwo
  have hk : k < -1022 := (zpow_lt_zpow_iff_right₀ htwo).1 (hlow.trans_lt h)
  rw [unitExponent_eq hden hlow hhigh]
  omega

/-- The unit of a quotient near a number is the number's own, or half of it if the number is a
power of two. -/
theorem unitExponent_of_near (hden : den ≠ 0) (hx : x.significand ≠ 0)
    (h : |(num : ℚ) / den - x.absValue| < 2 ^ (-1075 : ℤ)) :
    unitExponent num den = x.exponent ∨
      unitExponent num den = x.exponent - 1 ∧ x.significand = 2 ^ 52 := by
  obtain ⟨hlow, hhigh⟩ := between_of_near h
  have hexp := x.exponent_ge
  have hunit : (0 : ℚ) < 2 ^ x.exponent := by positivity
  have hscale (k : ℤ) : (2 : ℚ) ^ (k + x.exponent) = 2 ^ k * 2 ^ x.exponent :=
    zpow_add₀ (by norm_num) _ _
  have hfraction := x.fraction_lt
  by_cases hfield : x.exponentField = 0
  · have hsig : x.significand < 2 ^ 52 := by simpa [significand, hfield] using hfraction
    have hleast : x.exponent = -1074 := by simp [exponent, hfield]
    -- What is near a number below the normal ones is below them, too, and has the least unit.
    have hsmall : (x.significand : ℚ) + 1 ≤ 2 ^ (52 : ℤ) := by exact_mod_cast hsig
    left
    rw [hleast] at hhigh ⊢
    refine unitExponent_of_lt hden (lt_trans (by positivity) (lt_of_near hx h)) ?_
    calc (num : ℚ) / den < (x.significand + 1 / 2) * 2 ^ (-1074 : ℤ) := hhigh
      _ ≤ 2 ^ (52 : ℤ) * 2 ^ (-1074 : ℤ) := by gcongr; linarith
      _ = 2 ^ (-1022 : ℤ) := by rw [← zpow_add₀ (by norm_num)]; norm_num
  · have hsig : x.significand = 2 ^ 52 + x.fraction := by simp [significand, hfield]
    have hsmall : (x.significand : ℚ) + 1 ≤ 2 ^ (53 : ℤ) := by exact_mod_cast x.significand_lt
    have hlarge : (2 : ℚ) ^ (52 : ℤ) ≤ x.significand := by
      rw [hsig]
      exact_mod_cast Nat.le_add_right _ _
    by_cases hbelow : (2 : ℚ) ^ (52 + x.exponent) ≤ num / den
    · have habove : (num : ℚ) / den < 2 ^ (52 + x.exponent + 1) :=
        calc (num : ℚ) / den < (x.significand + 1 / 2) * 2 ^ x.exponent := hhigh
          _ ≤ 2 ^ (53 : ℤ) * 2 ^ x.exponent := by gcongr; linarith
          _ = 2 ^ (52 + x.exponent + 1) := by rw [← hscale]; congr 1; omega
      left
      rw [unitExponent_eq hden hbelow habove]
      omega
    · -- Below the power of two only the power itself is near.
      rw [not_le] at hbelow
      have hpower : x.significand = 2 ^ 52 := by
        have hlt : (x.significand - 1 / 2 : ℚ) < 2 ^ (52 : ℤ) :=
          lt_of_mul_lt_mul_right (hlow.trans (hscale 52 ▸ hbelow)) hunit.le
        have hle : (x.significand : ℚ) < 2 ^ 52 + 1 := by
          rw [zpow_ofNat] at hlt
          linarith
        norm_cast at hle
        omega
      have hfar : (2 : ℚ) ^ (51 + x.exponent) ≤ num / den :=
        calc (2 : ℚ) ^ (51 + x.exponent) = 2 ^ (51 : ℤ) * 2 ^ x.exponent := hscale 51
          _ ≤ (x.significand - 1 / 2) * 2 ^ x.exponent := by
            gcongr
            rw [hpower]
            norm_num
          _ ≤ num / den := hlow.le
      have hunits := unitExponent_eq hden hfar (by rwa [add_right_comm])
      omega

/-- Over a unit of which the number is a multiple, a quotient near the number is rounded to the
multiple. -/
theorem roundQuotient_scaleDown_of_near (hden : den ≠ 0) {m : Nat} {e : Int} (he : -1074 ≤ e)
    (hm : x.absValue = m * 2 ^ e) (h : |(num : ℚ) / den - x.absValue| < 2 ^ (-1075 : ℤ)) :
    roundQuotient (scaleDown num den e).1 (scaleDown num den e).2 = m := by
  have hpow : (0 : ℚ) < 2 ^ e := by positivity
  apply roundQuotient_eq_of_near (scaleDown_snd_pos (Nat.pos_of_ne_zero hden) e)
  have hsplit : (num : ℚ) / den / 2 ^ e - m = (num / den - x.absValue) / 2 ^ e := by
    rw [hm]
    field_simp
  rw [scaleDown_ratio, hsplit, abs_div, abs_of_pos hpow, div_lt_iff₀ hpow]
  calc |(num : ℚ) / den - x.absValue| < 2 ^ (-1075 : ℤ) := h
    _ ≤ 2 ^ e / 2 := half_least_le he
    _ = 1 / 2 * 2 ^ e := by ring

/-- The unit's exponent and the significand make up the lower 63 bits. -/
theorem magnitude_eq (x : Binary64) :
    (x.exponent + 1074).toNat * 2 ^ 52 + x.significand = x.exponentField * 2 ^ 52 + x.fraction := by
  unfold exponent significand
  split <;> omega

/-- A quotient near a finite number is rounded to it. -/
theorem nearest?_of_near (hfinite : x.isFinite = true) (hden : den ≠ 0) (hx : x.significand ≠ 0)
    (h : |(num : ℚ) / den - x.absValue| < 2 ^ (-1075 : ℤ)) :
    nearest? x.signBit num den = some x := by
  have hnum : num ≠ 0 := by
    rintro rfl
    have hlow := lt_of_near hx h
    rw [Nat.cast_zero, zero_div] at hlow
    exact absurd hlow (by positivity : (0 : ℚ) < 2 ^ (-1075 : ℤ)).le.not_gt
  have hunits := unitExponent_ge num den
  have hmagnitude : (unitExponent num den + 1074).toNat * 2 ^ 52 +
      roundQuotient (scaleDown num den (unitExponent num den)).1
        (scaleDown num den (unitExponent num den)).2 =
      x.exponentField * 2 ^ 52 + x.fraction := by
    rw [← magnitude_eq]
    rcases unitExponent_of_near hden hx h with hunit | ⟨hunit, hpower⟩
    · rw [hunit, roundQuotient_scaleDown_of_near hden x.exponent_ge rfl h]
    · have hdouble : x.absValue = (2 ^ 53 : ℕ) * 2 ^ (x.exponent - 1) := by
        rw [absValue, hpower, zpow_sub_one₀ (by norm_num)]
        push_cast
        ring
      rw [hunit] at hunits ⊢
      rw [roundQuotient_scaleDown_of_near hden hunits hdouble h, hpower]
      omega
  simp only [nearest?, if_neg hnum, hmagnitude]
  rw [if_pos (magnitude_lt hfinite), ofMagnitude_signBit]

end Near

end Binary64

namespace Decimal

/-- The number of a decimal. -/
def absValue (d : Decimal) : ℚ := d.coefficient * 10 ^ d.exponent

theorem absValue_eq_zero_iff (d : Decimal) : d.absValue = 0 ↔ d.coefficient = 0 := by
  have hpow : (10 : ℚ) ^ d.exponent ≠ 0 := by positivity
  simp [absValue, hpow]

theorem width_pos (n : Nat) : 0 < width n := by
  unfold width
  split <;> omega

/-- The width of a positive number tells the powers of ten around it. -/
theorem width_bounds {n : Nat} (h : n ≠ 0) : 10 ^ (width n - 1) ≤ n ∧ n < 10 ^ width n := by
  fun_induction width n with
  | case1 n hlt => exact ⟨Nat.one_le_iff_ne_zero.2 h, hlt⟩
  | case2 n hge ih =>
    obtain ⟨hlow, hhigh⟩ := ih (by omega)
    obtain ⟨w, hw⟩ : ∃ w, width (n / 10) = w + 1 :=
      ⟨_, (Nat.succ_pred (width_pos (n / 10)).ne').symm⟩
    rw [hw] at hlow hhigh ⊢
    simp only [Nat.add_sub_cancel, Nat.pow_succ] at *
    omega

theorem natCast_zpow_lt {a b m n : Nat} (h : a ^ m < b ^ n) :
    (a : ℚ) ^ (m : ℤ) < (b : ℚ) ^ (n : ℤ) := by
  rw [zpow_natCast, zpow_natCast]
  exact_mod_cast h

theorem two_zpow_lt_ten_zpow : (2 : ℚ) ^ (1025 : ℤ) < 10 ^ (309 : ℤ) := by
  have h : 2 ^ 1025 < 10 ^ 309 := by decide +kernel
  simpa only [Nat.cast_ofNat] using natCast_zpow_lt h

/-- The place of `10 ^ -324` is finer than the least unit. -/
theorem ten_zpow_lt_two_zpow : (10 : ℚ) ^ (-324 : ℤ) < 2 ^ (-1075 : ℤ) := by
  have h : 2 ^ 1075 < 10 ^ 324 := by decide +kernel
  rw [zpow_neg, zpow_neg]
  apply inv_strictAnti₀ (by positivity)
  simpa only [Nat.cast_ofNat] using natCast_zpow_lt h

/-- The power of ten above a decimal near a number, as the reading of decimals estimates it. -/
theorem top_bounds {d : Decimal} {x : Binary64} (hfinite : x.isFinite = true)
    (hx : x.significand ≠ 0) (h : |d.absValue - x.absValue| < 2 ^ (-1075 : ℤ))
    (hd : d.coefficient ≠ 0) :
    -330 ≤ (width d.coefficient : ℤ) + d.exponent ∧
      (width d.coefficient : ℤ) + d.exponent ≤ 310 := by
  obtain ⟨hlow, hhigh⟩ := width_bounds hd
  have hten : (1 : ℚ) < 10 := by norm_num
  have hpow : (0 : ℚ) < 10 ^ d.exponent := by positivity
  have hwidth := width_pos d.coefficient
  -- The same bounds for rationals, where the exponent of ten can be negative.
  have hlow' : (10 : ℚ) ^ ((width d.coefficient : ℤ) - 1) ≤ d.coefficient := by
    have hcast : ((width d.coefficient : ℤ) - 1) = ((width d.coefficient - 1 : ℕ) : ℤ) := by omega
    rw [hcast, zpow_natCast]
    exact_mod_cast hlow
  have hhigh' : (d.coefficient : ℚ) < 10 ^ (width d.coefficient : ℤ) := by exact_mod_cast hhigh
  constructor
  · have hlt : (10 : ℚ) ^ (-324 : ℤ) < 10 ^ ((width d.coefficient : ℤ) + d.exponent) :=
      calc (10 : ℚ) ^ (-324 : ℤ) < 2 ^ (-1075 : ℤ) := ten_zpow_lt_two_zpow
        _ < d.absValue := Binary64.lt_of_near hx h
        _ < 10 ^ (width d.coefficient : ℤ) * 10 ^ d.exponent := mul_lt_mul_of_pos_right hhigh' hpow
        _ = _ := (zpow_add₀ (by norm_num) _ _).symm
    have := (zpow_lt_zpow_iff_right₀ hten).1 hlt
    omega
  · have hlt : (10 : ℚ) ^ ((width d.coefficient : ℤ) - 1 + d.exponent) < 10 ^ (309 : ℤ) :=
      calc (10 : ℚ) ^ ((width d.coefficient : ℤ) - 1 + d.exponent)
          = 10 ^ ((width d.coefficient : ℤ) - 1) * 10 ^ d.exponent := zpow_add₀ (by norm_num) _ _
        _ ≤ d.absValue := mul_le_mul_of_nonneg_right hlow' hpow.le
        _ < 2 ^ (1025 : ℤ) := Binary64.lt_two_zpow_of_near hfinite h
        _ < 10 ^ (309 : ℤ) := two_zpow_lt_ten_zpow
    have := (zpow_lt_zpow_iff_right₀ hten).1 hlt
    omega

/-- A decimal of moderate size is read as the number that its quotient is rounded to. -/
theorem nearest?_of_rounded {d : Decimal} {x : Binary64} (hd : d.coefficient ≠ 0)
    (hx : x.significand ≠ 0)
    (htop : -330 ≤ (width d.coefficient : ℤ) + d.exponent ∧
      (width d.coefficient : ℤ) + d.exponent ≤ 310)
    (h : ∀ num den : Nat, den ≠ 0 → (num : ℚ) / den = d.absValue →
      Binary64.nearest? x.signBit num den = some x) : d.nearest? x.signBit = some x := by
  have hzero : x.isZero = false := by
    simp only [Binary64.isZero, Binary64.significand] at *
    split at hx <;> simp_all
  have hrange : ¬ ((310 < (width d.coefficient : ℤ) + d.exponent ||
      (width d.coefficient : ℤ) + d.exponent < -330) = true) := by
    simp only [Bool.or_eq_true, decide_eq_true_eq]
    omega
  -- The power of ten stands above or below the line, by its sign.
  have hrounded : (if 0 ≤ d.exponent
      then Binary64.nearest? x.signBit (d.coefficient * 10 ^ d.exponent.toNat) 1
      else Binary64.nearest? x.signBit d.coefficient (10 ^ (-d.exponent).toNat)) = some x := by
    split
    · rename_i he
      apply h _ _ one_ne_zero
      rw [absValue, zpow_eq_pow_toNat he]
      push_cast
      rw [div_one]
    · rename_i he
      apply h _ _ (by positivity)
      rw [absValue, zpow_eq_inv_pow_toNat (by omega)]
      push_cast
      rw [div_eq_mul_inv]
  simp only [nearest?, if_neg hd, if_neg hrange, hrounded]
  simp [hzero]

/-- A decimal near a finite number is read as it. -/
theorem nearest?_of_near {d : Decimal} {x : Binary64} (hfinite : x.isFinite = true)
    (hx : x.significand ≠ 0) (h : |d.absValue - x.absValue| < 2 ^ (-1075 : ℤ)) :
    d.nearest? x.signBit = some x := by
  have hd : d.coefficient ≠ 0 := by
    intro hzero
    have hlow := Binary64.lt_of_near hx h
    rw [d.absValue_eq_zero_iff.2 hzero] at hlow
    exact absurd hlow (by positivity : (0 : ℚ) < 2 ^ (-1075 : ℤ)).le.not_gt
  refine nearest?_of_rounded hd hx (top_bounds hfinite hx h hd) fun num den hden hratio => ?_
  exact Binary64.nearest?_of_near hfinite hden hx (by rwa [hratio])

/-- A decimal equal to a finite number is read as it. -/
theorem nearest?_of_absValue {d : Decimal} {x : Binary64} (hfinite : x.isFinite = true)
    (h : d.absValue = x.absValue) : d.nearest? x.signBit = some x := by
  by_cases hx : x.significand = 0
  · have hd : d.coefficient = 0 := by
      rw [← absValue_eq_zero_iff, h, Binary64.absValue_eq_zero_iff, hx]
    have hmagnitude : x.exponentField * 2 ^ 52 + x.fraction = 0 := by
      unfold Binary64.significand at hx
      split at hx <;> omega
    have hself := x.ofMagnitude_signBit
    rw [hmagnitude] at hself
    rw [nearest?, if_pos hd, hself]
  · apply nearest?_of_near hfinite hx
    rw [h, sub_self, abs_zero]
    positivity

end Decimal

end RemoteCache
