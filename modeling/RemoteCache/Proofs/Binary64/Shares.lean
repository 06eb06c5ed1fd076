import RemoteCache.Proofs.Binary64.Representable

/-!
# Shares of a whole

A part of a whole is not more than one, and neither is the number that it is rounded to. It can
come out as one although something is missing, but never as more, and there is always a number to
round it to. The same holds if the part and the whole are rounded before, since that keeps their
order.

## Main definitions

* `Binary64.IsShare` — a number from nought to one

## Main results

* `Binary64.integerNear_mono`, `Binary64.integerNear_of_lt` — integers are rounded in order, and up
  to fifty-three bits not at all
* `Binary64.absValue_le_one` — the patterns up to that of one stand for numbers up to one
* `Binary64.exists_unit_of_le` — the unit of a share is small enough for it
* `Binary64.nearest?_of_le` — a part of a whole is rounded to a share
-/

namespace RemoteCache

/-! ### Rounding in order -/

theorem roundQuotient_mul (m : Nat) {den : Nat} (hden : 0 < den) :
    roundQuotient (m * den) den = m := by
  simp [roundQuotient, hden]

/-- The larger of two quotients is not rounded to less. -/
theorem roundQuotient_mono {num num' den : Nat} (hden : 0 < den) (h : num ≤ num') :
    roundQuotient num den ≤ roundQuotient num' den := by
  by_contra hless
  have hup := roundQuotient_le num den
  have hdown := @le_roundQuotient num' den hden
  have hstep : (roundQuotient num' den + 1) * den ≤ roundQuotient num den * den :=
    Nat.mul_le_mul_right den (Nat.not_le.1 hless)
  rw [Nat.succ_mul] at hstep
  -- Both would be off by one half, and then they are the same quotient.
  obtain rfl : num = num' := by omega
  exact hless le_rfl

/-- What is not more than an integer is not rounded to more. -/
theorem roundQuotient_le_of_le {num den m : Nat} (hden : 0 < den) (h : num ≤ m * den) :
    roundQuotient num den ≤ m :=
  (roundQuotient_mono hden h).trans_eq (roundQuotient_mul m hden)

namespace Binary64

section Integers

variable {n m : Nat}

/-- An integer of fifty-three bits is a floating-point number itself. -/
theorem integerNear_of_lt (h : n < 2 ^ 53) : integerNear n = n := by
  have hunit : n.log2 - 52 = 0 := by
    rcases Nat.eq_zero_or_pos n with rfl | hpos
    · rfl
    · have := (Nat.log2_lt hpos.ne').2 h
      omega
  have hround := roundQuotient_mul n Nat.one_pos
  rw [Nat.mul_one] at hround
  simp only [integerNear, hunit, Nat.pow_zero, hround, Nat.mul_one]

/-- The powers of two on either side of an integer are floating-point numbers. -/
theorem two_pow_le_integerNear (hn : n ≠ 0) : 2 ^ n.log2 ≤ integerNear n := by
  have hunit : 0 < 2 ^ (n.log2 - 52) := Nat.two_pow_pos _
  have hpow : 2 ^ n.log2 = 2 ^ (n.log2 - (n.log2 - 52)) * 2 ^ (n.log2 - 52) := by
    rw [← Nat.pow_add]
    congr 1
    omega
  have hround := roundQuotient_mono hunit (hpow ▸ Nat.log2_self_le hn)
  rw [roundQuotient_mul _ hunit] at hround
  exact hpow.trans_le (Nat.mul_le_mul_right _ hround)

theorem integerNear_le_two_pow (n : Nat) : integerNear n ≤ 2 ^ (n.log2 + 1) := by
  have hpow : 2 ^ (n.log2 + 1) = 2 ^ (n.log2 + 1 - (n.log2 - 52)) * 2 ^ (n.log2 - 52) := by
    rw [← Nat.pow_add]
    congr 1
    omega
  have hround := roundQuotient_le_of_le (Nat.two_pow_pos _) (hpow ▸ Nat.lt_log2_self.le)
  exact (Nat.mul_le_mul_right _ hround).trans_eq hpow.symm

theorem integerNear_pos (hn : 0 < n) : 0 < integerNear n :=
  (Nat.two_pow_pos _).trans_le (two_pow_le_integerNear hn.ne')

theorem integerNear_mono (h : n ≤ m) : integerNear n ≤ integerNear m := by
  rcases Nat.eq_zero_or_pos n with rfl | hn
  · exact Nat.zero_le _
  have hm : m ≠ 0 := (hn.trans_le h).ne'
  have hlog : n.log2 ≤ m.log2 := (Nat.le_log2 hm).2 ((Nat.log2_self_le hn.ne').trans h)
  rcases hlog.lt_or_eq with hlt | heq
  · -- There is a power of two between them.
    calc integerNear n ≤ 2 ^ (n.log2 + 1) := integerNear_le_two_pow n
      _ ≤ 2 ^ m.log2 := Nat.pow_le_pow_right Nat.two_pos hlt
      _ ≤ integerNear m := two_pow_le_integerNear hm
  · unfold integerNear
    rw [heq]
    exact Nat.mul_le_mul_right _ (roundQuotient_mono (Nat.two_pow_pos _) h)

end Integers

/-! ### Numbers from nought to one -/

variable {x : Binary64} {num den : Nat}

/-- A finite number from nought to one. -/
structure IsShare (x : Binary64) : Prop where
  isFinite : x.isFinite = true
  signBit : x.signBit = false
  absValue_le : x.absValue ≤ 1

theorem isShare_zero : zero.IsShare where
  isFinite := rfl
  signBit := rfl
  absValue_le := by
    rw [(absValue_eq_zero_iff zero).2 rfl]
    exact zero_le_one

/-- The lower 63 bits of the number one. -/
def oneMagnitude : Nat := 1023 * 2 ^ 52

theorem absValue_le_one (h : x.exponentField * 2 ^ 52 + x.fraction ≤ oneMagnitude) :
    x.absValue ≤ 1 := by
  unfold oneMagnitude at h
  rcases Nat.lt_or_ge x.exponentField 1023 with hfield | hfield
  · have hexp : x.exponent ≤ -53 := by
      unfold exponent
      omega
    have hsig : (x.significand : ℚ) ≤ 2 ^ (53 : ℤ) := by exact_mod_cast x.significand_lt.le
    calc x.absValue ≤ 2 ^ (53 : ℤ) * 2 ^ (-53 : ℤ) :=
          mul_le_mul hsig (zpow_le_zpow_right₀ (by norm_num) hexp) (by positivity) (by positivity)
      _ = 1 := by rw [← zpow_add₀ (by norm_num)]; norm_num
  · -- Above the lower exponents there is only the pattern of one itself.
    have hone : x.exponentField = 1023 := by omega
    have hnone : x.fraction = 0 := by omega
    have hsig : x.significand = 2 ^ 52 := by simp [significand, hone, hnone]
    have hexp : x.exponent = -52 := by simp [exponent, hone]
    rw [absValue, hsig, hexp]
    norm_num

theorem fields_ofMagnitude {magnitude : Nat} (h : magnitude < 2 ^ 63) :
    (ofMagnitude false magnitude).exponentField * 2 ^ 52 + (ofMagnitude false magnitude).fraction =
      magnitude := by
  have hbits : (ofMagnitude false magnitude).bits.toNat = magnitude :=
    UInt64.toNat_ofNat_of_lt' (h.trans (by decide))
  simp only [exponentField, fraction, hbits]
  omega

/-- Below a power of two of which the unit is a part, a quotient is rounded to no more than so many
units. -/
theorem roundQuotient_scaleDown_le {k e : Int} (hden : 0 < den) (h : (num : ℚ) / den ≤ 2 ^ k)
    (he : e ≤ k) :
    roundQuotient (scaleDown num den e).1 (scaleDown num den e).2 ≤ 2 ^ (k - e).toNat := by
  have hunit : 0 < (scaleDown num den e).2 := scaleDown_snd_pos hden e
  have hunit' : (0 : ℚ) < (scaleDown num den e).2 := by exact_mod_cast hunit
  have hpow : (0 : ℚ) < 2 ^ e := by positivity
  have hscaled : ((scaleDown num den e).1 : ℚ) / (scaleDown num den e).2 ≤ 2 ^ (k - e).toNat :=
    calc ((scaleDown num den e).1 : ℚ) / (scaleDown num den e).2
        = num / den / 2 ^ e := scaleDown_ratio num den e
      _ ≤ 2 ^ k / 2 ^ e := div_le_div_of_nonneg_right h hpow.le
      _ = 2 ^ (k - e) := (zpow_sub₀ (by norm_num) k e).symm
      _ = 2 ^ (k - e).toNat := zpow_eq_pow_toNat (by omega)
  rw [div_le_iff₀ hunit'] at hscaled
  exact roundQuotient_le_of_le hunit (by exact_mod_cast hscaled)

/-- The unit of a share is a part of some power of two above it. It is so small that the share has
fifty-two bits at most, or else fifty-three, and then the share is not one. -/
theorem exists_unit_of_le (hden : 0 < den) (h : num ≤ den) :
    ∃ k e : Int, (if num = 0 then -1074 else unitExponent num den) = e ∧ (num : ℚ) / den ≤ 2 ^ k ∧
      e ≤ k ∧ -1074 ≤ e ∧ (k - e ≤ 52 ∧ e ≤ -52 ∨ k - e = 53 ∧ e ≤ -53) := by
  by_cases hnum : num = 0
  · refine ⟨-1074, -1074, if_pos hnum, ?_, le_rfl, le_rfl, .inl (by omega)⟩
    rw [hnum, Nat.cast_zero, zero_div]
    positivity
  · have hpos : (0 : ℚ) < num / den := by
      have := Nat.pos_of_ne_zero hnum
      positivity
    have hone : (num : ℚ) / den ≤ 2 ^ (0 : ℤ) := by
      rw [zpow_zero, div_le_one (by exact_mod_cast hden)]
      exact_mod_cast h
    obtain ⟨k, hlow, hhigh⟩ := exists_mem_Ico_zpow hpos (by norm_num : (1 : ℚ) < 2)
    have hunit := unitExponent_eq hden.ne' hlow hhigh
    have hk : k ≤ 0 := (zpow_le_zpow_iff_right₀ (by norm_num)).1 (hlow.trans hone)
    rcases hk.lt_or_eq with hlt | rfl
    · -- A share below the least unit is below the unit itself.
      refine ⟨max (k + 1) (-1074), max (k - 52) (-1074), ?_, ?_, by omega, by omega, by omega⟩
      · rw [if_neg hnum, hunit]
      · exact hhigh.le.trans (zpow_le_zpow_right₀ (by norm_num) (le_max_left _ _))
    · refine ⟨0, -52, ?_, hone, by decide, by decide, .inl (by decide)⟩
      rw [if_neg hnum, hunit]
      rfl

/-- A part of a whole is rounded to a share. -/
theorem nearest?_of_le (hden : 0 < den) (h : num ≤ den) :
    ∃ x, nearest? false num den = some x ∧ x.IsShare := by
  obtain ⟨k, e, hunit, hratio, hle, hlow, hsmall⟩ := exists_unit_of_le hden h
  have hround := roundQuotient_scaleDown_le hden hratio hle
  have hmagnitude : (e + 1074).toNat * 2 ^ 52 +
      roundQuotient (scaleDown num den e).1 (scaleDown num den e).2 ≤ oneMagnitude := by
    unfold oneMagnitude
    rcases hsmall with ⟨hbits, he⟩ | ⟨hbits, he⟩
    · have hpow : 2 ^ (k - e).toNat ≤ 2 ^ 52 := Nat.pow_le_pow_right (by decide) (by omega)
      omega
    · have hpow : 2 ^ (k - e).toNat = 2 ^ 53 := by rw [hbits]; rfl
      omega
  unfold nearest?
  dsimp only
  rw [hunit]
  generalize (e + 1074).toNat * 2 ^ 52 +
      roundQuotient (scaleDown num den e).1 (scaleDown num den e).2 = magnitude at hmagnitude ⊢
  have hfinite : magnitude < infinityMagnitude := hmagnitude.trans_lt (by decide)
  have hword : magnitude < 2 ^ 63 := hfinite.trans (by decide)
  have hfields := fields_ofMagnitude hword
  refine ⟨ofMagnitude false magnitude, if_pos hfinite, ?_, signBit_ofMagnitude hword,
    absValue_le_one (hfields.trans_le hmagnitude)⟩
  have hfield : (ofMagnitude false magnitude).exponentField ≠ topExponent := by
    unfold oneMagnitude at hmagnitude
    unfold topExponent
    omega
  simpa [isFinite] using hfield

end Binary64

end RemoteCache
