import RemoteCache.Proofs.Binary64.Places

/-!
# Printed numbers are read back

The text of a finite number is in plain notation: an optional minus, digits, and perhaps a point
and more digits. There is no exponent in it and no other hyphen than the minus, and reading it
gives the number back, bit for bit.

## Main definitions

* `Decimal.Spells` — a text in plain notation and the decimal that it spells

## Main results

* `Decimal.Spells.readMagnitude?` — a plain text is read as the number nearest to its decimal
* `Binary64.spells_positional` — positional notation is plain
* `Binary64.exists_positional_shortestMagnitude` — the text of a finite number spells a decimal
  that is read as the number
* `Binary64.read?_shortest` — every number but a NaN is read back from its text
* `Binary64.hyphen_notMem_shortest` — without a minus, there is no hyphen in a text
* `Binary64.length_shortest_le` — no text has more than 342 bytes
-/

namespace RemoteCache

namespace Numeral

theorem length_padLeft (width : Nat) (b : Bytes) :
    (padLeft width b).length = max width b.length := by
  simp only [padLeft, List.length_append, List.length_replicate]
  omega

theorem value_zero_cons (b : Bytes) : value (48 :: b) = value b := rfl

@[simp]
theorem value_padLeft (width : Nat) (b : Bytes) : value (padLeft width b) = value b := by
  unfold padLeft
  induction width - b.length with
  | zero => rfl
  | succ k ih => rw [List.replicate_succ, List.cons_append, value_zero_cons, ih]

theorem isDigit_of_mem_padLeft {width n : Nat} {b : UInt8} (h : b ∈ padLeft width (ofNat n)) :
    isDigit b = true := by
  rcases List.mem_append.1 h with hzero | hdigit
  · rw [(List.mem_replicate.1 hzero).2]
    rfl
  · exact List.all_eq_true.1 (all_isDigit_ofNat n) b hdigit

theorem digitsOf_append {digits rest : Bytes} (hdigits : ∀ b ∈ digits, isDigit b = true)
    (hrest : ∀ b ∈ rest.head?, isDigit b = false) : digitsOf (digits ++ rest) = (digits, rest) := by
  unfold digitsOf
  rw [List.takeWhile_append_of_pos hdigits, List.dropWhile_append_of_pos hdigits]
  cases rest with
  | nil => simp
  | cons b rest => simp [hrest b rfl]

theorem digitsOf_of_all {digits : Bytes} (h : ∀ b ∈ digits, isDigit b = true) :
    digitsOf digits = (digits, []) := by
  have hsplit : digitsOf (digits ++ []) = (digits, []) := digitsOf_append h (by simp)
  rwa [List.append_nil] at hsplit

theorem toLower_digit_cons {first : UInt8} (h : isDigit first = true) (rest : Bytes) :
    Bytes.toLower (first :: rest) = first :: Bytes.toLower rest := by
  have hnot : ¬ (65 ≤ first && first ≤ 90) = true := by
    simp only [isDigit, Bool.and_eq_true, decide_eq_true_eq, UInt8.le_iff_toNat_le] at *
    simp at *
    omega
  simp only [Bytes.toLower, List.map_cons, if_neg hnot]

theorem length_ofNat (n : Nat) : (ofNat n).length = Decimal.width n := by
  fun_induction ofNat n with
  | case1 n h =>
    rw [Decimal.width, if_pos h]
    rfl
  | case2 n h ih => rw [Decimal.width, if_neg h, List.length_append, ih, List.length_singleton]

end Numeral

open Numeral

namespace Decimal

/-- A text in plain notation, digits with or without a point among them, and the decimal that it
spells. -/
inductive Spells : Bytes → Decimal → Prop
  | whole {digits : Bytes} (hne : digits ≠ []) (hdigits : ∀ b ∈ digits, isDigit b = true) :
      Spells digits ⟨value digits, 0⟩
  | pointed {whole part : Bytes} (hne : whole ≠ []) (hwhole : ∀ b ∈ whole, isDigit b = true)
      (hpart : ∀ b ∈ part, isDigit b = true) :
      Spells (whole ++ 46 :: part) ⟨value (whole ++ part), -(part.length : Int)⟩

namespace Spells

variable {b : Bytes} {d : Decimal}

protected theorem read? (h : Spells b d) : Decimal.read? b = some d := by
  cases h with
  | whole hne hdigits =>
    have hsplit := digitsOf_of_all hdigits
    simp [Decimal.read?, hsplit, hne, readExponent?]
  | @pointed whole part hne hwhole hpart =>
    have hsplit : digitsOf (whole ++ 46 :: part) = (whole, 46 :: part) :=
      digitsOf_append hwhole (by simp [isDigit])
    have hsplit' := digitsOf_of_all hpart
    simp [Decimal.read?, hsplit, hsplit', hne, readExponent?]

/-- A plain text begins with a digit. -/
theorem exists_digit (h : Spells b d) : ∃ first rest, b = first :: rest ∧ isDigit first = true := by
  have hcons {digits : Bytes} (hne : digits ≠ []) (hdigits : ∀ b ∈ digits, isDigit b = true) :
      ∃ first rest, digits = first :: rest ∧ isDigit first = true := by
    obtain ⟨first, rest, rfl⟩ := List.exists_cons_of_ne_nil hne
    exact ⟨first, rest, rfl, hdigits first List.mem_cons_self⟩
  cases h with
  | whole hne hdigits => exact hcons hne hdigits
  | pointed hne hwhole hpart =>
    obtain ⟨first, rest, rfl, hfirst⟩ := hcons hne hwhole
    exact ⟨first, _, rfl, hfirst⟩

theorem hyphen_notMem (h : Spells b d) : (45 : UInt8) ∉ b := by
  have hdigit {digits : Bytes} (hdigits : ∀ b ∈ digits, isDigit b = true) :
      (45 : UInt8) ∉ digits := by
    intro hmem
    have := hdigits 45 hmem
    simp [isDigit] at this
  cases h with
  | whole hne hdigits => exact hdigit hdigits
  | pointed hne hwhole hpart =>
    simp only [List.mem_append, List.mem_cons, not_or]
    exact ⟨hdigit hwhole, by decide, hdigit hpart⟩

/-- What begins with a digit spells neither an infinity nor a NaN. -/
theorem readMagnitude? (h : Spells b d) (negative : Bool) :
    Binary64.readMagnitude? negative b = d.nearest? negative := by
  obtain ⟨first, rest, rfl, hfirst⟩ := h.exists_digit
  have hletter (letter : UInt8) (hnot : isDigit letter = false) : first ≠ letter := by
    rintro rfl
    simp [hfirst] at hnot
  have hinfinity : Binary64.spellsInfinity (first :: rest) = false := by
    simp [Binary64.spellsInfinity, toLower_digit_cons hfirst, Bytes.ascii, hletter 105 rfl]
  have hnan : Binary64.spellsNaN (first :: rest) = false := by
    simp [Binary64.spellsNaN, toLower_digit_cons hfirst, Bytes.ascii, Bytes.after?,
      (hletter 110 rfl).symm]
  simp [Binary64.readMagnitude?, hinfinity, hnan, h.read?]

end Spells

/-- Decimals that are read at all are not wide. -/
theorem width_le_of_nearest? {d : Decimal} {negative : Bool} {x : Binary64}
    (h : d.nearest? negative = some x) :
    (width d.coefficient : Int) ≤ max 1 (310 - d.exponent) := by
  by_cases hzero : d.coefficient = 0
  · rw [hzero, width]
    exact le_max_left _ _
  · by_contra hwide
    have hrange : (310 < (width d.coefficient : Int) + d.exponent ||
        (width d.coefficient : Int) + d.exponent < -330) = true := by
      simp only [Bool.or_eq_true, decide_eq_true_eq]
      omega
    simp only [nearest?, if_neg hzero, if_pos hrange] at h
    cases h

theorem width_le_of_nearest?_whole {n : Nat} {negative : Bool} {x : Binary64}
    (h : nearest? negative ⟨n, 0⟩ = some x) : width n ≤ 310 := by
  have hwidth := width_le_of_nearest? h
  simp only at hwidth
  omega

end Decimal

namespace Binary64

/-! ### Positional notation -/

theorem positional_zero (n : Nat) : positional n 0 = ofNat n := by
  have hpad : padLeft 1 (ofNat n) = ofNat n := by
    have hpos : 0 < (ofNat n).length := List.length_pos_iff.2 (ofNat_ne_nil n)
    have hzero : 1 - (ofNat n).length = 0 := by omega
    simp [padLeft, hzero]
  simp [positional, hpad]

/-- Positional notation is plain, and spells what it was made from. -/
theorem spells_positional (point places : Nat) :
    Decimal.Spells (positional point places) ⟨point, -(places : Int)⟩ := by
  have hlen := length_padLeft (places + 1) (ofNat point)
  have hmem : ∀ b ∈ padLeft (places + 1) (ofNat point), isDigit b = true :=
    fun b hb => isDigit_of_mem_padLeft hb
  have hvalue : value (padLeft (places + 1) (ofNat point)) = point := by simp
  simp only [positional]
  -- From here on only the length, the digits and the value of the padded text matter.
  generalize padLeft (places + 1) (ofNat point) = digits at *
  have hne : digits.take (digits.length - places) ≠ [] := by
    rw [← List.length_pos_iff, List.length_take]
    omega
  have htake : ∀ b ∈ digits.take (digits.length - places), isDigit b = true :=
    fun b hb => hmem b (List.mem_of_mem_take hb)
  have hdrop : ∀ b ∈ digits.drop (digits.length - places), isDigit b = true :=
    fun b hb => hmem b (List.mem_of_mem_drop hb)
  split
  · rename_i hzero
    have hall : digits.take (digits.length - places) = digits := by simp [hzero]
    have h := Decimal.Spells.whole hne htake
    rw [hall, hvalue] at h
    simpa [hzero] using h
  · have h := Decimal.Spells.pointed hne htake hdrop
    have hplaces : (digits.drop (digits.length - places)).length = places := by
      rw [List.length_drop]
      omega
    rwa [List.take_append_drop, hvalue, hplaces] at h

theorem length_positional_le (point places : Nat) :
    (positional point places).length ≤ max (places + 1) (Decimal.width point) + 1 := by
  have hlen := length_padLeft (places + 1) (ofNat point)
  rw [length_ofNat] at hlen
  simp only [positional]
  split <;> simp only [List.length_append, List.length_take, List.length_cons, List.length_drop] <;>
    omega

/-! ### The text of a finite number -/

/-- A number with no bits behind the point is a whole number. -/
theorem absValue_of_nonneg {x : Binary64} (h : 0 ≤ x.exponent) :
    Decimal.absValue ⟨x.significand * 2 ^ x.exponent.toNat, 0⟩ = x.absValue := by
  simp only [Decimal.absValue, absValue, zpow_eq_pow_toNat h]
  push_cast
  simp

/-- So is one whose bits behind the point are all zero. -/
theorem absValue_of_mod_eq_zero {x : Binary64} (h : x.exponent ≤ 0)
    (hmod : x.significand % 2 ^ (-x.exponent).toNat = 0) :
    Decimal.absValue ⟨x.significand / 2 ^ (-x.exponent).toNat, 0⟩ = x.absValue := by
  have hdiv : x.significand = x.significand / 2 ^ (-x.exponent).toNat *
      2 ^ (-x.exponent).toNat := by
    have hsplit := Nat.div_add_mod x.significand (2 ^ (-x.exponent).toNat)
    rw [hmod, Nat.add_zero, Nat.mul_comm] at hsplit
    exact hsplit.symm
  have hcast : (x.significand : ℚ) =
      (x.significand / 2 ^ (-x.exponent).toNat : ℕ) * 2 ^ (-x.exponent).toNat := by
    exact_mod_cast hdiv
  have hpow : (2 : ℚ) ^ (-x.exponent).toNat ≠ 0 := by positivity
  simp only [Decimal.absValue, absValue]
  rw [zpow_eq_inv_pow_toNat h, hcast]
  field_simp

/-- A half has one decimal, which is a five, and so on with every further bit. -/
theorem absValue_of_nonpos {x : Binary64} (h : x.exponent ≤ 0) :
    Decimal.absValue ⟨x.significand * 5 ^ (-x.exponent).toNat,
      -(((-x.exponent).toNat : ℕ) : ℤ)⟩ = x.absValue := by
  have hten : (10 : ℚ) ^ (-(((-x.exponent).toNat : ℕ) : ℤ)) =
      (5 ^ (-x.exponent).toNat * 2 ^ (-x.exponent).toNat)⁻¹ := by
    rw [zpow_neg, zpow_natCast, ← mul_pow]
    norm_num
  have hpow : (2 : ℚ) ^ (-x.exponent).toNat ≠ 0 := by positivity
  simp only [Decimal.absValue, absValue]
  push_cast
  rw [hten, zpow_eq_inv_pow_toNat h]
  field_simp

/-- The text of a finite number spells, in positional notation, a decimal of moderate size that is
read as the number. -/
theorem exists_positional_shortestMagnitude {x : Binary64} (hfinite : x.isFinite = true) :
    ∃ point places : Nat,
      (places ≤ 324 ∧ Decimal.width point ≤ max (places + 16) 310) ∧
      x.shortestMagnitude = positional point places ∧
      Decimal.nearest? x.signBit ⟨point, -(places : Int)⟩ = some x := by
  simp only [shortestMagnitude]
  split
  · rename_i hnonneg
    have hread := Decimal.nearest?_of_absValue hfinite (absValue_of_nonneg hnonneg)
    have hwidth := Decimal.width_le_of_nearest?_whole hread
    exact ⟨_, 0, ⟨by omega, by omega⟩, (positional_zero _).symm, hread⟩
  · rename_i hneg
    have hnonpos : x.exponent ≤ 0 := by omega
    split
    · rename_i hmod
      have hread := Decimal.nearest?_of_absValue hfinite (absValue_of_mod_eq_zero hnonpos hmod)
      have hwidth := Decimal.width_le_of_nearest?_whole hread
      exact ⟨_, 0, ⟨by omega, by omega⟩, (positional_zero _).symm, hread⟩
    · rename_i hmod
      have hx : x.significand ≠ 0 := by
        intro hzero
        simp [hzero] at hmod
      have hunit : 2 ≤ 2 ^ (-x.exponent).toNat :=
        le_self_pow₀ (by decide) (by omega : (-x.exponent).toNat ≠ 0)
      split
      · -- The search tries every candidate by reading it back.
        rename_i point places hfound
        have hplaces := places_le_of_shortestPoint? hfinite hx hnonpos hfound
        have hwidth :=
          width_le_of_mem_candidates hunit (mem_candidates_of_shortestPoint? hfound).2
        have hback := readsBack_of_shortestPoint? hfound
        exact ⟨point, places, ⟨hplaces, by omega⟩, rfl, by simpa [readsBack] using hback⟩
      · -- The last resort writes all the decimals there are. It is needed only if they are few.
        rename_i hnone
        have hplaces := limit_lt_of_shortestPoint?_eq_none hfinite hx hnonpos hnone
        have hwidth := x.width_exact_le (-x.exponent).toNat
        exact ⟨_, _, ⟨hplaces.le, by omega⟩, rfl,
          Decimal.nearest?_of_absValue hfinite (absValue_of_nonpos hnonpos)⟩

/-! ### The text of a number -/

/-- A number that is no NaN is finite or one of the infinities. -/
theorem isFinite_or_eq_infinity {x : Binary64} (h : x.isNaN = false) :
    x.isFinite = true ∨ x = infinity x.signBit := by
  by_cases hfield : x.exponentField = topExponent
  · have hfraction : x.fraction = 0 := by simpa [isNaN, hfield] using h
    have hself := x.ofMagnitude_signBit
    rw [hfield, hfraction, Nat.add_zero] at hself
    exact .inr hself.symm
  · exact .inl (by simp [isFinite, hfield])

theorem shortest_of_isFinite {x : Binary64} (h : x.isFinite = true) :
    x.shortest = if x.signBit then 45 :: x.shortestMagnitude else x.shortestMagnitude := by
  have hfield : x.exponentField ≠ topExponent := by simpa [isFinite] using h
  simp [shortest, isNaN, isInfinite, hfield]

theorem shortest_infinity (negative : Bool) :
    (infinity negative).shortest = Bytes.ascii (if negative then "-inf" else "inf") := by
  cases negative <;> rfl

theorem exists_cons_shortest {x : Binary64} (h : x.signBit = true) :
    ∃ rest, x.shortest = 45 :: rest := by
  simp [shortest, h]

theorem read?_of_spells {b : Bytes} {d : Decimal} (h : Decimal.Spells b d) :
    read? b = d.nearest? false := by
  rw [← h.readMagnitude? false]
  obtain ⟨first, rest, rfl, hfirst⟩ := h.exists_digit
  have hne : first ≠ 45 := by
    rintro rfl
    simp [isDigit] at hfirst
  unfold read?
  split
  · rename_i heq
    exact absurd (List.cons.inj heq).1 hne
  · rfl

/-- Every number but a NaN is read back from its text, bit for bit. -/
theorem read?_shortest {x : Binary64} (h : x.isNaN = false) : read? x.shortest = some x := by
  rcases isFinite_or_eq_infinity h with hfinite | hinfinity
  · obtain ⟨point, places, -, htext, hread⟩ := exists_positional_shortestMagnitude hfinite
    have hspells := spells_positional point places
    rw [shortest_of_isFinite hfinite, htext]
    cases hsign : x.signBit with
    | false =>
      rw [hsign] at hread
      exact (read?_of_spells hspells).trans hread
    | true =>
      rw [hsign] at hread
      exact (hspells.readMagnitude? true).trans hread
  · rw [hinfinity, shortest_infinity]
    cases x.signBit <;> rfl

/-- Without a minus in front, there is no hyphen in a text. -/
theorem hyphen_notMem_shortest {x : Binary64} (h : x.isNaN = false) (hsign : x.signBit = false) :
    (45 : UInt8) ∉ x.shortest := by
  rcases isFinite_or_eq_infinity h with hfinite | hinfinity
  · obtain ⟨point, places, -, htext, -⟩ := exists_positional_shortestMagnitude hfinite
    rw [shortest_of_isFinite hfinite, htext, if_neg (by simp [hsign])]
    exact (spells_positional point places).hyphen_notMem
  · rw [hinfinity, shortest_infinity, hsign]
    decide

/-- No text is long: there are at most 310 digits in a whole number, and otherwise at most 324
behind the point and 16 in front of it. -/
theorem length_shortest_le (x : Binary64) : x.shortest.length ≤ 342 := by
  cases hnan : x.isNaN with
  | true =>
    simp only [shortest, hnan, if_true]
    split <;> decide
  | false =>
    rcases isFinite_or_eq_infinity hnan with hfinite | hinfinity
    · obtain ⟨point, places, ⟨hplaces, hwidth⟩, htext, -⟩ :=
        exists_positional_shortestMagnitude hfinite
      have hlen := length_positional_le point places
      rw [shortest_of_isFinite hfinite, htext]
      split
      · rw [List.length_cons]
        omega
      · omega
    · rw [hinfinity, shortest_infinity]
      cases x.signBit <;> decide

end Binary64

end RemoteCache
