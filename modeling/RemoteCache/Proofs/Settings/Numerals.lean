import RemoteCache.Proofs.Settings.Files

/-!
# Integers as they are written

The number of a setting is written in decimal digits. White space may stand in front of them, and
then a sign. A text is read as the integer that it denotes, provided that 64 bits hold it and that
it is not negative; every other text is refused, in words that tell whether a number was found.

## Main definitions

* `Numeral.Denotes` — a text that denotes an integer
* `Numeral.Begins` — a text that begins with one
* `Settings.Key.Means`, `Settings.Key.Refuses` — the value that a text stands for, and why it may
  stand for none

## Main results

* `Numeral.readLeading?_eq_some_iff`, `Numeral.readLeading?_eq_none_iff` — the number that is found
  at the front of a text
* `Numeral.Denotes.unique` — a text denotes one integer at most
* `Settings.Key.valueOf_eq_ok_iff`, `Settings.Key.valueOf_eq_error_iff` — a text is read as the
  value that it stands for, and refused otherwise
-/

namespace RemoteCache

namespace Numeral

open Bytes

/-- A sign, or none, with the factor that it stands for. -/
inductive Signs : Bytes → Int → Prop
  | none : Signs [] 1
  | plus : Signs [43] 1
  | minus : Signs [45] (-1)

/-- A text that denotes an integer: decimal digits, with a sign in front of them or none, and white
space in front of both. -/
inductive Denotes : Bytes → Int → Prop
  | intro {margin mark digits : Bytes} {sign : Int} {n : Nat} (hmargin : AllBlank isSpace margin)
    (hsign : Signs mark sign) (hdigits : Spells digits n) :
    Denotes (margin ++ mark ++ digits) (sign * n)

/-- A text that begins with an integer, to which all the digits belong that stand there. -/
def Begins (text : Bytes) (z : Int) (rest : Bytes) : Prop :=
  ∃ front, text = front ++ rest ∧ Denotes front z ∧ ∀ c ∈ rest.head?, isDigit c = false

variable {text front rest rest' : Bytes} {z z' : Int}

/-- Digits alone denote the number that they spell. -/
theorem Spells.denotes {digits : Bytes} {n : Nat} (h : Spells digits n) : Denotes digits n := by
  have hnone : AllBlank isSpace [] := nofun
  simpa using Denotes.intro hnone .none h

theorem begins_nil_iff : Begins text z [] ↔ Denotes text z := by
  simp [Begins]

theorem Signs.signOf_append {mark : Bytes} {sign : Int} (h : Signs mark sign) {first : UInt8}
    (hfirst : isDigit first = true) (rest : Bytes) :
    signOf (mark ++ first :: rest) = (sign, first :: rest) := by
  cases h with
  | none => exact signOf_of_isDigit hfirst rest
  | plus | minus => rfl

theorem exists_signs (b : Bytes) :
    ∃ mark, Signs mark (signOf b).1 ∧ b = mark ++ (signOf b).2 := by
  cases b with
  | nil => exact ⟨[], .none, rfl⟩
  | cons c rest =>
    by_cases hminus : c = 45
    · subst hminus
      exact ⟨[45], .minus, rfl⟩
    · by_cases hplus : c = 43
      · subst hplus
        exact ⟨[43], .plus, rfl⟩
      · rw [signOf, if_neg hminus, if_neg hplus]
        exact ⟨[], .none, rfl⟩

/-- White space ends at a sign or at a digit. -/
theorem Signs.dropWhile_isSpace {mark : Bytes} {sign : Int} (h : Signs mark sign) {first : UInt8}
    (hfirst : isDigit first = true) (rest : Bytes) :
    (mark ++ first :: rest).dropWhile isSpace = mark ++ first :: rest := by
  cases h with
  | none => exact List.dropWhile_cons_of_neg (by simp [isSpace_of_isDigit hfirst])
  | plus | minus => rfl

/-- The sign and the digits in front of a text are found, whatever follows them. -/
theorem Denotes.exists_digits (h : Denotes front z) (rest : Bytes) :
    ∃ sign digits, signOf ((front ++ rest).dropWhile isSpace) = (sign, digits ++ rest) ∧
      digits ≠ [] ∧ (∀ b ∈ digits, isDigit b = true) ∧ z = sign * (value digits : Nat) := by
  obtain ⟨hmargin, hsign, hne, hdigits, rfl⟩ := h
  rename_i margin mark digits sign
  refine ⟨sign, digits, ?_, hne, hdigits, rfl⟩
  cases digits with
  | nil => exact absurd rfl hne
  | cons first digits =>
    have hfirst := hdigits first (List.mem_cons_self ..)
    rw [List.append_assoc, List.append_assoc, List.dropWhile_append_of_pos hmargin,
      List.cons_append, hsign.dropWhile_isSpace hfirst, hsign.signOf_append hfirst]

/-- A text begins with one integer at most. -/
theorem Begins.unique (h : Begins text z rest) (h' : Begins text z' rest') :
    z = z' ∧ rest = rest' := by
  obtain ⟨front, rfl, hfront, hrest⟩ := h
  obtain ⟨front', heq, hfront', hrest'⟩ := h'
  -- Both integers are found where the white space ends, and there the sign is the same.
  obtain ⟨sign, digits, hsign, -, hdigits, rfl⟩ := hfront.exists_digits rest
  obtain ⟨sign', digits', hsign', -, hdigits', rfl⟩ := hfront'.exists_digits rest'
  rw [heq, hsign', Prod.mk.injEq] at hsign
  obtain ⟨rfl, hafter⟩ := hsign
  have hcut := digitsOf_append hdigits hrest
  rw [← hafter, digitsOf_append hdigits' hrest', Prod.mk.injEq] at hcut
  obtain ⟨rfl, rfl⟩ := hcut
  exact ⟨rfl, rfl⟩

theorem Denotes.unique (h : Denotes text z) (h' : Denotes text z') : z = z' :=
  ((begins_nil_iff.2 h).unique (begins_nil_iff.2 h')).1

/-- The integer that a text begins with is read, unless 64 bits do not hold it. -/
theorem Begins.readLeading?_eq (h : Begins text z rest) :
    readLeading? text = if z < -2 ^ 63 ∨ 2 ^ 63 ≤ z then none else some (z, rest) := by
  obtain ⟨front, rfl, hfront, hrest⟩ := h
  obtain ⟨sign, digits, hsign, hne, hdigits, rfl⟩ := hfront.exists_digits rest
  unfold readLeading?
  rw [hsign]
  dsimp only
  rw [digitsOf_append hdigits hrest]
  simp [List.isEmpty_eq_false_iff.2 hne]

/-- What is read is the integer that the text begins with. -/
theorem begins_of_readLeading? (h : readLeading? text = some (z, rest)) :
    Begins text z rest ∧ -2 ^ 63 ≤ z ∧ z < 2 ^ 63 := by
  obtain ⟨mark, hmark, hafter⟩ := exists_signs (text.dropWhile isSpace)
  unfold readLeading? at h
  dsimp only at h
  generalize signOf (text.dropWhile isSpace) = signed at *
  obtain ⟨sign, after⟩ := signed
  rw [digitsOf, Option.ite_none_left_eq_some] at h
  obtain ⟨hfits, hfound⟩ := h
  cases hfound
  simp only [Bool.or_eq_true, decide_eq_true_eq, not_or] at hfits
  obtain ⟨⟨hne, hlow⟩, hhigh⟩ := hfits
  -- The text is cut behind its white space, behind its sign and behind its digits.
  refine ⟨⟨text.takeWhile isSpace ++ mark ++ after.takeWhile isDigit, ?_, ?_, ?_⟩,
    Int.not_lt.1 hlow, Int.not_le.1 hhigh⟩
  · calc text = text.takeWhile isSpace ++ text.dropWhile isSpace :=
          List.takeWhile_append_dropWhile.symm
      _ = text.takeWhile isSpace ++ (mark ++ after) := by rw [hafter]
      _ = text.takeWhile isSpace ++
            (mark ++ (after.takeWhile isDigit ++ after.dropWhile isDigit)) := by
          rw [List.takeWhile_append_dropWhile]
      _ = _ := by simp only [List.append_assoc]
  · exact .intro (fun c hc => List.mem_takeWhile_imp hc) hmark
      ⟨by simpa using hne, fun b hb => List.mem_takeWhile_imp hb, rfl⟩
  · intro c hc
    have hhead := List.head?_dropWhile_not isDigit after
    rw [Option.mem_def.1 hc] at hhead
    simpa using hhead

theorem readLeading?_eq_some_iff :
    readLeading? text = some (z, rest) ↔ Begins text z rest ∧ -2 ^ 63 ≤ z ∧ z < 2 ^ 63 := by
  refine ⟨begins_of_readLeading?, fun ⟨h, hlow, hhigh⟩ => ?_⟩
  rw [h.readLeading?_eq, if_neg (by omega)]

theorem readLeading?_eq_none_iff :
    readLeading? text = none ↔ ∀ z rest, Begins text z rest → z < -2 ^ 63 ∨ 2 ^ 63 ≤ z := by
  rw [Option.eq_none_iff_forall_ne_some]
  constructor
  · intro h z rest hbegins
    by_contra hfits
    exact h (z, rest) (readLeading?_eq_some_iff.2 ⟨hbegins, by omega⟩)
  · rintro h ⟨z, rest⟩ hread
    obtain ⟨hbegins, hfits⟩ := readLeading?_eq_some_iff.1 hread
    have := h z rest hbegins
    omega

end Numeral

namespace Settings

open Numeral

variable {key : Key} {text : Bytes} {fault : Fault}

/-! ### Numbers -/

/-- A text that denotes an integer which is not negative and which 64 bits hold. -/
def Natural (text : Bytes) (n : Int) : Prop := Denotes text n ∧ 0 ≤ n ∧ n < 2 ^ 63

/-- A number is read if and only if the text denotes it, it is not negative and 64 bits hold it. -/
theorem readNumber_eq_ok_iff {n : Int} : readNumber key text = .ok n ↔ Natural text n := by
  rw [Natural, ← begins_nil_iff]
  unfold readNumber
  cases hread : readLeading? text with
  | none =>
    have hnone := readLeading?_eq_none_iff.1 hread n []
    simp only [reduceCtorEq, false_iff]
    rintro ⟨hbegins, hlow, hhigh⟩
    have := hnone hbegins
    omega
  | some found =>
    obtain ⟨z, rest⟩ := found
    obtain ⟨hbegins, hfits⟩ := readLeading?_eq_some_iff.1 hread
    simp only [Bool.or_eq_true, decide_eq_true_eq]
    split
    · rename_i hbad
      simp only [reduceCtorEq, false_iff]
      rintro ⟨hbegins', hlow, -⟩
      obtain ⟨rfl, rfl⟩ := hbegins.unique hbegins'
      rcases hbad with hrest | hneg
      · exact hrest rfl
      · omega
    · rename_i hgood
      obtain ⟨hrest, hneg⟩ := not_or.1 hgood
      obtain rfl : rest = [] := by simpa using hrest
      simp only [Except.ok.injEq]
      constructor
      · rintro rfl
        exact ⟨hbegins, by omega, by omega⟩
      · exact fun h => (hbegins.unique h.1).1

/-- Why a text is refused where a number is asked for: it begins with no integer that 64 bits hold,
or else something follows the integer, or it is negative. -/
def RefusesNumber (key : Key) (text : Bytes) (fault : Fault) : Prop :=
  (fault = .notInteger key text ∧ ∀ z rest, Begins text z rest → z < -2 ^ 63 ∨ 2 ^ 63 ≤ z) ∨
    fault = .notNatural key text ∧
      ∃ z rest, Begins text z rest ∧ -2 ^ 63 ≤ z ∧ z < 2 ^ 63 ∧ (rest ≠ [] ∨ z < 0)

theorem readNumber_eq_error_iff :
    readNumber key text = .error fault ↔ RefusesNumber key text fault := by
  unfold readNumber RefusesNumber
  rw [← readLeading?_eq_none_iff]
  cases hread : readLeading? text with
  | none =>
    have hnone := readLeading?_eq_none_iff.1 hread
    simp only [Except.error.injEq, and_true, eq_comm]
    refine ⟨.inl, fun h => h.resolve_right ?_⟩
    rintro ⟨-, z, rest, hbegins, hlow, hhigh, -⟩
    have := hnone z rest hbegins
    omega
  | some found =>
    obtain ⟨z, rest⟩ := found
    obtain ⟨hbegins, hlow, hhigh⟩ := readLeading?_eq_some_iff.1 hread
    simp only [Bool.or_eq_true, decide_eq_true_eq, reduceCtorEq, and_false, false_or]
    split
    · rename_i hbad
      simp only [Except.error.injEq, eq_comm]
      exact ⟨fun h => ⟨h, z, rest, hbegins, hlow, hhigh, by simpa using hbad⟩, And.left⟩
    · rename_i hgood
      simp only [reduceCtorEq, false_iff]
      rintro ⟨-, z', rest', hbegins', -, -, hbad⟩
      obtain ⟨rfl, rfl⟩ := hbegins.unique hbegins'
      exact hgood (by simpa using hbad)

/-! ### Values -/

/-- The value that a text stands for. The number of reconnections has 32 bits, and keeps the low
ones of an integer that does not fit. -/
def Key.Means : (key : Key) → Bytes → key.Value → Prop
  | .address, text, value => value = text
  | .timeout, text, value | .connectTimeout, text, value => Natural text value
  | .reconnects, text, value => ∃ n, Natural text n ∧ value = n.bmod (2 ^ 32)
  | .level, text, value => text = Level.name value

/-- Why a text stands for no value. Every text is an address. -/
def Key.Refuses : Key → Bytes → Fault → Prop
  | .address, _, _ => False
  | .timeout, text, fault => RefusesNumber .timeout text fault
  | .connectTimeout, text, fault => RefusesNumber .connectTimeout text fault
  | .reconnects, text, fault => RefusesNumber .reconnects text fault
  | .level, text, fault => fault = .unknownLevel .level text ∧ ∀ level : Level, text ≠ level.name

theorem readLevel_eq_ok_iff {level : Level} :
    readLevel key text = .ok level ↔ text = level.name := by
  constructor
  · intro h
    unfold readLevel at h
    split at h
    · cases h
    · rename_i found hfound
      cases h
      have hname :=
        List.find?_some (p := fun level => Level.name level == text) hfound
      exact (beq_iff_eq.1 hname).symm
  · rintro rfl
    exact readLevel_name key level

theorem readLevel_eq_error_iff :
    readLevel key text = .error fault ↔
      fault = .unknownLevel key text ∧ ∀ level : Level, text ≠ level.name := by
  constructor
  · intro h
    have hnone (level : Level) : text ≠ level.name := by
      intro hlevel
      rw [readLevel_eq_ok_iff.2 hlevel] at h
      cases h
    unfold readLevel at h
    split at h
    · cases h
      exact ⟨rfl, hnone⟩
    · cases h
  · rintro ⟨rfl, hnone⟩
    cases hread : readLevel key text with
    | ok level => exact absurd (readLevel_eq_ok_iff.1 hread) (hnone level)
    | error fault =>
      unfold readLevel at hread
      split at hread
      · exact hread.symm
      · cases hread

/-- A text is read as the value that it stands for. -/
theorem Key.valueOf_eq_ok_iff {value : key.Value} :
    key.valueOf text = .ok value ↔ key.Means text value := by
  cases key with
  | address => exact Except.ok.injEq text value ▸ eq_comm
  | timeout | connectTimeout => exact readNumber_eq_ok_iff
  | reconnects =>
    constructor
    · intro h
      cases hread : readNumber .reconnects text with
      | error fault =>
        rw [Key.valueOf, hread] at h
        cases h
      | ok n =>
        rw [Key.valueOf, hread] at h
        cases h
        exact ⟨n, readNumber_eq_ok_iff.1 hread, rfl⟩
    · rintro ⟨n, hn, rfl⟩
      rw [Key.valueOf, readNumber_eq_ok_iff.2 hn]
      rfl
  | level => exact readLevel_eq_ok_iff

/-- A text that stands for no value is refused, and no other. -/
theorem Key.valueOf_eq_error_iff : key.valueOf text = .error fault ↔ key.Refuses text fault := by
  cases key with
  | address => simp [Key.valueOf, Key.Refuses]
  | timeout | connectTimeout => exact readNumber_eq_error_iff
  | reconnects =>
    have hmap : Key.valueOf .reconnects text = .error fault ↔
        readNumber .reconnects text = .error fault := by
      unfold Key.valueOf
      dsimp only
      cases readNumber .reconnects text <;> simp [Except.map]
    exact hmap.trans readNumber_eq_error_iff
  | level => exact readLevel_eq_error_iff

end Settings

end RemoteCache
