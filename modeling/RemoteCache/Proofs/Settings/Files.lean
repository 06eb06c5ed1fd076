import Mathlib.Data.List.DropRight
import RemoteCache.Proofs.Binary64.PlainText
import RemoteCache.Proofs.Settings.Precedence

/-!
# Settings files as they are written

A line of a settings file gives a setting, or nothing: it may be empty, a remark, a line without an
equals sign, or a setting of a name that stands for none. The lines of a file can be told apart
whatever their values are, for a line is cut at its first equals sign, and double quotes keep the
blanks of a value.

So a file that gives each setting once leads to these settings, in whatever order they stand and
whatever stands between them; and of several values for one setting the last one counts.

## Main definitions

* `Settings.Key.Writes` — a text that stands for the value of a setting
* `Settings.Writable` — settings whose values all have such a text, on one line
* `Settings.File.Line` — a line, with the setting that it gives
* `Settings.File.Gives` — the contents of a file, with the settings that they give in order

## Main results

* `Settings.File.given_of_line`, `Settings.File.given_of_gives` — a line is read as what it gives,
  and so is a file, whatever its lines end with
* `Settings.File.exists_gives` — settings that can be written are given by some file
* `Settings.File.readLines_of_acceptable` — a file is read if all of its values are acceptable
* `Settings.File.read_of_gives` — the settings that a file leads to
-/

namespace RemoteCache

/-! ### Blanks -/

namespace Bytes

variable {blank : UInt8 → Bool} {margin gap b : Bytes}

/-- Bytes that are all blanks. -/
def AllBlank (blank : UInt8 → Bool) (b : Bytes) : Prop := ∀ c ∈ b, blank c = true

instance (blank : UInt8 → Bool) (b : Bytes) : Decidable (AllBlank blank b) :=
  List.decidableBAll (fun c => blank c = true) b

/-- Bytes with no blank at either end. -/
structure Bare (blank : UInt8 → Bool) (b : Bytes) : Prop where
  head : ∀ c ∈ b.head?, blank c = false
  last : ∀ c ∈ b.getLast?, blank c = false

instance (blank : UInt8 → Bool) (b : Bytes) : Decidable (Bare blank b) :=
  decidable_of_iff (b.head?.any blank = false ∧ b.getLast?.any blank = false)
    ⟨fun h => ⟨(Option.any_eq_false ..).1 h.1, (Option.any_eq_false ..).1 h.2⟩,
      fun h => ⟨(Option.any_eq_false ..).2 h.head, (Option.any_eq_false ..).2 h.last⟩⟩

theorem AllBlank.append (h : AllBlank blank margin) (h' : AllBlank blank gap) :
    AllBlank blank (margin ++ gap) :=
  fun c hc => (List.mem_append.1 hc).elim (h c) (h' c)

theorem AllBlank.dropWhile_eq (h : AllBlank blank b) : b.dropWhile blank = [] :=
  List.dropWhile_eq_nil_iff.2 h

theorem AllBlank.rdropWhile_eq (h : AllBlank blank b) : b.rdropWhile blank = [] :=
  List.rdropWhile_eq_nil_iff.2 h

/-- Blanks are dropped from the front up to a byte that is none. -/
theorem dropWhile_append_cons {c : UInt8} (hc : blank c = false) (before after : Bytes) :
    (before ++ c :: after).dropWhile blank = before.dropWhile blank ++ c :: after := by
  rw [List.dropWhile_append]
  split
  · rename_i hempty
    rw [List.isEmpty_iff.1 hempty, List.dropWhile_cons_of_neg (by rw [hc]; decide)]
    rfl
  · rfl

/-- Blanks are dropped from the end up to a byte that is none. -/
theorem rdropWhile_append_cons {c : UInt8} (hc : blank c = false) (before after : Bytes) :
    (before ++ c :: after).rdropWhile blank = before ++ c :: after.rdropWhile blank := by
  unfold List.rdropWhile
  rw [List.reverse_append, List.reverse_cons, List.append_assoc, List.singleton_append,
    dropWhile_append_cons hc]
  simp

theorem trim_eq (b : Bytes) : trim blank b = (b.dropWhile blank).rdropWhile blank := rfl

/-- On either side of a byte that is no blank, only the blanks at the far end are trimmed. -/
theorem trim_append_cons {c : UInt8} (hc : blank c = false) (before after : Bytes) :
    trim blank (before ++ c :: after) =
      before.dropWhile blank ++ c :: after.rdropWhile blank := by
  rw [trim_eq, dropWhile_append_cons hc, rdropWhile_append_cons hc]

theorem trim_dropWhile (b : Bytes) : trim blank (b.dropWhile blank) = trim blank b := by
  rw [trim_eq, List.dropWhile_idempotent, trim_eq]

theorem trim_of_allBlank (h : AllBlank blank b) : trim blank b = [] := by
  rw [trim_eq, h.dropWhile_eq]
  rfl

theorem mem_of_mem_trim {c : UInt8} (h : c ∈ trim blank b) : c ∈ b :=
  (List.dropWhile_sublist blank).mem ((List.rdropWhile_prefix blank _).sublist.mem h)

/-- The first byte that stays is the first one that is no blank. -/
theorem head?_trim (b : Bytes) : (trim blank b).head? = (b.dropWhile blank).head? := by
  rw [trim_eq]
  cases hdrop : b.dropWhile blank with
  | nil => rfl
  | cons c rest =>
    have hc : blank c = false := by
      have hhead := List.head?_dropWhile_not blank b
      rw [hdrop] at hhead
      simpa using hhead
    have hkept := rdropWhile_append_cons hc [] rest
    rw [List.nil_append, List.nil_append] at hkept
    rw [hkept]
    rfl

/-- Blanks around bare bytes are trimmed. -/
theorem trim_of_bare (hmargin : AllBlank blank margin) (hb : Bare blank b)
    (hgap : AllBlank blank gap) : trim blank (margin ++ b ++ gap) = b := by
  obtain ⟨hhead, hlast⟩ := hb
  rcases List.eq_nil_or_concat b with rfl | ⟨front, c, rfl⟩
  · rw [List.append_nil]
    exact trim_of_allBlank (hmargin.append hgap)
  · -- The first and the last byte of `b` are no blanks: nothing between them is trimmed.
    have hc : blank c = false := hlast c (by simp)
    have hfront : (margin ++ front).dropWhile blank = front := by
      cases front with
      | nil => rw [List.append_nil, hmargin.dropWhile_eq]
      | cons d front =>
        rw [dropWhile_append_cons (hhead d rfl), hmargin.dropWhile_eq]
        rfl
    rw [List.concat_eq_append, ← List.append_assoc, List.append_assoc (margin ++ front),
      List.singleton_append, trim_append_cons hc, hfront, hgap.rdropWhile_eq]

/-- It makes no difference if the blanks behind bare bytes are dropped before. -/
theorem trim_rdropWhile_of_bare (hmargin : AllBlank blank margin) (hb : Bare blank b)
    (hgap : AllBlank blank gap) : trim blank ((margin ++ b ++ gap).rdropWhile blank) = b := by
  have hnone : AllBlank blank [] := nofun
  rcases List.eq_nil_or_concat b with rfl | ⟨front, c, rfl⟩
  · rw [List.append_nil, (hmargin.append hgap).rdropWhile_eq]
    rfl
  · have hc : blank c = false := hb.last c (by simp)
    have hbare := trim_of_bare hmargin hb hnone
    rw [List.concat_eq_append] at hbare ⊢
    rw [← List.append_assoc, List.append_assoc (margin ++ front), List.singleton_append,
      rdropWhile_append_cons hc, hgap.rdropWhile_eq]
    rwa [List.append_nil, ← List.append_assoc] at hbare

/-! ### Lines -/

theorem lines_cons {c : UInt8} (hc : c ≠ 10) (b : Bytes) :
    lines (c :: b) = match lines b with
      | [] => [[c]]
      | line :: more => (c :: line) :: more :=
  if_neg hc

/-- A line feed ends a line. -/
theorem lines_append_cons {line : Bytes} (h : 10 ∉ line) (rest : Bytes) :
    lines (line ++ 10 :: rest) = line :: lines rest := by
  induction line with
  | nil => rfl
  | cons c line ih =>
    obtain ⟨hc, hline⟩ : 10 ≠ c ∧ 10 ∉ line := by simpa using h
    rw [List.cons_append, lines_cons (Ne.symm hc), ih hline]

/-- A last line needs no line feed. -/
theorem lines_of_notMem {line : Bytes} (h : 10 ∉ line) (hne : line ≠ []) : lines line = [line] := by
  induction line with
  | nil => exact absurd rfl hne
  | cons c line ih =>
    obtain ⟨hc, hline⟩ : 10 ≠ c ∧ 10 ∉ line := by simpa using h
    rw [lines_cons (Ne.symm hc)]
    cases line with
    | nil => rfl
    | cons d line => rw [ih hline (List.cons_ne_nil _ _)]

end Bytes

/-! ### Numbers -/

/-- A text of decimal digits, zeros in front allowed, that is a number. -/
structure Numeral.Spells (digits : Bytes) (n : Nat) : Prop where
  ne_nil : digits ≠ []
  digit : ∀ b ∈ digits, isDigit b = true
  value : value digits = n

instance (digits : Bytes) (n : Nat) : Decidable (Numeral.Spells digits n) :=
  decidable_of_iff (digits ≠ [] ∧ digits.all Numeral.isDigit = true ∧ Numeral.value digits = n)
    ⟨fun h => ⟨h.1, List.all_eq_true.1 h.2.1, h.2.2⟩,
      fun h => ⟨h.ne_nil, List.all_eq_true.2 h.digit, h.value⟩⟩

theorem Numeral.spells_ofNat (n : Nat) : Spells (ofNat n) n where
  ne_nil := ofNat_ne_nil n
  digit := List.all_eq_true.1 (all_isDigit_ofNat n)
  value := value_ofNat n

/-- A digit is neither white space nor a sign. -/
theorem Numeral.isSpace_of_isDigit {b : UInt8} (h : isDigit b = true) :
    Bytes.isSpace b = false := by
  simp [isDigit, UInt8.le_iff_toNat_le] at h
  simp [Bytes.isSpace, ← UInt8.toNat_inj, UInt8.le_iff_toNat_le]
  omega

theorem Numeral.signOf_of_isDigit {b : UInt8} (h : isDigit b = true) (rest : Bytes) :
    signOf (b :: rest) = (1, b :: rest) := by
  have hminus : b ≠ 45 := by
    rintro rfl
    cases h
  have hplus : b ≠ 43 := by
    rintro rfl
    cases h
  simp [signOf, hminus, hplus]

/-- All of the digits are read, as the number that they are. -/
theorem Numeral.Spells.readLeading? {digits : Bytes} {n : Nat} (h : Spells digits n)
    (hn : n < 2 ^ 63) : readLeading? digits = some ((n : Int), []) := by
  obtain ⟨hne, hdigits, rfl⟩ := h
  cases digits with
  | nil => exact absurd rfl hne
  | cons first rest =>
    have hfirst := hdigits first (List.mem_cons_self ..)
    unfold Numeral.readLeading?
    rw [List.dropWhile_cons_of_neg (by simp [isSpace_of_isDigit hfirst]),
      signOf_of_isDigit hfirst]
    dsimp only
    rw [digitsOf_of_all hdigits]
    simp
    omega

namespace Settings

/-- A text that stands for the value of a setting. -/
def Key.Writes : (key : Key) → key.Value → Bytes → Prop
  | .address, value, text => text = value
  | .timeout, value, text | .connectTimeout, value, text =>
    ∃ n, Numeral.Spells text n ∧ n < 2 ^ 63 ∧ value = (n : Int)
  | .reconnects, value, text => ∃ n, Numeral.Spells text n ∧ n < 2 ^ 31 ∧ value = (n : Int)
  | .level, value, text => text = Level.name value

theorem readNumber_of_spells {key : Key} {text : Bytes} {n : Nat} (h : Numeral.Spells text n)
    (hn : n < 2 ^ 63) : readNumber key text = .ok (n : Int) := by
  unfold readNumber
  rw [h.readLeading? hn]
  simp

theorem readLevel_name (key : Key) (level : Level) : readLevel key level.name = .ok level := by
  rw [readLevel, Level.read?_name]

/-- A text that stands for a value gives it. -/
theorem Key.Writes.valueOf_eq {key : Key} {value : key.Value} {text : Bytes}
    (h : key.Writes value text) : key.valueOf text = .ok value := by
  cases key with
  | address => exact congrArg Except.ok h
  | timeout | connectTimeout =>
    obtain ⟨n, hspells, hn, rfl⟩ := h
    exact readNumber_of_spells hspells hn
  | reconnects =>
    obtain ⟨n, hspells, hn, rfl⟩ := h
    have hread : readNumber .reconnects text = .ok (n : Int) :=
      readNumber_of_spells hspells (by omega)
    have hkept : (n : Int).bmod (2 ^ 32) = n := Int.bmod_eq_of_le (by omega) (by omega)
    have hvalue : (readNumber .reconnects text).map (fun n => n.bmod (2 ^ 32)) = .ok (n : Int) := by
      rw [hread, Except.map, hkept]
    exact hvalue
  | level =>
    rw [show text = Level.name value from h]
    exact readLevel_name .level value

/-- Settings that a file can give: no number is too large, and the address stands on one line. -/
structure Writable (s : Settings) : Prop where
  address : 10 ∉ s.address
  timeout : 0 ≤ s.timeout ∧ s.timeout < 2 ^ 63
  connectTimeout : 0 ≤ s.connectTimeout ∧ s.connectTimeout < 2 ^ 63
  reconnects : 0 ≤ s.reconnects ∧ s.reconnects < 2 ^ 31

theorem exists_spells {z : Int} {bound : Nat} (h : 0 ≤ z ∧ z < bound) :
    ∃ text n, Numeral.Spells text n ∧ n < bound ∧ z = (n : Int) ∧ 10 ∉ text := by
  have hspells := Numeral.spells_ofNat z.toNat
  refine ⟨_, _, hspells, by omega, by omega, fun hmem => ?_⟩
  exact absurd (hspells.digit 10 hmem) (by decide)

/-- Every value of such settings stands in a text on one line. -/
theorem Writable.exists_writes {s : Settings} (h : s.Writable) (key : Key) :
    ∃ text, key.Writes (s.get key) text ∧ 10 ∉ text := by
  cases key with
  | address => exact ⟨s.address, rfl, h.address⟩
  | timeout =>
    obtain ⟨text, n, hspells, hn, heq, hfeed⟩ := exists_spells h.timeout
    exact ⟨text, ⟨n, hspells, hn, heq⟩, hfeed⟩
  | connectTimeout =>
    obtain ⟨text, n, hspells, hn, heq, hfeed⟩ := exists_spells h.connectTimeout
    exact ⟨text, ⟨n, hspells, hn, heq⟩, hfeed⟩
  | reconnects =>
    obtain ⟨text, n, hspells, hn, heq, hfeed⟩ := exists_spells h.reconnects
    exact ⟨text, ⟨n, hspells, hn, heq⟩, hfeed⟩
  | level =>
    refine ⟨s.level.name, rfl, ?_⟩
    cases s.level <;> decide +kernel

/-- What stands for a value, and is given last, leads to the value. -/
theorem Reaches.get_eq_of_writes {s s' : Settings} {key : Key} {value : key.Value} {text : Bytes}
    {pairs : List (Key × Bytes)} (h : Reaches s pairs s')
    (hlast : (textsFor key pairs).getLast? = some text) (hwrites : key.Writes value text) :
    s'.get key = value := by
  have hkey := h key
  rw [hlast] at hkey
  have hgot : key.valueOf text = .ok (s'.get key) := hkey
  rw [hwrites.valueOf_eq] at hgot
  exact (Except.ok.inj hgot).symm

theorem path_put (s : Settings) (key : Key) (value : key.Value) :
    (s.put key value).path = s.path := by
  cases key <;> rfl

/-- What is acceptable can be assigned, and the path stays. -/
theorem exists_assignAll {s : Settings} {pairs : List (Key × Bytes)}
    (h : ∀ pair ∈ pairs, ∃ value, pair.1.valueOf pair.2 = .ok value) :
    ∃ s', s.assignAll pairs = .ok s' ∧ s'.path = s.path := by
  induction pairs generalizing s with
  | nil => exact ⟨s, rfl, rfl⟩
  | cons pair pairs ih =>
    obtain ⟨⟨value, hvalue⟩, hmore⟩ := List.forall_mem_cons.1 h
    obtain ⟨s', hs', hpath⟩ := ih hmore (s := s.put pair.1 value)
    exact ⟨s', assignAll_cons_eq_ok_iff.2 ⟨value, hvalue, hs'⟩, hpath.trans (path_put s _ value)⟩

/-- Settings are their values, and the path. -/
theorem eq_of_get_eq {s s' : Settings} (hget : ∀ key, s.get key = s'.get key)
    (hpath : s.path = s'.path) : s = s' := by
  obtain ⟨address, timeout, connectTimeout, reconnects, level, path⟩ := s
  have haddress : address = s'.address := hget .address
  have htimeout : timeout = s'.timeout := hget .timeout
  have hconnect : connectTimeout = s'.connectTimeout := hget .connectTimeout
  have hreconnects : reconnects = s'.reconnects := hget .reconnects
  have hlevel : level = s'.level := hget .level
  rw [haddress, htimeout, hconnect, hreconnects, hlevel, show path = s'.path from hpath]

namespace File

open Bytes

/-! ### What a line gives -/

/-- A value as it is written: between double quotes, or bare. -/
inductive Written : Bytes → Bytes → Prop
  | quoted (text : Bytes) : Written text (quote :: text ++ [quote])
  | bare {text : Bytes} (hbare : Bare isBlank text) (hquote : text.head? ≠ some quote) :
    Written text text

/-- A line, with the setting that it gives, if it gives any. A line without an equals sign may be
empty. -/
inductive Line : Bytes → List (Key × Bytes) → Prop
  | plain {line : Bytes} (hsign : equalsSign ∉ line) : Line line []
  | remark {margin : Bytes} (hmargin : AllBlank isBlank margin) (rest : Bytes) :
    Line (margin ++ remarkMark :: rest) []
  | stray {margin name gap : Bytes} (hmargin : AllBlank isBlank margin) (hname : Bare isBlank name)
    (hsign : equalsSign ∉ name) (hkey : Key.read? name = none) (hgap : AllBlank isBlank gap)
    (rest : Bytes) : Line (margin ++ name ++ gap ++ equalsSign :: rest) []
  | setting {margin gap indent last text written : Bytes} (key : Key)
    (hmargin : AllBlank isBlank margin) (hgap : AllBlank isBlank gap)
    (hindent : AllBlank isBlank indent) (hwritten : Written text written)
    (hlast : AllBlank isBlank last) :
    Line (margin ++ key.name ++ gap ++ equalsSign :: (indent ++ written ++ last)) [(key, text)]

variable {line contents text written before after : Bytes} {said pairs : List (Key × Bytes)}

theorem Written.bare_written (h : Written text written) : Bare isBlank written := by
  cases h with
  | quoted =>
    refine ⟨fun c hc => ?_, fun c hc => ?_⟩
    · cases hc
      rfl
    · rw [List.getLast?_concat] at hc
      cases hc
      rfl
  | bare hbare _ => exact hbare

/-- The double quotes are taken off again, and only these. -/
theorem Written.unquote_eq (h : Written text written) : unquote written = text := by
  cases h with
  | quoted =>
    have hlast : (quote :: text ++ [quote]).getLast? = some quote := List.getLast?_concat
    unfold unquote
    rw [hlast]
    simp
  | bare _ hquote => simp [unquote, hquote]

/-- A name and a value with one space on either side of the equals sign. -/
theorem Line.spaced (key : Key) (h : Written text written) :
    Line (key.name ++ ascii " = " ++ written) [(key, text)] := by
  have hnone : AllBlank isBlank [] := by decide
  have hspace : AllBlank isBlank [32] := by decide
  simpa [ascii, equalsSign] using Line.setting key hnone hspace hspace h hnone

theorem equalsSign_notMem_of_allBlank {gap : Bytes} (hgap : AllBlank isBlank gap) :
    equalsSign ∉ gap :=
  fun hmem => absurd (hgap equalsSign hmem) (by decide)

/-- A line is cut at its first equals sign, unless it is a remark. -/
theorem setting?_append (hsign : equalsSign ∉ before) (after : Bytes) :
    setting? (before ++ equalsSign :: after) =
      if (trim isBlank before).head? = some remarkMark then none
      else some (trim isBlank before, unquote (trim isBlank (after.rdropWhile isBlank))) := by
  -- The equals sign is no blank, so what is trimmed lies in front of the name or behind the value.
  have hdrop : equalsSign ∉ before.dropWhile isBlank :=
    fun hmem => hsign ((List.dropWhile_sublist isBlank).mem hmem)
  have hmark : (before.dropWhile isBlank ++ equalsSign :: after.rdropWhile isBlank).head? =
      some remarkMark ↔ (trim isBlank before).head? = some remarkMark := by
    rw [head?_trim]
    cases before.dropWhile isBlank with
    | nil => simp [equalsSign, remarkMark]
    | cons c rest => rfl
  unfold setting?
  rw [trim_append_cons (by decide)]
  dsimp only
  rw [cutAt?_eq_some_iff.2 ⟨rfl, hdrop⟩]
  simp only [hmark, Option.map_some, trim_dropWhile]

theorem given_cons (line : Bytes) (more : List Bytes) :
    given (line :: more) = given [line] ++ given more := by
  rw [given, ← List.singleton_append, List.filterMap_append]
  rfl

theorem given_singleton (line : Bytes) :
    given [line] = ((setting? line).bind fun (name, value) =>
      (Key.read? name).map fun key => (key, value)).toList := by
  rw [given, List.filterMap_cons]
  cases ((setting? line).bind fun (name, value) =>
      (Key.read? name).map fun key => (key, value)) <;> rfl

theorem bare_name (key : Key) : Bare isBlank key.name := by
  cases key <;> decide +kernel

/-- A line is read as what it gives. -/
theorem given_of_line (h : Line line said) : given [line] = said := by
  rw [given_singleton]
  cases h with
  | plain hsign =>
    have hcut : cutAt? equalsSign (trim isBlank line) = none :=
      cutAt?_eq_none_iff.2 fun hmem => hsign (mem_of_mem_trim hmem)
    simp [setting?, hcut]
  | remark hmargin rest =>
    simp [setting?, trim_append_cons (show isBlank remarkMark = false from rfl),
      hmargin.dropWhile_eq]
  | @stray margin name gap hmargin hname hsign hkey hgap rest =>
    have hbefore : equalsSign ∉ margin ++ name ++ gap := by
      simp [equalsSign_notMem_of_allBlank, hmargin, hsign, hgap]
    rw [setting?_append hbefore, trim_of_bare hmargin hname hgap]
    -- A name that begins with a number sign makes the line a remark, which gives nothing either.
    split
    · rfl
    · simp [hkey]
  | @setting margin gap indent last text written key hmargin hgap hindent hwritten hlast =>
    have hname : equalsSign ∉ key.name ∧ key.name.head? ≠ some remarkMark := by
      cases key <;> decide +kernel
    have hbefore : equalsSign ∉ margin ++ key.name ++ gap := by
      simp [equalsSign_notMem_of_allBlank, hmargin, hname.1, hgap]
    rw [setting?_append hbefore, trim_of_bare hmargin (bare_name key) hgap, if_neg hname.2,
      trim_rdropWhile_of_bare hindent hwritten.bare_written hlast, hwritten.unquote_eq]
    simp [Key.read?_name]

/-! ### What a file gives -/

/-- The contents of a file, with the settings that they give in order. A line ends with a line feed,
or with a carriage return and a line feed; what stands behind the last of them is a line as well. -/
inductive Gives : Bytes → List (Key × Bytes) → Prop
  | last {line : Bytes} {said : List (Key × Bytes)} (hline : Line line said) (hfeed : 10 ∉ line) :
    Gives line said
  | feed {line rest : Bytes} {said more : List (Key × Bytes)} (hline : Line line said)
    (hfeed : 10 ∉ line) (hrest : Gives rest more) : Gives (line ++ 10 :: rest) (said ++ more)
  | returned {line rest : Bytes} {said more : List (Key × Bytes)} (hline : Line line said)
    (hfeed : 10 ∉ line) (hrest : Gives rest more) :
    Gives (line ++ 13 :: 10 :: rest) (said ++ more)

/-- A carriage return at the end of a line is a blank. -/
theorem Line.append_return (h : Line line said) : Line (line ++ [13]) said := by
  have hreturn : AllBlank isBlank [13] := by decide
  cases h with
  | plain hsign => exact .plain (by simpa [equalsSign] using hsign)
  | remark hmargin rest =>
    rw [List.append_assoc]
    exact .remark hmargin _
  | stray hmargin hname hsign hkey hgap rest =>
    rw [List.append_assoc _ _ [13]]
    exact .stray hmargin hname hsign hkey hgap _
  | setting key hmargin hgap hindent hwritten hlast =>
    rw [List.append_assoc _ _ [13], List.cons_append, List.append_assoc _ _ [13]]
    exact .setting key hmargin hgap hindent hwritten (hlast.append hreturn)

/-- The lines of a file are read as what it gives. -/
theorem given_of_gives (h : Gives contents pairs) : given (lines contents) = pairs := by
  induction h with
  | @last line said hline hfeed =>
    -- Behind the last line feed, an empty line is not read at all. It would give nothing.
    by_cases hempty : line = []
    · subst hempty
      exact given_of_line hline
    · rw [lines_of_notMem hfeed hempty, given_of_line hline]
  | feed hline hfeed _ ih => rw [lines_append_cons hfeed, given_cons, given_of_line hline, ih]
  | @returned line rest said more hline hfeed _ ih =>
    have hlong : 10 ∉ line ++ [13] := by simpa using hfeed
    have hsplit : line ++ 13 :: 10 :: rest = (line ++ [13]) ++ 10 :: rest := by simp
    rw [hsplit, lines_append_cons hlong, given_cons, given_of_line hline.append_return, ih]

/-- Texts that have no line feed in them can be given in any order. -/
theorem exists_gives_of_texts {text : Key → Bytes} (htext : ∀ key, 10 ∉ text key)
    (keys : List Key) : ∃ contents, Gives contents (keys.map fun key => (key, text key)) := by
  induction keys with
  | nil => exact ⟨[], .last (.plain (by decide)) (by decide)⟩
  | cons key keys ih =>
    obtain ⟨rest, hrest⟩ := ih
    have hname : 10 ∉ key.name ++ ascii " = " := by cases key <;> decide +kernel
    have hfeed : 10 ∉ key.name ++ ascii " = " ++ (quote :: text key ++ [quote]) := by
      simpa [quote, htext key] using hname
    exact ⟨_, .feed (.spaced key (.quoted (text key))) hfeed hrest⟩

/-- There is a file that gives each of some settings once, unless they cannot be written. -/
theorem exists_gives {s : Settings} (h : s.Writable) :
    ∃ contents pairs, Gives contents pairs ∧
      ∀ key : Key, ∃ text, textsFor key pairs = [text] ∧ key.Writes (s.get key) text := by
  choose text hwrites hfeed using h.exists_writes
  obtain ⟨contents, hgives⟩ :=
    exists_gives_of_texts hfeed [.address, .timeout, .connectTimeout, .reconnects, .level]
  refine ⟨contents, _, hgives, fun key => ⟨text key, ?_, hwrites key⟩⟩
  cases key <;> rfl

/-- Lines are read to their end if all the values that they give are acceptable. -/
theorem readLines_of_acceptable {s : Settings} {lines : List Bytes}
    (h : ∀ pair ∈ given lines, ∃ value, pair.1.valueOf pair.2 = .ok value) :
    ∃ s', (readLines s lines).2 = .ok s' ∧ s'.path = s.path :=
  readLines_snd s lines ▸ exists_assignAll h

/-- A file whose values are all acceptable is read, and leads to what it gives last. -/
theorem read_of_acceptable (h : Gives contents pairs)
    (hacceptable : ∀ pair ∈ pairs, ∃ value, pair.1.valueOf pair.2 = .ok value) :
    ∃ s, (read contents).2 = .ok s ∧ s.path = none ∧ Reaches {} pairs s := by
  rw [← given_of_gives h] at hacceptable ⊢
  obtain ⟨s, hs, hpath⟩ := readLines_of_acceptable hacceptable
  exact ⟨s, hs, hpath, reaches_given hs⟩

/-- A file leads to the settings that it gives last, and to the defaults of the rest, if all of its
values are acceptable. So a file that gives every setting once leads to these settings, in whatever
order they stand. -/
theorem read_of_gives (h : Gives contents pairs) :
    (∀ s : Settings, s.path = none →
      (∀ key : Key, ∃ text, textsFor key pairs = [text] ∧ key.Writes (s.get key) text) →
        (read contents).2 = .ok s) ∧
    ((∀ pair ∈ pairs, ∃ value, pair.1.valueOf pair.2 = .ok value) →
      ∃ s, (read contents).2 = .ok s ∧ s.path = none ∧ Reaches {} pairs s ∧
        ∀ (key : Key) (text : Bytes) (value : key.Value),
          (textsFor key pairs).getLast? = some text → key.Writes value text →
            s.get key = value) := by
  constructor
  · intro s hpath honce
    -- A text is the only one that is given for its setting, so it stands for the value sought.
    have hacceptable : ∀ pair ∈ pairs, ∃ value, pair.1.valueOf pair.2 = .ok value := by
      rintro ⟨key, text⟩ hpair
      obtain ⟨only, honly, hwrites⟩ := honce key
      have hmem : text ∈ textsFor key pairs :=
        List.mem_filterMap.2 ⟨(key, text), hpair, if_pos rfl⟩
      rw [honly, List.mem_singleton] at hmem
      exact ⟨s.get key, hmem ▸ hwrites.valueOf_eq⟩
    obtain ⟨s', hs', hpath', hreaches⟩ := read_of_acceptable h hacceptable
    have hsame : s' = s := by
      refine eq_of_get_eq (fun key => ?_) (hpath'.trans hpath.symm)
      obtain ⟨text, htext, hwrites⟩ := honce key
      exact hreaches.get_eq_of_writes (by rw [htext]; rfl) hwrites
    rw [hs', hsame]
  · intro hacceptable
    obtain ⟨s, hs, hpath, hreaches⟩ := read_of_acceptable h hacceptable
    exact ⟨s, hs, hpath, hreaches, fun _ _ _ hlast hwrites =>
      hreaches.get_eq_of_writes hlast hwrites⟩

/-- A file with a remark, an unknown name, an empty line, and an address whose quotes keep its
blanks. -/
def sample : Bytes := ascii (
  "# settings\r\n \taddress\t= \" paper://a=b#c:1 \" \r\ncolour = red\n\n" ++
  "timeout_ms = 0200\nlog_level = error\r\nconnect_timeout_ms = 0\nreconnect_attempts = 3")

/-- The sample is read as its five settings. Another timeout in front of it does not count. -/
theorem read_of_gives_sample :
    (read sample).2 = .ok
        { address := ascii " paper://a=b#c:1 ", timeout := 200, reconnects := 3, level := .error } ∧
      ∃ s, (read (ascii "timeout_ms = 5" ++ 10 :: sample)).2 = .ok s ∧ s.timeout = 200 := by
  have hspace : AllBlank isBlank [32] := by decide
  let address := ascii " paper://a=b#c:1 "
  have hremark : Line (ascii "# settings") [] :=
    .remark (show AllBlank isBlank [] by decide) (ascii " settings")
  have hempty : Line [] [] := .plain (by decide)
  have haddress : Line (ascii " \taddress\t= \" paper://a=b#c:1 \" ") [(.address, address)] :=
    .setting .address (show AllBlank isBlank (ascii " \t") by decide +kernel)
      (show AllBlank isBlank (ascii "\t") by decide +kernel) hspace (.quoted address) hspace
  have hcolour : Line (ascii "colour = red") [] :=
    .stray (show AllBlank isBlank [] by decide)
      (show Bare isBlank (ascii "colour") by decide +kernel) (by decide +kernel)
      (by decide +kernel) hspace (ascii " red")
  have htimeout : Line (ascii "timeout_ms = 0200") [(.timeout, ascii "0200")] :=
    .spaced .timeout (.bare (by decide +kernel) (by decide +kernel))
  have hlevel : Line (ascii "log_level = error") [(.level, ascii "error")] :=
    .spaced .level (.bare (by decide +kernel) (by decide +kernel))
  have hconnect : Line (ascii "connect_timeout_ms = 0") [(.connectTimeout, ascii "0")] :=
    .spaced .connectTimeout (.bare (by decide +kernel) (by decide +kernel))
  have hreconnects : Line (ascii "reconnect_attempts = 3") [(.reconnects, ascii "3")] :=
    .spaced .reconnects (.bare (by decide +kernel) (by decide +kernel))
  have hearlier : Line (ascii "timeout_ms = 5") [(.timeout, ascii "5")] :=
    .spaced .timeout (.bare (by decide +kernel) (by decide +kernel))
  let s : Settings := { address, timeout := 200, reconnects := 3, level := .error }
  let pairs : List (Key × Bytes) :=
    [(.address, address), (.timeout, ascii "0200"), (.level, ascii "error"),
      (.connectTimeout, ascii "0"), (.reconnects, ascii "3")]
  obtain ⟨file, hfile, hgives⟩ : ∃ file, file = sample ∧ Gives file pairs :=
    ⟨_, by decide +kernel,
      .returned hremark (by decide +kernel) <| .returned haddress (by decide +kernel) <|
      .feed hcolour (by decide +kernel) <| .feed hempty (by decide) <|
      .feed htimeout (by decide +kernel) <| .returned hlevel (by decide +kernel) <|
      .feed hconnect (by decide +kernel) <| .last hreconnects (by decide +kernel)⟩
  rw [hfile] at hgives
  have hlonger : Gives (ascii "timeout_ms = 5" ++ 10 :: sample)
      ((.timeout, ascii "5") :: pairs) := .feed hearlier (by decide +kernel) hgives
  have h200 : Key.Writes .timeout (200 : Int) (ascii "0200") :=
    ⟨200, by decide, by decide, rfl⟩
  have h0 : Key.Writes .connectTimeout (0 : Int) (ascii "0") :=
    ⟨0, by decide, by decide, rfl⟩
  have h3 : Key.Writes .reconnects (3 : Int) (ascii "3") :=
    ⟨3, by decide, by decide, rfl⟩
  have h5 : Key.Writes .timeout (5 : Int) (ascii "5") :=
    ⟨5, by decide, by decide, rfl⟩
  have honce (key : Key) : ∃ text, textsFor key pairs = [text] ∧ key.Writes (s.get key) text := by
    cases key with
    | address => exact ⟨address, rfl, rfl⟩
    | timeout => exact ⟨ascii "0200", rfl, h200⟩
    | connectTimeout => exact ⟨ascii "0", rfl, h0⟩
    | reconnects => exact ⟨ascii "3", rfl, h3⟩
    | level => exact ⟨ascii "error", rfl, rfl⟩
  have hacceptable : ∀ pair ∈ (Key.timeout, ascii "5") :: pairs,
      ∃ value, pair.1.valueOf pair.2 = .ok value := by
    simp only [pairs, List.forall_mem_cons]
    exact ⟨⟨_, h5.valueOf_eq⟩, ⟨address, rfl⟩, ⟨_, h200.valueOf_eq⟩, ⟨Level.error, rfl⟩,
      ⟨_, h0.valueOf_eq⟩, ⟨_, h3.valueOf_eq⟩, by simp⟩
  obtain ⟨s', hs', -, -, hlast⟩ := (read_of_gives hlonger).2 hacceptable
  exact ⟨(read_of_gives hgives).1 s rfl honce, s', hs', hlast .timeout _ (200 : Int) rfl h200⟩

end File

end Settings

end RemoteCache
