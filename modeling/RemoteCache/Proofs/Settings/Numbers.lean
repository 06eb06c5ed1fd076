import RemoteCache.Proofs.Settings.CommandLine

/-!
# Which numbers are stored as they are written

Three settings are numbers: the two timeouts, which have 64 bits, and the number of reconnections,
which has 32. All three are read as numbers of 64 bits. What 64 bits do not hold is refused, and so
is what is negative, in a file as on a command line. A timeout is therefore always stored as it is
written. The number of reconnections keeps its low 32 bits, which may even be negative.

## Main definitions

* `Settings.Number` — the settings that are numbers
* `Settings.Source` — a file or a command line, with what it gives and what it is read as
* `Settings.Source.Comes` — a text that is read for a setting

## Main results

* `Settings.Key.Refuses.subject_eq` — a fault tells which setting is refused, and its text
* `Settings.assignAll_eq_error_iff` — what is given is assigned up to the first text that is refused
* `Settings.Source.Comes.read_eq_error_iff` — a text that is read and refused ends the reading
* `Settings.number_as_written_iff` — a number is stored as it is written if and only if it fits
-/

namespace RemoteCache.Settings

open Bytes Numeral

/-! ### The settings that are numbers -/

/-- The settings that are numbers. -/
inductive Number
  | timeout
  | connectTimeout
  | reconnects
deriving DecidableEq

namespace Number

/-- The setting that a number is given under. -/
def key : Number → Key
  | .timeout => .timeout
  | .connectTimeout => .connectTimeout
  | .reconnects => .reconnects

/-- The bits that a number has in the settings. -/
def bits : Number → Nat
  | .timeout | .connectTimeout => 64
  | .reconnects => 32

/-- Why a text is refused that denotes an integer: 64 bits do not hold it, or it is negative. -/
def fault (number : Number) (text : Bytes) (n : Int) : Fault :=
  if n < -2 ^ 63 ∨ 2 ^ 63 ≤ n then .notInteger number.key text else .notNatural number.key text

end Number

/-- A number of the settings. -/
def number (s : Settings) : Number → Int
  | .timeout => s.timeout
  | .connectTimeout => s.connectTimeout
  | .reconnects => s.reconnects

variable {s s' : Settings} {key : Key} {text : Bytes} {fault : Fault}
  {pairs : List (Key × Bytes)} {n : Int} {number : Number}

/-! ### Refusals -/

/-- The setting that a fault is about, with the text that is refused. -/
def Fault.subject : Fault → Option (Key × Bytes)
  | .notInteger key text | .notNatural key text | .unknownLevel key text => some (key, text)
  | .strayOption _ => none

/-- A text is refused in words that tell which setting and which text it is. -/
theorem Key.Refuses.subject_eq (h : key.Refuses text fault) : fault.subject = some (key, text) := by
  cases key with
  | address => exact h.elim
  | timeout | connectTimeout | reconnects => rcases h with ⟨rfl, -⟩ | ⟨rfl, -⟩ <;> rfl
  | level =>
    obtain ⟨rfl, -⟩ := h
    rfl

/-- So two texts are never refused in the same words. -/
theorem Key.Refuses.of_subject {key' : Key} {text' : Bytes} (h : key'.Refuses text' fault)
    (hsubject : fault.subject = some (key, text)) : key.Refuses text fault := by
  obtain ⟨rfl, rfl⟩ : key = key' ∧ text = text' := by simpa [hsubject] using h.subject_eq
  exact h

/-- An integer that is written is refused if it is negative or if 64 bits do not hold it, and the
fault tells which. -/
theorem refusesNumber_iff (h : Denotes text n) :
    RefusesNumber key text fault ↔ (n < 0 ∨ 2 ^ 63 ≤ n) ∧
      fault = if n < -2 ^ 63 ∨ 2 ^ 63 ≤ n then .notInteger key text else .notNatural key text := by
  have hbegins := begins_nil_iff.2 h
  constructor
  · rintro (⟨rfl, hnone⟩ | ⟨rfl, z, rest, hz, hlow, hhigh, hbad⟩)
    · have hfits := hnone n [] hbegins
      exact ⟨by omega, (if_pos hfits).symm⟩
    · obtain ⟨rfl, rfl⟩ := hbegins.unique hz
      have hneg : n < 0 := hbad.resolve_left (not_not_intro rfl)
      exact ⟨.inl hneg, (if_neg (by omega)).symm⟩
  · rintro ⟨hrange, rfl⟩
    by_cases hfits : n < -2 ^ 63 ∨ 2 ^ 63 ≤ n
    · rw [if_pos hfits]
      refine .inl ⟨rfl, fun z rest hz => ?_⟩
      obtain ⟨rfl, -⟩ := hbegins.unique hz
      exact hfits
    · rw [if_neg hfits]
      exact .inr ⟨rfl, n, [], hbegins, by omega, by omega, .inr (by omega)⟩

/-! ### Assigning what is given -/

/-- A setting with a text that it can have. -/
def Acceptable (pair : Key × Bytes) : Prop := ∃ value, pair.1.valueOf pair.2 = .ok value

theorem acceptable_of_assignAll (h : s.assignAll pairs = .ok s') :
    ∀ pair ∈ pairs, Acceptable pair := by
  induction pairs generalizing s with
  | nil => exact List.forall_mem_nil _
  | cons pair pairs ih =>
    obtain ⟨value, hvalue, hmore⟩ := assignAll_cons_eq_ok_iff.1 h
    exact List.forall_mem_cons.2 ⟨⟨value, hvalue⟩, ih hmore⟩

/-- What is not assigned is refused for the first of its texts that is not acceptable. -/
theorem exists_of_assignAll_eq_error (h : s.assignAll pairs = .error fault) :
    ∃ before key text more, pairs = before ++ (key, text) :: more ∧
      (∀ pair ∈ before, Acceptable pair) ∧ key.valueOf text = .error fault := by
  induction pairs generalizing s with
  | nil => cases h
  | cons pair pairs ih =>
    obtain ⟨key, text⟩ := pair
    rw [assignAll_cons] at h
    cases hvalue : key.valueOf text with
    | error found =>
      rw [hvalue] at h
      cases h
      exact ⟨[], key, text, pairs, rfl, List.forall_mem_nil _, hvalue⟩
    | ok value =>
      rw [hvalue] at h
      obtain ⟨before, key', text', more, rfl, hbefore, hrefused⟩ := ih h
      exact ⟨(key, text) :: before, key', text', more, rfl,
        List.forall_mem_cons.2 ⟨⟨value, hvalue⟩, hbefore⟩, hrefused⟩

/-- The first text that is refused ends the assigning, and nothing else does. -/
theorem assignAll_eq_error_iff :
    s.assignAll pairs = .error fault ↔
      ∃ before key text more, pairs = before ++ (key, text) :: more ∧
      (∀ pair ∈ before, Acceptable pair) ∧ key.valueOf text = .error fault := by
  refine ⟨exists_of_assignAll_eq_error, ?_⟩
  rintro ⟨before, key, text, more, rfl, hbefore, hrefused⟩
  obtain ⟨s₁, hs₁, -⟩ := exists_assignAll (s := s) hbefore
  rw [assignAll_append, hs₁, Except.bind, assignAll_cons, hrefused]
  rfl

/-- Options whose values can be taken give settings that are acceptable. -/
theorem Arguments.Pairs.acceptable {words : List Bytes} {pairs : List (Switch × Bytes)}
    (h : Pairs words pairs) : ∀ pair ∈ settingsOf pairs, Acceptable pair := by
  induction h with
  | nil => simp [settingsOf]
  | @cons word text words switch pairs _ htakes _ ih =>
    cases switch with
    | path => exact ih
    | key key =>
      obtain ⟨value, hvalue⟩ := htakes
      exact List.forall_mem_cons.2 ⟨⟨value, Key.valueOf_eq_ok_iff.2 hvalue⟩, ih⟩

/-! ### Sources -/

/-- What settings are read from. -/
inductive Source
  /-- A file with the given contents. -/
  | file (contents : Bytes)
  | commandLine (words : List Bytes)

namespace Source

/-- What a source is read as. -/
def read : Source → Except Fault Arguments.Request
  | .file contents => (File.read contents).2.map .run
  | .commandLine words => Arguments.read words

/-- The settings that a source gives, in order. -/
def given : Source → List (Key × Bytes)
  | .file contents => File.given (lines contents)
  | .commandLine words => Arguments.given (words.map beforeNul)

/-- A text that a source gives for a setting, with nothing in front of it that ends the reading. -/
inductive Comes : Source → Key → Bytes → Prop
  | file {contents : Bytes} {before more : List (Key × Bytes)} {key : Key} {text : Bytes}
    (hgiven : File.given (lines contents) = before ++ (key, text) :: more)
    (hbefore : ∀ pair ∈ before, Acceptable pair) : Comes (.file contents) key text
  | commandLine {words before more : List Bytes} {word : Bytes} {key : Key} {text : Bytes}
    {pairs : List (Arguments.Switch × Bytes)}
    (hwords : words.map beforeNul = before ++ word :: text :: more)
    (hbefore : Arguments.Pairs before pairs) (hword : word ∈ (Arguments.Switch.key key).words) :
    Comes (.commandLine words) key text

variable {source : Source}

/-- A file is never a call for help. -/
theorem read_file_eq_run_iff {contents : Bytes} :
    (file contents).read = .ok (.run s) ↔ (File.read contents).2 = .ok s := by
  unfold read
  dsimp only
  cases (File.read contents).2 <;> simp [Except.map]

theorem read_file_eq_error_iff {contents : Bytes} :
    (file contents).read = .error fault ↔ (File.read contents).2 = .error fault := by
  unfold read
  dsimp only
  cases (File.read contents).2 <;> simp [Except.map]

theorem reaches_given (h : source.read = .ok (.run s)) : Reaches {} source.given s := by
  cases source with
  | file contents => exact File.reaches_given (read_file_eq_run_iff.1 h)
  | commandLine words => exact Arguments.reaches_given h

/-- Whatever a source gives that leads to settings is acceptable, even if it does not count. -/
theorem acceptable_of_read (h : source.read = .ok (.run s)) :
    ∀ pair ∈ source.given, Acceptable pair := by
  cases source with
  | file contents =>
    rw [read_file_eq_run_iff, File.read, File.readLines_snd] at h
    exact acceptable_of_assignAll h
  | commandLine words =>
    have houtcome := Arguments.readWords_eq_iff.1 (show Arguments.readWords {} _ = _ from h)
    change ∀ pair ∈ Arguments.given (words.map beforeNul), Acceptable pair
    generalize words.map beforeNul = cut at houtcome ⊢
    cases houtcome with
    | run hpairs _ =>
      rw [hpairs.given_eq]
      exact hpairs.acceptable

/-- A text that is read for a setting and refused ends the reading, and the fault tells so. -/
theorem Comes.read_eq_error_iff (h : source.Comes key text)
    (hsubject : fault.subject = some (key, text)) :
    source.read = .error fault ↔ key.Refuses text fault := by
  cases h with
  | @file contents before more key text hgiven hbefore =>
    rw [read_file_eq_error_iff, File.read, File.readLines_snd, assignAll_eq_error_iff, hgiven]
    constructor
    · rintro ⟨-, key', text', -, -, -, hrefused⟩
      exact (Key.valueOf_eq_error_iff.1 hrefused).of_subject hsubject
    · intro hrefuses
      exact ⟨before, key, text, more, rfl, hbefore, Key.valueOf_eq_error_iff.2 hrefuses⟩
  | @commandLine words before more word key text pairs hwords hbefore hword =>
    refine Arguments.readWords_eq_iff.trans ?_
    rw [hwords]
    constructor
    · intro houtcome
      generalize before ++ word :: text :: more = words at houtcome
      cases houtcome with
      | refused _ hoffends =>
        cases hoffends with
        | unknown | incomplete => cases hsubject
        | refused _ hrefuses _ => exact hrefuses.of_subject hsubject
    · intro hrefuses
      exact .refused hbefore (.refused hword hrefuses more)

end Source

/-! ### Numbers -/

theorem Number.subject_fault (number : Number) (text : Bytes) (n : Int) :
    (number.fault text n).subject = some (number.key, text) := by
  unfold fault
  split <;> rfl

theorem refuses_number_iff :
    number.key.Refuses text fault ↔ RefusesNumber number.key text fault := by
  cases number <;> rfl

theorem Natural.bmod_eq (h : Natural text n) : n.bmod (2 ^ 64) = n := by
  obtain ⟨-, hlow, hhigh⟩ := h
  exact Int.bmod_eq_of_le (by norm_num; omega) (by norm_num; omega)

theorem exists_natural (h : Acceptable (number.key, text)) : ∃ n, Natural text n := by
  obtain ⟨value, hvalue⟩ := h
  have hmeans := Key.valueOf_eq_ok_iff.1 hvalue
  cases number with
  | timeout | connectTimeout => exact ⟨_, hmeans⟩
  | reconnects =>
    obtain ⟨n, hn, -⟩ := hmeans
    exact ⟨n, hn⟩

/-- A number keeps as many low bits of what is written as it has. -/
theorem number_eq_bmod (h : number.key.valueOf text = .ok (s.get number.key))
    (hn : Denotes text n) :
    0 ≤ n ∧ s.number number = n.bmod (2 ^ number.bits) := by
  have hmeans := Key.valueOf_eq_ok_iff.1 h
  cases number with
  | timeout | connectTimeout =>
    obtain rfl := hn.unique hmeans.1
    exact ⟨hmeans.2.1, (Natural.bmod_eq hmeans).symm⟩
  | reconnects =>
    obtain ⟨m, hm, hvalue⟩ := hmeans
    obtain rfl := hn.unique hm.1
    exact ⟨hm.2.1, hvalue⟩

/-- The low bits of a natural number are the number itself if the highest of them is not needed. -/
theorem bmod_eq_self_iff (hn : 0 ≤ n) (number : Number) :
    0 ≤ n.bmod (2 ^ number.bits) ∧ n.bmod (2 ^ number.bits) = n ↔ n < 2 ^ (number.bits - 1) := by
  cases number <;> simp only [Number.bits, Int.bmod_def] <;> norm_num <;> omega

/-- A source that leads to settings gives natural numbers of 63 bits only. The last of them is kept
up to the bits of its setting, and so it is stored as it is written, and not negative, if and only
if it fits into them. A text that is read for a number and denotes an integer is refused if and only
if the integer is negative or 64 bits do not hold it, whatever the bits of the setting are. -/
theorem number_as_written_iff (source : Source) (number : Number) :
    (∀ s, source.read = .ok (.run s) →
      (∀ text ∈ textsFor number.key source.given, ∃ n, Natural text n) ∧
      (textsFor number.key source.given = [] → s.number number = 0) ∧
      ∀ text n, (textsFor number.key source.given).getLast? = some text → Denotes text n →
        s.number number = n.bmod (2 ^ number.bits) ∧
        (0 ≤ s.number number ∧ s.number number = n ↔ n < 2 ^ (number.bits - 1))) ∧
    ∀ text n, source.Comes number.key text → Denotes text n →
      (source.read = .error (number.fault text n) ↔ n < 0 ∨ 2 ^ 63 ≤ n) := by
  constructor
  · intro s h
    have hreaches := source.reaches_given h number.key
    refine ⟨?_, ?_, ?_⟩
    · intro text htext
      obtain ⟨⟨key, text'⟩, hmem, hpair⟩ := List.mem_filterMap.1 htext
      obtain ⟨rfl, hsome⟩ := Option.ite_none_right_eq_some.1 hpair
      cases hsome
      exact exists_natural (source.acceptable_of_read h _ hmem)
    · intro hnone
      rw [hnone] at hreaches
      cases number <;> exact hreaches
    · intro text n hlast hn
      rw [hlast] at hreaches
      obtain ⟨hlow, hbmod⟩ := number_eq_bmod hreaches hn
      rw [hbmod]
      exact ⟨rfl, bmod_eq_self_iff hlow number⟩
  · intro text n hcomes hn
    rw [hcomes.read_eq_error_iff (number.subject_fault text n), refuses_number_iff,
      refusesNumber_iff hn]
    exact and_iff_left rfl

/-- A timeout that is given twice on a command line, and one in a file that 64 bits do not hold. -/
theorem number_as_written_iff_timeout :
    (∃ s, (Source.commandLine (["-t", "5", "--timeout", "0007"].map ascii)).read = .ok (.run s) ∧
      0 ≤ s.timeout ∧ s.timeout = 7) ∧
    (Source.file (ascii "log_level = info\ntimeout_ms = 9223372036854775808")).read =
      .error (.notInteger .timeout (ascii "9223372036854775808")) := by
  have h7 : Denotes (ascii "0007") 7 := Spells.denotes (n := 7) (by decide +kernel)
  have h63 : Denotes (ascii "9223372036854775808") 9223372036854775808 :=
    Spells.denotes (n := 9223372036854775808) (by decide +kernel)
  let words := ["-t", "5", "--timeout", "0007"].map ascii
  have hread : (Source.commandLine words).read = .ok (.run { timeout := 7 }) := rfl
  have hlast : (textsFor .timeout (Source.commandLine words).given).getLast? =
      some (ascii "0007") := by decide +kernel
  have hstored := ((number_as_written_iff (.commandLine words) .timeout).1 _ hread).2.2 _ _ hlast h7
  let contents := ascii "log_level = info\ntimeout_ms = 9223372036854775808"
  have hgiven : File.given (lines contents) = [(Key.level, ascii "info")] ++
      (Key.timeout, ascii "9223372036854775808") :: [] := by decide +kernel
  have hbefore : ∀ pair ∈ [(Key.level, ascii "info")], Acceptable pair := by
    simpa using ⟨Level.info, rfl⟩
  have hcomes : (Source.file contents).Comes .timeout (ascii "9223372036854775808") :=
    .file hgiven hbefore
  have hrefused := (number_as_written_iff (.file contents) .timeout).2 _ _ hcomes h63
  exact ⟨⟨_, hread, hstored.2.2 (by decide)⟩, hrefused.2 (by decide)⟩

/-- On a command line, 2³² + 1 reconnections are one. In a file, 2³¹ of them are a negative
number. -/
theorem reconnects_cut :
    (∃ s, (Source.commandLine (["--reconnect", "4294967297"].map ascii)).read = .ok (.run s) ∧
      Denotes (ascii "4294967297") 4294967297 ∧ s.reconnects = 1) ∧
    ∃ s, (Source.file (ascii "reconnect_attempts = 2147483648\n")).read = .ok (.run s) ∧
      Denotes (ascii "2147483648") 2147483648 ∧ s.reconnects = -2147483648 := by
  refine ⟨⟨{ reconnects := 1 }, ?_, ?_, rfl⟩, { reconnects := -2147483648 }, ?_, ?_, rfl⟩
  · decide +kernel
  · exact Spells.denotes (n := 4294967297) (by decide +kernel)
  · decide +kernel
  · exact Spells.denotes (n := 2147483648) (by decide +kernel)

end RemoteCache.Settings
