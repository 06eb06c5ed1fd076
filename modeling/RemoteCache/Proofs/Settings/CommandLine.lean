import RemoteCache.Proofs.Settings.Numerals

/-!
# The grammar of the command line

A command line is read from the left, an option and its value at a time. A value may look like an
option, or like a call for help: what a word is depends on where it stands alone. The reading goes
as far as there are options with acceptable values. Nothing may be left then, or a call for help
comes next; otherwise the command line is refused for what stands there.

## Main definitions

* `Settings.Arguments.Pairs` — words that are options with acceptable values
* `Settings.Arguments.Leads` — the settings that options with values lead to
* `Settings.Arguments.Offends` — words that begin with what is refused, and why

## Main results

* `Settings.Arguments.switch?_eq_some_iff` — the words for an option
* `Settings.Arguments.Pairs.readWords_append` — options with acceptable values are read, whatever
  follows them
* `Settings.Arguments.exists_split` — every command line is such options, up to its end, a call for
  help or an offence
* `Settings.Arguments.read_eq_iff` — the three outcomes of reading a command line
-/

namespace RemoteCache.Settings.Arguments

open Bytes

/-! ### Words -/

/-- The words for an option that takes a value. -/
def Switch.words : Switch → List Bytes
  | .path => [ascii "-c", ascii "--config"]
  | .key .address => [ascii "-a", ascii "--address"]
  | .key .timeout => [ascii "-t", ascii "--timeout"]
  | .key .connectTimeout => [ascii "--connect-timeout"]
  | .key .reconnects => [ascii "--reconnect"]
  | .key .level => [ascii "-l", ascii "--log-level"]

/-- The words that ask for help. -/
def helpWords : List Bytes := [ascii "-h", ascii "--help"]

variable {word text : Bytes} {words rest more : List Bytes} {switch : Switch}
  {pairs : List (Switch × Bytes)} {s s' s₁ : Settings} {fault : Fault}

theorem switch?_eq_some_iff : switch? word = some switch ↔ word ∈ switch.words := by
  constructor
  · intro h
    unfold switch? at h
    split_ifs at h with hpath haddress htimeout hconnect hreconnects hlevel <;> cases h
    · simpa [Switch.words] using hpath
    · simpa [Switch.words] using haddress
    · simpa [Switch.words] using htimeout
    · simpa [Switch.words] using hconnect
    · simpa [Switch.words] using hreconnects
    · simpa [Switch.words] using hlevel
  · have hnames : ∀ word ∈ switch.words, switch? word = some switch := by
      cases switch with
      | path => decide +kernel
      | key key => cases key <;> decide +kernel
    exact hnames word

theorem asksHelp_iff : asksHelp word = true ↔ word ∈ helpWords := by
  simp [asksHelp, helpWords]

/-- No word asks for help and stands for an option. -/
theorem notMem_helpWords (h : word ∈ switch.words) : word ∉ helpWords := by
  have hhelp : ∀ word ∈ helpWords, switch? word = none := by decide +kernel
  intro hword
  have hnone := hhelp word hword
  rw [switch?_eq_some_iff.2 h] at hnone
  cases hnone

/-! ### Options with values -/

/-- Whether an option can have a value. -/
def Switch.Takes : Switch → Bytes → Prop
  | .path, _ => True
  | .key name, text => ∃ value, Key.Means name text value

/-- Words that are options, each with a value that it can have. -/
inductive Pairs : List Bytes → List (Switch × Bytes) → Prop
  | nil : Pairs [] []
  | cons {word text : Bytes} {words : List Bytes} {switch : Switch} {pairs : List (Switch × Bytes)}
    (hword : word ∈ switch.words) (htakes : switch.Takes text) (hmore : Pairs words pairs) :
    Pairs (word :: text :: words) ((switch, text) :: pairs)

/-- The paths that are given, in order. -/
def pathsOf (pairs : List (Switch × Bytes)) : List Bytes :=
  pairs.filterMap fun
    | (.path, path) => some path
    | (.key _, _) => none

/-- The settings that are given, in order. -/
def settingsOf (pairs : List (Switch × Bytes)) : List (Key × Bytes) :=
  pairs.filterMap fun
    | (.path, _) => none
    | (.key key, text) => some (key, text)

/-- The settings that options with values lead to, from others: the path and every setting are those
that are given last, or as they were. -/
structure Leads (s : Settings) (pairs : List (Switch × Bytes)) (s' : Settings) : Prop where
  path : s'.path = (pathsOf pairs).getLast?.or s.path
  settings : Reaches s (settingsOf pairs) s'

theorem Leads.refl (s : Settings) : Leads s [] s := ⟨rfl, .refl s⟩

theorem Leads.unique (h : Leads s pairs s') (h' : Leads s pairs s₁) : s' = s₁ :=
  eq_of_get_eq (fun key => (h.settings.get_eq key).trans (h'.settings.get_eq key).symm)
    (h.path.trans h'.path.symm)

theorem path_of_assign {key : Key} (h : s.assign key text = .ok s₁) : s₁.path = s.path := by
  obtain ⟨value, -, rfl⟩ := assign_eq_ok_iff.1 h
  exact path_put s key value

theorem Leads.cons (h : apply s switch text = .ok s₁) (hmore : Leads s₁ pairs s') :
    Leads s ((switch, text) :: pairs) s' := by
  obtain ⟨hpath, hsettings⟩ := hmore
  cases switch with
  | path =>
    cases h
    refine ⟨?_, hsettings.of_get_eq fun key => by cases key <;> rfl⟩
    have hpaths : pathsOf ((.path, text) :: pairs) = text :: pathsOf pairs := rfl
    rw [hpath, hpaths, List.getLast?_cons]
    cases (pathsOf pairs).getLast? <;> rfl
  | key key => exact ⟨hpath.trans (by rw [path_of_assign h]; rfl), hsettings.cons h⟩

/-- The settings that are given are those of the options. -/
theorem Pairs.given_eq (h : Pairs words pairs) : given words = settingsOf pairs := by
  induction h with
  | nil => rfl
  | @cons word text words switch pairs hword _ _ ih =>
    rw [given, switch?_eq_some_iff.2 hword, ih]
    cases switch <;> rfl

theorem exists_apply (h : switch.Takes text) (s : Settings) :
    ∃ s₁, apply s switch text = .ok s₁ := by
  cases switch with
  | path => exact ⟨_, rfl⟩
  | key key =>
    obtain ⟨value, hvalue⟩ := h
    exact ⟨_, assign_eq_ok_iff.2 ⟨value, Key.valueOf_eq_ok_iff.2 hvalue, rfl⟩⟩

theorem readWords_cons_cons (hword : word ∈ switch.words) (s : Settings) (text : Bytes)
    (more : List Bytes) :
    readWords s (word :: text :: more) = (apply s switch text).bind (readWords · more) := by
  have hhelp : ¬ asksHelp word = true := mt asksHelp_iff.1 (notMem_helpWords hword)
  rw [readWords, if_neg hhelp, switch?_eq_some_iff.2 hword]
  rfl

/-- Options with values that they can have are read, whatever follows them. -/
theorem Pairs.readWords_append (h : Pairs words pairs) (s : Settings) (rest : List Bytes) :
    ∃ s', Leads s pairs s' ∧ readWords s (words ++ rest) = readWords s' rest := by
  induction h generalizing s with
  | nil => exact ⟨s, .refl s, rfl⟩
  | cons hword htakes _ ih =>
    obtain ⟨s₁, hs₁⟩ := exists_apply htakes s
    obtain ⟨s', hleads, hread⟩ := ih s₁
    refine ⟨s', hleads.cons hs₁, ?_⟩
    rw [List.cons_append, List.cons_append, readWords_cons_cons hword, hs₁]
    exact hread

/-! ### What stops the reading -/

theorem readWords_help (h : word ∈ helpWords) (s : Settings) (more : List Bytes) :
    readWords s (word :: more) = .ok .help := by
  cases more <;> rw [readWords, if_pos (asksHelp_iff.2 h)]

/-- Words that begin with an offence: a word that is no option, an option without a value, or an
option with a value that it cannot have. -/
inductive Offends : List Bytes → Fault → Prop
  | unknown {word : Bytes} (hhelp : word ∉ helpWords)
      (hword : ∀ switch : Switch, word ∉ switch.words)
    (more : List Bytes) : Offends (word :: more) (.strayOption word)
  | incomplete {word : Bytes} {switch : Switch} (hword : word ∈ switch.words) :
    Offends [word] (.strayOption word)
  | refused {word text : Bytes} {key : Key} {fault : Fault} (hword : word ∈ (Switch.key key).words)
    (hrefuses : key.Refuses text fault) (more : List Bytes) : Offends (word :: text :: more) fault

/-- An offence ends the reading. -/
theorem Offends.readWords_eq (h : Offends rest fault) (s : Settings) :
    readWords s rest = .error fault := by
  cases h with
  | @unknown word hhelp hword more =>
    have hask : ¬ asksHelp word = true := mt asksHelp_iff.1 hhelp
    cases more with
    | nil => rw [readWords, if_neg hask]
    | cons text more =>
      have hnone : switch? word = none :=
        Option.eq_none_iff_forall_ne_some.2 fun switch h => hword switch (switch?_eq_some_iff.1 h)
      rw [readWords, if_neg hask, hnone]
  | incomplete hword => rw [readWords, if_neg (mt asksHelp_iff.1 (notMem_helpWords hword))]
  | @refused word text key fault hword hrefuses more =>
    have happly : apply s (.key key) text = .error fault := by
      rw [apply, assign_eq, Key.valueOf_eq_error_iff.2 hrefuses]
      rfl
    rw [readWords_cons_cons hword, happly]
    rfl

/-- Every command line consists of options with values that they can have, up to its end, or to a
call for help, or to an offence. -/
theorem exists_split : (words : List Bytes) → ∃ before rest pairs, words = before ++ rest ∧
    Pairs before pairs ∧ (rest = [] ∨ (∃ word more, rest = word :: more ∧ word ∈ helpWords) ∨
      ∃ fault, Offends rest fault)
  | [] => ⟨[], [], [], rfl, .nil, .inl rfl⟩
  | [word] => by
    refine ⟨[], [word], [], rfl, .nil, .inr ?_⟩
    by_cases hhelp : word ∈ helpWords
    · exact .inl ⟨word, [], rfl, hhelp⟩
    · by_cases hword : ∃ switch : Switch, word ∈ switch.words
      · obtain ⟨switch, hword⟩ := hword
        exact .inr ⟨_, .incomplete hword⟩
      · exact .inr ⟨_, .unknown hhelp (not_exists.1 hword) []⟩
  | word :: text :: more => by
    by_cases hhelp : word ∈ helpWords
    · exact ⟨[], _, [], rfl, .nil, .inr (.inl ⟨word, _, rfl, hhelp⟩)⟩
    by_cases hword : ∃ switch : Switch, word ∈ switch.words
    · obtain ⟨switch, hword⟩ := hword
      -- The value decides whether the reading goes on.
      have htakes : switch.Takes text ∨ ∃ fault, Offends (word :: text :: more) fault := by
        cases switch with
        | path => exact .inl trivial
        | key key =>
          cases hvalue : key.valueOf text with
          | ok value => exact .inl ⟨value, Key.valueOf_eq_ok_iff.1 hvalue⟩
          | error fault =>
            exact .inr ⟨fault, .refused hword (Key.valueOf_eq_error_iff.1 hvalue) more⟩
      rcases htakes with htakes | hoffends
      · obtain ⟨before, rest, pairs, rfl, hpairs, hend⟩ := exists_split more
        exact ⟨word :: text :: before, rest, (switch, text) :: pairs, rfl,
          .cons hword htakes hpairs, hend⟩
      · exact ⟨[], _, [], rfl, .nil, .inr (.inr hoffends)⟩
    · exact ⟨[], _, [], rfl, .nil, .inr (.inr ⟨_, .unknown hhelp (not_exists.1 hword) _⟩)⟩

/-! ### Reading a command line -/

/-- What some words lead to, from given settings. -/
inductive Outcome (s : Settings) : List Bytes → Except Fault Request → Prop
  | run {words : List Bytes} {pairs : List (Switch × Bytes)} {s' : Settings}
    (hpairs : Pairs words pairs) (hleads : Leads s pairs s') : Outcome s words (.ok (.run s'))
  | help {before : List Bytes} {word : Bytes} {pairs : List (Switch × Bytes)}
    (hpairs : Pairs before pairs) (hword : word ∈ helpWords) (more : List Bytes) :
    Outcome s (before ++ word :: more) (.ok .help)
  | refused {before rest : List Bytes} {pairs : List (Switch × Bytes)} {fault : Fault}
    (hpairs : Pairs before pairs) (hoffends : Offends rest fault) :
    Outcome s (before ++ rest) (.error fault)

theorem Outcome.readWords_eq {outcome : Except Fault Request} (h : Outcome s words outcome) :
    readWords s words = outcome := by
  cases h with
  | run hpairs hleads =>
    obtain ⟨s₁, hleads₁, hread⟩ := hpairs.readWords_append s []
    rw [List.append_nil] at hread
    rw [hread, hleads₁.unique hleads]
    rfl
  | help hpairs hword more =>
    obtain ⟨s₁, -, hread⟩ := hpairs.readWords_append s _
    rw [hread, readWords_help hword]
  | refused hpairs hoffends =>
    obtain ⟨s₁, -, hread⟩ := hpairs.readWords_append s _
    rw [hread, hoffends.readWords_eq]

theorem exists_outcome (s : Settings) (words : List Bytes) :
    ∃ outcome, Outcome s words outcome := by
  obtain ⟨before, rest, pairs, rfl, hpairs, rfl | ⟨word, more, rfl, hword⟩ | ⟨fault, hoffends⟩⟩ :=
    exists_split words
  · obtain ⟨s', hleads, -⟩ := hpairs.readWords_append s []
    exact ⟨_, .run (by rwa [List.append_nil]) hleads⟩
  · exact ⟨_, .help hpairs hword more⟩
  · exact ⟨_, .refused hpairs hoffends⟩

theorem readWords_eq_iff {outcome : Except Fault Request} :
    readWords s words = outcome ↔ Outcome s words outcome := by
  refine ⟨?_, Outcome.readWords_eq⟩
  rintro rfl
  obtain ⟨outcome, houtcome⟩ := exists_outcome s words
  rwa [houtcome.readWords_eq]

/-- A command line leads to settings if and only if it consists of options with acceptable values;
the settings are then those that are given last, and otherwise the defaults. It is a call for help
if and only if such a call comes where an option would, after options with acceptable values only.
And it is refused for what stands after them, if that is no option with an acceptable value. -/
theorem read_eq_iff (words : List Bytes) :
    (∀ s, read words = .ok (.run s) ↔
      ∃ pairs, Pairs (words.map beforeNul) pairs ∧ Leads {} pairs s) ∧
    (read words = .ok .help ↔ ∃ before word more pairs,
      words.map beforeNul = before ++ word :: more ∧ Pairs before pairs ∧ word ∈ helpWords) ∧
    ∀ fault, read words = .error fault ↔ ∃ before rest pairs,
      words.map beforeNul = before ++ rest ∧ Pairs before pairs ∧ Offends rest fault := by
  unfold read
  generalize words.map beforeNul = words
  refine ⟨fun s => readWords_eq_iff.trans ⟨?_, ?_⟩, readWords_eq_iff.trans ⟨?_, ?_⟩,
    fun fault => readWords_eq_iff.trans ⟨?_, ?_⟩⟩
  · rintro ⟨hpairs, hleads⟩
    exact ⟨_, hpairs, hleads⟩
  · rintro ⟨pairs, hpairs, hleads⟩
    exact .run hpairs hleads
  · rintro ⟨⟩
    rename_i hpairs hword more
    exact ⟨_, _, more, _, rfl, hpairs, hword⟩
  · rintro ⟨before, word, more, pairs, rfl, hpairs, hword⟩
    exact .help hpairs hword more
  · rintro ⟨⟩
    rename_i hpairs hoffends
    exact ⟨_, _, _, rfl, hpairs, hoffends⟩
  · rintro ⟨before, rest, pairs, rfl, hpairs, hoffends⟩
    exact .refused hpairs hoffends

/-- A word that looks like a call for help is a value where a value is due. -/
example : read (["-a", "--help"].map ascii) = .ok (.run { address := ascii "--help" }) := rfl

end RemoteCache.Settings.Arguments
