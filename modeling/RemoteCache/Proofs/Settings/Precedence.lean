import RemoteCache.Console.Program

/-!
# Which source of a setting wins

A setting can be given on the command line and in a file, and more than once in each. What is given
later in a source wins over what was given before, and the command line is meant to win over the
file, and the file over the default.

The settings that a source leads to do not record what was given. A value that equals the default
counts as not given, and so it loses to the file although it stands on the command line.

## Main definitions

* `Settings.Key.Value`, `Settings.get` — the value of a setting, of whatever kind it is
* `Settings.File.given`, `Settings.Arguments.given` — what a file and a command line give, in order
* `Settings.told` — the value that a source gives last
* `Settings.assignAll` — the settings after each of some texts is assigned
* `Settings.preferred` — the value of a setting by the order of the sources

## Main results

* `Settings.File.readLines_snd` — reading a file assigns what it gives
* `Settings.File.reaches_given`, `Settings.Arguments.reaches_given` — reading a source leads to the
  values that it gives last
* `Settings.merge_eq_preferred_iff` — the program runs with the preferred value, unless the default
  is given on the command line and something else in the file
-/

namespace RemoteCache.Settings

/-! ### Values -/

/-- The kind of value that a setting has. -/
def Key.Value : Key → Type
  | .address => Bytes
  | .timeout | .connectTimeout | .reconnects => Int
  | .level => Level

instance : (key : Key) → DecidableEq key.Value
  | .address => inferInstanceAs (DecidableEq Bytes)
  | .timeout | .connectTimeout | .reconnects => inferInstanceAs (DecidableEq Int)
  | .level => inferInstanceAs (DecidableEq Level)

/-- The value that a text gives a setting. -/
def Key.valueOf : (key : Key) → Bytes → Except Fault key.Value
  | .address, text => .ok text
  | .timeout, text => readNumber .timeout text
  | .connectTimeout, text => readNumber .connectTimeout text
  | .reconnects, text => (readNumber .reconnects text).map fun n => n.bmod (2 ^ 32)
  | .level, text => readLevel .level text

/-- The value of a setting. -/
def get (s : Settings) : (key : Key) → key.Value
  | .address => s.address
  | .timeout => s.timeout
  | .connectTimeout => s.connectTimeout
  | .reconnects => s.reconnects
  | .level => s.level

/-- The settings with another value for one of them. -/
def put (s : Settings) : (key : Key) → key.Value → Settings
  | .address, address => { s with address }
  | .timeout, timeout => { s with timeout }
  | .connectTimeout, connectTimeout => { s with connectTimeout }
  | .reconnects, reconnects => { s with reconnects }
  | .level, level => { s with level }

variable {s s' : Settings} {key other : Key} {text : Bytes} {pairs : List (Key × Bytes)}

@[simp] theorem get_put (s : Settings) (key : Key) (value : key.Value) :
    (s.put key value).get key = value := by
  cases key <;> rfl

theorem get_put_of_ne (s : Settings) (value : key.Value) (h : other ≠ key) :
    (s.put key value).get other = s.get other := by
  cases key <;> cases other <;> trivial

/-- To assign a text is to put its value, if it has one. -/
theorem assign_eq (s : Settings) (key : Key) (text : Bytes) :
    s.assign key text = (key.valueOf text).map (s.put key) := by
  cases key with
  | address => rfl
  | timeout | connectTimeout | reconnects =>
    unfold assign Key.valueOf
    dsimp only
    cases readNumber _ text <;> rfl
  | level =>
    unfold assign Key.valueOf
    dsimp only
    cases readLevel _ text <;> rfl

theorem assign_eq_ok_iff :
    s.assign key text = .ok s' ↔ ∃ value, key.valueOf text = .ok value ∧ s.put key value = s' := by
  rw [assign_eq]
  cases key.valueOf text <;> simp [Except.map]

theorem get_merge (file commandLine defaults : Settings) (key : Key) :
    (merge file commandLine defaults).get key =
      override (defaults.get key) (file.get key) (commandLine.get key) := by
  cases key <;> rfl

/-! ### What a source gives -/

/-- The texts that a source gives for a setting, in order. -/
def textsFor (key : Key) (pairs : List (Key × Bytes)) : List Bytes :=
  pairs.filterMap fun (name, text) => if name = key then some text else none

/-- The value that a source gives last for a setting, if it gives any. -/
def told (key : Key) (pairs : List (Key × Bytes)) : Option key.Value :=
  (textsFor key pairs).getLast?.bind fun text => (key.valueOf text).toOption

/-- Settings that a source leads to, from others: every setting has the value that is given last for
it, or the one that it had. -/
def Reaches (s : Settings) (pairs : List (Key × Bytes)) (s' : Settings) : Prop :=
  ∀ key, match (textsFor key pairs).getLast? with
    | some text => key.valueOf text = .ok (s'.get key)
    | none => s'.get key = s.get key

theorem Reaches.refl (s : Settings) : Reaches s [] s := fun _ => rfl

/-- Only the values of settings matter, not where they come from. -/
theorem Reaches.of_get_eq {s₁ : Settings} (h : Reaches s₁ pairs s')
    (heq : ∀ key, s₁.get key = s.get key) : Reaches s pairs s' := by
  intro key
  have hkey := h key
  rwa [heq] at hkey

/-- What is given later wins. -/
theorem Reaches.cons {s₁ : Settings} (h : s.assign key text = .ok s₁)
    (hmore : Reaches s₁ pairs s') : Reaches s ((key, text) :: pairs) s' := by
  obtain ⟨value, hvalue, rfl⟩ := assign_eq_ok_iff.1 h
  intro other
  have hlater := hmore other
  by_cases hother : key = other
  · subst hother
    have htexts : textsFor key ((key, text) :: pairs) = text :: textsFor key pairs := by
      simp [textsFor]
    rw [htexts, List.getLast?_cons]
    cases hlast : (textsFor key pairs).getLast? with
    | some later =>
      rw [hlast] at hlater
      exact hlater
    | none =>
      rw [hlast, get_put] at hlater
      exact hlater ▸ hvalue
  · have htexts : textsFor other ((key, text) :: pairs) = textsFor other pairs := by
      simp [textsFor, hother]
    rw [htexts]
    cases hlast : (textsFor other pairs).getLast? with
    | some later =>
      rw [hlast] at hlater
      exact hlater
    | none =>
      rw [hlast] at hlater
      exact hlater.trans (get_put_of_ne s value (Ne.symm hother))

/-- What a source leads to is what it tells, and of the rest what was there before. -/
theorem Reaches.get_eq (h : Reaches s pairs s') (key : Key) :
    s'.get key = (told key pairs).getD (s.get key) := by
  have hkey := h key
  unfold told
  cases hlast : (textsFor key pairs).getLast? with
  | some text =>
    rw [hlast] at hkey
    rw [Option.bind_some, show key.valueOf text = .ok (s'.get key) from hkey]
    rfl
  | none =>
    rw [hlast] at hkey
    exact hkey

/-- The settings after each of some texts is assigned, in order. -/
def assignAll (s : Settings) (pairs : List (Key × Bytes)) : Except Fault Settings :=
  pairs.foldlM (fun s pair => s.assign pair.1 pair.2) s

theorem assignAll_cons (s : Settings) (key : Key) (text : Bytes) (pairs : List (Key × Bytes)) :
    s.assignAll ((key, text) :: pairs) =
      (key.valueOf text).bind fun value => (s.put key value).assignAll pairs := by
  rw [assignAll, List.foldlM_cons, assign_eq]
  cases key.valueOf text <;> rfl

theorem assignAll_append (s : Settings) (before more : List (Key × Bytes)) :
    s.assignAll (before ++ more) = (s.assignAll before).bind fun s => s.assignAll more :=
  List.foldlM_append

theorem assignAll_cons_eq_ok_iff :
    s.assignAll ((key, text) :: pairs) = .ok s' ↔
      ∃ value, key.valueOf text = .ok value ∧ (s.put key value).assignAll pairs = .ok s' := by
  rw [assignAll_cons]
  cases key.valueOf text <;> simp [Except.bind]

theorem reaches_assignAll (h : s.assignAll pairs = .ok s') : Reaches s pairs s' := by
  induction pairs generalizing s with
  | nil =>
    cases h
    exact .refl _
  | cons pair pairs ih =>
    obtain ⟨value, hvalue, hmore⟩ := assignAll_cons_eq_ok_iff.1 h
    exact (ih hmore).cons (assign_eq_ok_iff.2 ⟨value, hvalue, rfl⟩)

/-- The settings that the lines of a file give, in order. -/
def File.given (lines : List Bytes) : List (Key × Bytes) :=
  lines.filterMap fun line => (setting? line).bind fun (name, value) =>
    (Key.read? name).map fun key => (key, value)

/-- Reading lines assigns what they give. -/
theorem File.readLines_snd (s : Settings) (lines : List Bytes) :
    (readLines s lines).2 = s.assignAll (given lines) := by
  fun_induction readLines s lines with
  | case1 s => rfl
  | case2 s line more hsetting ih => simpa [given, hsetting] using ih
  | case3 s line more name value hsetting hkey notes result hmore ih =>
    rw [hmore] at ih
    simpa [given, hsetting, hkey] using ih
  | case4 s line more name text hsetting key hkey fault hassign =>
    simp [given, hsetting, hkey, assignAll, hassign, Except.bind, bind]
  | case5 s line more name text hsetting key hkey s₁ hassign ih =>
    simpa [given, hsetting, hkey, assignAll, hassign, Except.bind, bind] using ih

theorem File.reaches_given {lines : List Bytes} (h : (readLines s lines).2 = .ok s') :
    Reaches s (given lines) s' :=
  reaches_assignAll (readLines_snd s lines ▸ h)

/-- The settings that the words of a command line give, in order: an option and its value at a
time. -/
def Arguments.given : List Bytes → List (Key × Bytes)
  | word :: value :: more =>
    match switch? word with
    | some (.key key) => (key, value) :: given more
    | _ => given more
  | _ => []

theorem Arguments.reaches_given {words : List Bytes} (h : readWords s words = .ok (.run s')) :
    Reaches s (given words) s' := by
  fun_induction readWords s words with
  | case1 s =>
    cases h
    exact .refl _
  | case2 s word hhelp => cases h
  | case3 s word hhelp => cases h
  | case4 s word value more hhelp => cases h
  | case5 s word value more hhelp hswitch => cases h
  | case6 s word value more hhelp switch hswitch ih =>
    rw [given, hswitch]
    cases switch with
    | path => exact (ih _ h).of_get_eq fun key => by cases key <;> rfl
    | key key =>
      cases hassign : s.assign key value with
      | error fault =>
        rw [apply, hassign] at h
        cases h
      | ok s₁ =>
        rw [apply, hassign] at h
        exact (ih s₁ h).cons hassign

/-! ### The order of the sources -/

/-- The value of a setting by the order of its sources: what the command line gives last, or else
what the file gives last, or else the default. -/
def preferred (key : Key) (commandLine file : List (Key × Bytes)) : key.Value :=
  ((told key commandLine).or (told key file)).getD (get {} key)

/-- The settings that a file gives that can be read. -/
def givenAt (readContents : Bytes → Option Bytes) (path : Option Bytes) : List (Key × Bytes) :=
  match path.bind readContents with
  | none => []
  | some contents => File.given (Bytes.lines contents)

theorem reaches_givenAt {readContents : Bytes → Option Bytes} {path : Option Bytes}
    {shown : List Utterance} {file : Settings}
    (h : Console.readFile readContents path = (shown, .ok file)) :
    Reaches {} (givenAt readContents path) file := by
  unfold Console.readFile at h
  unfold givenAt
  cases path with
  | none =>
    cases h
    exact .refl _
  | some path =>
    rw [Option.bind_some]
    dsimp only at h
    cases hcontents : readContents path with
    | none =>
      rw [hcontents] at h
      cases h
      exact .refl _
    | some contents =>
      rw [hcontents] at h
      exact File.reaches_given (congrArg Prod.snd h)

/-- What the program runs with, once its command line and its file are read: every setting has the
preferred value, except where the default is what the command line gives last, and the file gives
something else last. Then the file wins. -/
theorem merge_eq_preferred_iff {words : List Bytes} {readContents : Bytes → Option Bytes}
    {commandLine file : Settings} {shown : List Utterance}
    (hwords : Arguments.read words = .ok (.run commandLine))
    (hfile : Console.readFile readContents commandLine.path = (shown, .ok file))
    (network : Network) :
    Console.start words readContents network =
        Console.openWith (merge file commandLine {}) network shown ∧
      ∀ key : Key,
        ((merge file commandLine {}).get key =
            preferred key (Arguments.given (words.map Bytes.beforeNul))
              (givenAt readContents commandLine.path) ↔
          ¬ (told key (Arguments.given (words.map Bytes.beforeNul)) = some (get {} key) ∧
            ∃ value, told key (givenAt readContents commandLine.path) = some value ∧
              value ≠ get {} key)) ∧
        ∀ value, told key (givenAt readContents commandLine.path) = some value →
          told key (Arguments.given (words.map Bytes.beforeNul)) = some (get {} key) →
          (merge file commandLine {}).get key = value := by
  constructor
  · unfold Console.start
    rw [hwords]
    dsimp only
    rw [hfile]
  · intro key
    rw [get_merge, (Arguments.reaches_given hwords).get_eq, (reaches_givenAt hfile).get_eq]
    unfold preferred override
    cases told key (Arguments.given (words.map Bytes.beforeNul)) with
    | none =>
      cases told key (givenAt readContents commandLine.path) with
      | none => simp
      | some filed => by_cases hfiled : filed = get {} key <;> simp [hfiled]
    | some said =>
      cases told key (givenAt readContents commandLine.path) with
      | none => by_cases hsaid : said = get {} key <;> simp [hsaid]
      | some filed =>
        by_cases hsaid : said = get {} key
        · by_cases hfiled : filed = get {} key <;> simp [hsaid, hfiled]
        · simp [hsaid]

/-- A timeout that is given twice on the command line and once in the file, and an address that only
the file gives: each has its preferred value. -/
theorem merge_eq_preferred_iff_timeout :
    ∃ (words : List Bytes) (readContents : Bytes → Option Bytes) (commandLine file : Settings),
      Arguments.read words = .ok (.run commandLine) ∧
      Console.readFile readContents commandLine.path = ([], .ok file) ∧
      (merge file commandLine {}).get .timeout =
        preferred .timeout (Arguments.given (words.map Bytes.beforeNul))
          (givenAt readContents commandLine.path) ∧
      (merge file commandLine {}).get .timeout = (30 : Int) ∧
      (merge file commandLine {}).get .address =
        preferred .address (Arguments.given (words.map Bytes.beforeNul))
          (givenAt readContents commandLine.path) ∧
      (merge file commandLine {}).get .address = Bytes.ascii "paper://cache:1" := by
  let words := ["-t", "20", "-c", "f", "--timeout", "30"].map Bytes.ascii
  let contents := Bytes.ascii "timeout_ms = 5\n# remark\naddress = paper://cache:1\n"
  let commandLine : Settings := { timeout := 30, path := some (Bytes.ascii "f") }
  let file : Settings := { timeout := 5, address := Bytes.ascii "paper://cache:1" }
  have hwords : Arguments.read words = .ok (.run commandLine) := rfl
  have hfile : Console.readFile (fun _ => some contents) commandLine.path = ([], .ok file) := rfl
  have hkeys := (merge_eq_preferred_iff hwords hfile {}).2
  refine ⟨words, fun _ => some contents, commandLine, file, hwords, hfile,
    (hkeys .timeout).1.2 ?_, rfl, (hkeys .address).1.2 ?_, rfl⟩
  · decide +kernel
  · decide +kernel

/-- The default address on the command line, and another one in the file: the program runs with the
address of the file. -/
theorem merge_default_address :
    ∃ (words : List Bytes) (readContents : Bytes → Option Bytes) (commandLine file : Settings),
      Arguments.read words = .ok (.run commandLine) ∧
      Console.readFile readContents commandLine.path = ([], .ok file) ∧
      told .address (Arguments.given (words.map Bytes.beforeNul)) =
        some (Bytes.ascii "paper://127.0.0.1:3145") ∧
      (merge file commandLine {}).get .address = Bytes.ascii "paper://other:1" ∧
      (merge file commandLine {}).get .address ≠
        preferred .address (Arguments.given (words.map Bytes.beforeNul))
          (givenAt readContents commandLine.path) := by
  let words := ["-a", "paper://127.0.0.1:3145", "-c", "f"].map Bytes.ascii
  let contents := Bytes.ascii "address = paper://other:1\n"
  let commandLine : Settings := { path := some (Bytes.ascii "f") }
  let file : Settings := { address := Bytes.ascii "paper://other:1" }
  refine ⟨words, fun _ => some contents, commandLine, file, rfl, rfl, rfl, rfl, ?_⟩
  decide +kernel

end RemoteCache.Settings
