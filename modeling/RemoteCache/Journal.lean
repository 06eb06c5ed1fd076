import RemoteCache.Numeral

/-!
# The journal

What a client does is noted in a journal. Every note has a level; the journal drops the notes
below its own level and writes the others as lines, each with the time of day.

## Main definitions

* `Level` — how grave a note is
* `Note` — a level and a message
* `Journal` — the level, the time and the destination of lines
* `Utterance` — a text and where it goes
* `Journal.write` — the line of a note and where it goes, unless the note is dropped
* `Calendar.stamp` — a point of time as a date and a time of day
-/

namespace RemoteCache

/-- How grave a note is. `none` is the level of no note: a journal of this level drops all. -/
inductive Level
  | debug
  | info
  | warn
  | error
  | none
deriving DecidableEq, Inhabited

namespace Level

/-- The rank of a level, from the least grave on. -/
def rank : Level → Nat
  | .debug => 0
  | .info => 1
  | .warn => 2
  | .error => 3
  | .none => 4

/-- The name of a level in settings. -/
def name : Level → Bytes
  | .debug => Bytes.ascii "debug"
  | .info => Bytes.ascii "info"
  | .warn => Bytes.ascii "warn"
  | .error => Bytes.ascii "error"
  | .none => Bytes.ascii "none"

/-- The level with a name, which is in lower case. -/
def read? (b : Bytes) : Option Level :=
  [Level.debug, .info, .warn, .error, .none].find? fun level => level.name == b

/-- The mark of a level in a line, five bytes wide. -/
def mark : Level → Bytes
  | .debug => Bytes.ascii "DEBUG"
  | .info => Bytes.ascii "INFO "
  | .warn => Bytes.ascii "WARN "
  | .error => Bytes.ascii "ERROR"
  | .none => Bytes.ascii "?????"

/-- Whether a note of this level reaches a journal's level. -/
def reaches (level threshold : Level) : Bool := threshold.rank ≤ level.rank

theorem read?_name (level : Level) : read? level.name = some level := by
  cases level <;> rfl

end Level

namespace Calendar

/-- The year, month and day that lie `days` after the first of January 1970. Years are counted
from March on, in eras of four hundred years, so that a leap day ends its year. -/
def date (days : Int) : Int × Int × Int :=
  -- The first of March of the year zero lies 719468 days before 1970.
  let shifted := days + 719468
  let era := shifted / 146097
  let dayOfEra := shifted % 146097
  let yearOfEra :=
    (dayOfEra - dayOfEra / 1460 + dayOfEra / 36524 - dayOfEra / 146096) / 365
  let dayOfYear := dayOfEra - (365 * yearOfEra + yearOfEra / 4 - yearOfEra / 100)
  -- From March on, every five months have 153 days.
  let monthFromMarch := (5 * dayOfYear + 2) / 153
  let day := dayOfYear - (153 * monthFromMarch + 2) / 5 + 1
  let month := if monthFromMarch < 10 then monthFromMarch + 3 else monthFromMarch - 9
  let year := yearOfEra + era * 400 + if month ≤ 2 then 1 else 0
  (year, month, day)

/-- A number of at least two digits. -/
def twoDigits (n : Int) : Bytes := Numeral.padLeft 2 (Numeral.ofInt n)

/-- A point of time, in milliseconds since the beginning of 1970, as a date and a time of day.
Whole seconds are counted towards 1970. -/
def stamp (milliseconds : Int) : Bytes :=
  let seconds := milliseconds.tdiv 1000
  let rest := milliseconds.tmod 1000
  let (year, month, day) := date (seconds / 86400)
  let timeOfDay := seconds % 86400
  Numeral.ofInt year ++ 45 :: twoDigits month ++ 45 :: twoDigits day ++ 32 ::
    twoDigits (timeOfDay / 3600) ++ 58 :: twoDigits (timeOfDay / 60 % 60) ++ 58 ::
    twoDigits (timeOfDay % 60) ++ 46 :: Numeral.padLeft 3 (Numeral.ofInt rest)

end Calendar

/-- A message and how grave it is. -/
structure Note where
  level : Level
  message : Bytes
deriving DecidableEq, Inhabited

/-- Where a line goes. -/
inductive Channel
  | output
  | error
  /-- The one destination that stands for both others. -/
  | diverted
deriving DecidableEq, Inhabited

/-- A text and where it goes. -/
structure Utterance where
  channel : Channel
  text : Bytes
deriving DecidableEq, Inhabited

/-- What some utterances, the earliest first, put on one channel. -/
def Utterance.on (channel : Channel) (shown : List Utterance) : Bytes :=
  shown.flatMap fun u => if u.channel = channel then u.text else []

/-- What some utterances, the earliest first, put on all channels together. -/
def Utterance.together (shown : List Utterance) : Bytes := shown.flatMap Utterance.text

/-- The settings of a journal. A journal is quiet unless something has gone wrong. -/
structure Journal where
  /-- The least level that is written. -/
  level : Level := .warn
  /-- Whether all lines go to one destination. -/
  isDiverted : Bool := false
  /-- The time of day, in milliseconds since the beginning of 1970. -/
  time : Int := 0
deriving DecidableEq, Inhabited

namespace Journal

/-- The line of a note: the time, the level and the message. -/
def line (j : Journal) (note : Note) : Bytes :=
  Calendar.stamp j.time ++ Bytes.ascii " [" ++ note.level.mark ++ Bytes.ascii "] paper: " ++
    note.message ++ [10]

/-- Where the lines of a level go. -/
def channel (j : Journal) (level : Level) : Channel :=
  if j.isDiverted then .diverted
  else if level.reaches .warn then .error
  else .output

/-- Whether it is worth while to build the message of a note of this level. -/
def wants (j : Journal) (level : Level) : Bool := level.reaches j.level

/-- The line of a note and where it goes, unless the note is dropped. -/
def write (j : Journal) (note : Note) : Option Utterance :=
  if note.level = .none || !j.wants note.level then none
  else some ⟨j.channel note.level, j.line note⟩

/-- The lines of some notes, without those that are dropped. -/
def writeAll (j : Journal) (notes : List Note) : List Utterance := notes.filterMap j.write

end Journal

end RemoteCache
