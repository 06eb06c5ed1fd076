import RemoteCache.Settings

/-!
# Settings files

A file has one setting per line, a name and a value with an equals sign between them. Blanks
around both are dropped, and so are double quotes around the value. Empty lines, lines that begin
with a number sign and lines without an equals sign are passed over.

## Main definitions

* `Settings.File.setting?` — the name and the value that a line gives
* `Settings.File.read` — the settings of a file, and the notes taken while reading
-/

namespace RemoteCache.Settings.File

/-- The blanks of a settings file: space, tabulator, carriage return and line feed. -/
def isBlank (b : UInt8) : Bool := b == 32 || b == 9 || b == 13 || b == 10

/-- The number sign, which begins a remark. -/
def remarkMark : UInt8 := 35

/-- The equals sign, which ends the name of a setting. -/
def equalsSign : UInt8 := 61

/-- The double quote, which may stand around a value. -/
def quote : UInt8 := 34

/-- A value without the double quotes around it. -/
def unquote (value : Bytes) : Bytes :=
  if 2 ≤ value.length && value.head? == some quote && value.getLast? == some quote then
    value.tail.dropLast
  else value

/-- The name and the value that a line gives, if it gives any. -/
def setting? (line : Bytes) : Option (Bytes × Bytes) :=
  let line := Bytes.trim isBlank line
  if line.head? = some remarkMark then none
  else
    (Bytes.cutAt? equalsSign line).map fun (name, value) =>
      (Bytes.trim isBlank name, unquote (Bytes.trim isBlank value))

/-- The note about a name that stands for no setting. -/
def unknownNote (name : Bytes) : Note :=
  ⟨.warn, Bytes.ascii "config: ignoring unknown key '" ++ name ++ Bytes.ascii "'"⟩

/-- The settings that some lines change given ones to. Later lines win. Names that stand for no
setting are noted and passed over; the first refused value ends the reading. -/
def readLines (s : Settings) : List Bytes → List Note × Except Fault Settings
  | [] => ([], .ok s)
  | line :: more =>
    match setting? line with
    | none => readLines s more
    | some (name, value) =>
      match Key.read? name with
      | none =>
        let (notes, result) := readLines s more
        (unknownNote name :: notes, result)
      | some key =>
        match s.assign key value with
        | .error fault => ([], .error fault)
        | .ok s => readLines s more

/-- The settings of a file with the given contents. -/
def read (contents : Bytes) : List Note × Except Fault Settings :=
  readLines {} (Bytes.lines contents)

end RemoteCache.Settings.File
