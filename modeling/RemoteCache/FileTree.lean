import RemoteCache.Bytes

/-!
# File trees

The program reads at most one file, the settings file, whose path is a word of the command line. So
it can be run on any function from paths to contents, and a tree is such a function: it does what
opening a path and reading to the end would do if there were only its files.

A tree holds the files in the current directory and below it. A path is followed step by step,
from the root if it begins with a slash, and from the current directory if not. Of what lies
outside the current directory only the way up is known: it leads through directories, and nothing
is found beside it.

## Main definitions

* `FileTree` — files, each under the names that lead to it
* `FileTree.steps` — the parts of a path between its slashes
* `FileTree.ofFiles` — the tree of some files with their paths
* `FileTree.follow?` — what is read where some steps lead
* `FileTree.contents?` — what is read at a path
-/

namespace RemoteCache

/-- The files in the current directory and below it. -/
structure FileTree where
  /-- The files: the names that lead from the current directory to each, and its contents. -/
  files : List (List Bytes × Bytes) := []

namespace FileTree

/-- The slash, which stands between the steps of a path. -/
def slash : UInt8 := 47

/-- The longest path that can be opened, in bytes. -/
def longestPath : Nat := 4095

/-- The parts of a path between its slashes, the empty ones too. -/
def steps : Bytes → List Bytes
  | [] => [[]]
  | b :: rest =>
    if b = slash then [] :: steps rest
    else
      match steps rest with
      | [] => [[b]]
      | step :: more => (b :: step) :: more

/-- Whether a step leads nowhere else: an empty one, or a single dot. -/
def staysPut (step : Bytes) : Bool := step.isEmpty || step == Bytes.ascii "."

/-- Whether a step leads up: two dots. -/
def leadsUp (step : Bytes) : Bool := step == Bytes.ascii ".."

/-- The tree of some files with their paths, which do not lead up. -/
def ofFiles (files : List (Bytes × Bytes)) : FileTree where
  files := files.map fun (path, contents) =>
    ((steps path).filter fun step => !staysPut step, contents)

/-- A directory. -/
inductive Place
  /-- One that holds the current directory, at whatever distance. -/
  | outside
  /-- The one that some names lead to from the current directory. -/
  | inside (names : List Bytes)
deriving DecidableEq

/-- The directory that holds a directory. That of the root is the root. -/
def Place.parent : Place → Place
  | .outside => .outside
  | .inside names => if names.isEmpty then .outside else .inside names.dropLast

/-- Whether some names lead to a directory, which holds a file at some distance. -/
def hasDirectory (t : FileTree) (names : List Bytes) : Bool :=
  t.files.any fun file => names.isPrefixOf file.1 && names != file.1

/-- What is read where some steps lead from a directory. A directory can be opened, and nothing
can be read from it. A file leads nowhere, not even to itself. -/
def follow? (t : FileTree) : Place → List Bytes → Option Bytes
  | _, [] => some []
  | place, step :: more =>
    if staysPut step then t.follow? place more
    else if leadsUp step then t.follow? place.parent more
    else
      match place with
      | .outside => none
      | .inside names =>
        let names := names ++ [step]
        match t.files.lookup names with
        | some contents => if more.isEmpty then some contents else none
        | none => if t.hasDirectory names then t.follow? (.inside names) more else none

/-- What is read at a path, if it can be opened. A path ends before its first zero byte. -/
def contents? (t : FileTree) (path : Bytes) : Option Bytes :=
  let path := Bytes.beforeNul path
  if path.isEmpty || longestPath < path.length then none
  else t.follow? (if path.head? = some slash then .outside else .inside []) (steps path)

end FileTree

end RemoteCache
