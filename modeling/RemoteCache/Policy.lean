import RemoteCache.Binary64.Shortest

/-!
# Eviction policies

A policy is named by a short text. Two kinds carry parameters, which follow the name behind
hyphens as positional decimals.

## Main definitions

* `Policy` — a kind and its parameters; a kind without parameters ignores them
* `Policy.text` — the name of a policy
* `Policy.read?` — the policy a text names
* `Policy.agrees` — equality of kind and of the parameters that the kind has
-/

namespace RemoteCache

/-- The kinds of eviction policy. -/
inductive Policy.Kind
  | auto
  | lfu
  | fifo
  | clock
  | sieve
  | lru
  | mru
  | twoQ
  | arc
  | sThreeFifo
deriving DecidableEq, Inhabited

/-- An eviction policy. -/
structure Policy where
  kind : Policy.Kind := .lfu
  /-- The share of the first queue, for `twoQ`. -/
  kIn : Binary64 := .zero
  /-- The share of the second queue, for `twoQ`. -/
  kOut : Binary64 := .zero
  /-- The share of the small queue, for `sThreeFifo`. -/
  ratio : Binary64 := .zero
deriving DecidableEq, Inhabited

namespace Policy

/-- The kinds that have no parameters, with their names. -/
def plainNames : List (Kind × Bytes) :=
  [(.auto, Bytes.ascii "auto"), (.lfu, Bytes.ascii "lfu"), (.fifo, Bytes.ascii "fifo"),
   (.clock, Bytes.ascii "clock"), (.sieve, Bytes.ascii "sieve"), (.lru, Bytes.ascii "lru"),
   (.mru, Bytes.ascii "mru"), (.arc, Bytes.ascii "arc")]

/-- What the name of a `twoQ` policy begins with. -/
def twoQStart : Bytes := Bytes.ascii "2q-"

/-- What the name of an `sThreeFifo` policy begins with. -/
def sThreeFifoStart : Bytes := Bytes.ascii "s3-fifo-"

/-- The hyphen, which separates parameters. -/
def hyphen : UInt8 := 45

/-- The room there is for the text of a parameter. -/
def parameterRoom : Nat := 512

/-- The text of a parameter, the shortest positional one. Where there were no room for it, a zero
would stand in its place. -/
def parameterText (x : Binary64) : Bytes :=
  let full := x.shortest
  if full.length ≤ parameterRoom then full else Bytes.ascii "0"

/-- The name of a policy on the wire and in settings. -/
def text (p : Policy) : Bytes :=
  match p.kind with
  | .auto => Bytes.ascii "auto"
  | .lfu => Bytes.ascii "lfu"
  | .fifo => Bytes.ascii "fifo"
  | .clock => Bytes.ascii "clock"
  | .sieve => Bytes.ascii "sieve"
  | .lru => Bytes.ascii "lru"
  | .mru => Bytes.ascii "mru"
  | .twoQ => twoQStart ++ parameterText p.kIn ++ hyphen :: parameterText p.kOut
  | .arc => Bytes.ascii "arc"
  | .sThreeFifo => sThreeFifoStart ++ parameterText p.ratio

/-- The `twoQ` policy whose two parameters a text gives. The first hyphen separates them. -/
def readTwoQ? (parameters : Bytes) : Option Policy := do
  let (before, after) ← Bytes.cutAt? hyphen parameters
  let kIn ← Binary64.read? before
  let kOut ← Binary64.read? after
  return { kind := .twoQ, kIn, kOut }

/-- The `sThreeFifo` policy whose parameter a text gives. -/
def readSThreeFifo? (parameter : Bytes) : Option Policy := do
  let ratio ← Binary64.read? parameter
  return { kind := .sThreeFifo, ratio }

/-- The policy that a text names. A name without parameters is tried first. -/
def read? (b : Bytes) : Option Policy :=
  match plainNames.find? fun named => named.2 == b with
  | some (kind, _) => some { kind }
  | none =>
    match Bytes.after? twoQStart b with
    | some parameters => readTwoQ? parameters
    | none => (Bytes.after? sThreeFifoStart b).bind readSThreeFifo?

/-- Whether two policies are the same: of one kind, with equal parameters where the kind has
any. -/
def agrees (p q : Policy) : Bool :=
  p.kind == q.kind &&
    match p.kind with
    | .twoQ => p.kIn.agrees q.kIn && p.kOut.agrees q.kOut
    | .sThreeFifo => p.ratio.agrees q.ratio
    | _ => true

/-- The three parameters, used or not. -/
def parameters (p : Policy) : List Binary64 := [p.kIn, p.kOut, p.ratio]

/-- Whether a kind has no parameters. -/
def Kind.isPlain : Kind → Bool
  | .twoQ | .sThreeFifo => false
  | _ => true

end Policy

end RemoteCache
