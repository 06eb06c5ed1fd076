import RemoteCache.Console.Line
import RemoteCache.Proofs.Client.Questions
import RemoteCache.Proofs.Session.Ends

/-!
# What a line comes to

The console reads a line before it does anything. Either it has an objection, or it knows what to
do: to put one question to the cache and word the answer, to connect anew, to show the help, or to
quit. Which of these it is depends on the line alone, and not on the connection.

## Main definitions

* `Console.Errand` — what a line comes to
* `Console.errand` — reading a line
* `Console.Errand.carryOut` — doing what it comes to
* `Console.quits` — a line that ends the console, by its first word

## Main results

* `Console.obey_eq` — obeying a line is reading it, and then doing what it comes to
* `Console.goesOn_errand` — the console goes on unless the first word is one of two
-/

namespace RemoteCache.Console

open Session Client

/-- What a line comes to. -/
inductive Errand : Type 1
  /-- Nothing was entered. -/
  | nothing
  /-- The first word is none that the console knows. -/
  | unknown (first : Bytes)
  /-- An argument is missing, or no number stands where one belongs. -/
  | misused (usage : String)
  /-- There is no policy of this name. -/
  | unknownPolicy (name : Bytes)
  /-- A question to the cache, and how the answer is worded. -/
  | question {α : Type} (q : Question α) (wording : α → Bytes)
  | reconnect
  | help
  | quit

/-- The wording of a result that may be missing. -/
def foundText : Option Bytes → Bytes
  | some b => Bytes.ascii "OK " ++ b ++ [10]
  | none => Bytes.ascii "NOT_FOUND" ++ [10]

/-- The wording of a lifetime that may be missing. -/
def lifetimeText : Option Int → Bytes
  | some seconds => Bytes.ascii "OK " ++ Numeral.ofInt seconds ++ [10]
  | none => Bytes.ascii "NONE" ++ [10]

/-- The line for a call that has no result. -/
def okText : Bytes := Bytes.ascii "OK" ++ [10]

/-- What `SET` comes to: no lifetime is one of zero seconds, which lasts for ever. -/
def Errand.ofSet : List Bytes → Errand
  | [key, value] => .question (.set key value (some 0)) fun _ => okText
  | key :: value :: ttl :: _ =>
    (Numeral.readSigned? ttl).elim (.misused "SET key value [secs]") fun ttl =>
      .question (.set key value (some ttl)) fun _ => okText
  | _ => .misused "SET key value [secs]"

/-- What `EXPIRE` comes to. -/
def Errand.ofExpire : List Bytes → Errand
  | key :: ttl :: _ =>
    (Numeral.readSigned? ttl).elim (.misused "EXPIRE key secs") fun ttl =>
      .question (.setTtl key (some ttl)) fun _ => okText
  | _ => .misused "EXPIRE key secs"

/-- What `SIZE` comes to: the size of the cache, or of one value. -/
def Errand.ofSize : List Bytes → Errand
  | [] => .question .size fun size => sizeText size ++ [10]
  | key :: _ =>
    .question (.valueSize key) fun bytes =>
      foundText (bytes.map fun bytes => Numeral.ofNat bytes.toNat)

/-- What `POLICY` comes to: the policy is asked for, or chosen. -/
def Errand.ofPolicy : List Bytes → Errand
  | [] => .question .policy fun info => policyText info ++ [10]
  | name :: _ =>
    (Policy.read? name).elim (.unknownPolicy name) fun policy =>
      .question (.setPolicy policy) fun _ => okText

/-- What `RESIZE` comes to. -/
def Errand.ofResize : List Bytes → Errand
  | [] => .misused "RESIZE bytes"
  | capacity :: _ =>
    (Numeral.readSigned? capacity).elim (.misused "RESIZE bytes") fun capacity =>
      .question (.resize capacity) fun _ => okText

/-- A question about the key that is the first argument. -/
def Errand.ofKey {α : Type} (usage : String) (q : Bytes → Question α) (wording : α → Bytes) :
    List Bytes → Errand
  | [] => .misused usage
  | key :: _ => .question (q key) wording

/-- What a word comes to with the arguments behind it. -/
def errandOf (arguments : List Bytes) : Word → Errand
  | .ping => .question .ping fun text => text ++ [10]
  | .version => .question .version fun text => text ++ [10]
  | .get => .ofKey "GET key" .get foundText arguments
  | .peek => .ofKey "PEEK key" .peek foundText arguments
  | .set => .ofSet arguments
  | .del =>
    .ofKey "DEL key" .del (fun wasThere => if wasThere then okText else foundText none) arguments
  | .has =>
    .ofKey "HAS key" .has (fun isThere => (if isThere then [49] else [48]) ++ [10]) arguments
  | .ttl => .ofKey "TTL key" .ttl lifetimeText arguments
  | .expire => .ofExpire arguments
  | .size => .ofSize arguments
  | .status => .question .status statusText
  | .policy => .ofPolicy arguments
  | .resize => .ofResize arguments
  | .wipe => .question .wipe fun _ => okText
  | .reconnect => .reconnect
  | .quit => .quit
  | .help => .help

/-- What a line comes to. -/
def errand (line : Bytes) : Errand :=
  if line.isEmpty then .nothing
  else
    match Word.read? (split line).1 with
    | none => .unknown (split line).1
    | some word => errandOf (split line).2 word

/-- The commands that the console calls good before it has sent them. -/
def isHasty : Command → Bool
  | .ping | .version | .has _ => true
  | _ => false

namespace Errand

/-- Doing what a line comes to. -/
def carryOut (client : Client) : Errand → Action Unit
  | nothing => return ()
  | unknown first => sayLine (Bytes.ascii "ERROR unknown command: " ++ first)
  | misused usage => sayUsage usage
  | unknownPolicy name => sayLine (Bytes.ascii "ERROR unknown policy: " ++ name)
  | question q wording => do
    if isHasty q.command then say (Bytes.ascii "OK ")
    say (wording (← q.ask client))
  | reconnect => do
    Client.reconnect
    sayOk
  | help => say Console.help
  | quit => sayLine (Bytes.ascii "BYE")

/-- Whether there is a next line. -/
def goesOn : Errand → Bool
  | quit => false
  | _ => true

end Errand

/-- A line whose first word is, in any case, one of the two that quit. -/
def quits (line : Bytes) : Bool :=
  (split line).1 = Bytes.ascii "QUIT" || (split line).1 = Bytes.ascii "EXIT"

variable {client : Client}

/-! ### Reading first, and then doing -/

theorem obeySet_eq :
    ∀ arguments, obeySet client arguments = (Errand.ofSet arguments).carryOut client
  | [] | [_] | [_, _] => rfl
  | _ :: _ :: ttl :: _ => by
    simp only [obeySet, Errand.ofSet]
    cases Numeral.readSigned? ttl <;> rfl

theorem obeyExpire_eq :
    ∀ arguments, obeyExpire client arguments = (Errand.ofExpire arguments).carryOut client
  | [] | [_] => rfl
  | _ :: ttl :: _ => by
    simp only [obeyExpire, Errand.ofExpire]
    cases Numeral.readSigned? ttl <;> rfl

theorem obeySize_eq :
    ∀ arguments, obeySize client arguments = (Errand.ofSize arguments).carryOut client
  | [] => rfl
  | _ :: _ => bind_congr fun bytes => by cases bytes <;> rfl

theorem obeyPolicy_eq :
    ∀ arguments, obeyPolicy client arguments = (Errand.ofPolicy arguments).carryOut client
  | [] => rfl
  | name :: _ => by
    simp only [obeyPolicy, Errand.ofPolicy]
    cases Policy.read? name <;> rfl

theorem obeyResize_eq :
    ∀ arguments, obeyResize client arguments = (Errand.ofResize arguments).carryOut client
  | [] => rfl
  | capacity :: _ => by
    simp only [obeyResize, Errand.ofResize]
    cases Numeral.readSigned? capacity <;> rfl

/-- A word that does something with a key puts a question about it, if what it says about the
answer is how the answer is worded. -/
theorem withKey_eq {α : Type} {usage : String} {q : Bytes → Question α} {wording : α → Bytes}
    {act : Bytes → Action Unit}
    (hact : ∀ key, act key = (Errand.question (q key) wording).carryOut client) :
    ∀ arguments,
      withKey usage act arguments = (Errand.ofKey usage q wording arguments).carryOut client
  | [] => rfl
  | key :: _ => hact key

theorem obeyWord_eq (arguments : List Bytes) (word : Word) :
    obeyWord client arguments word = (errandOf arguments word).carryOut client := by
  cases word with
  | set => exact obeySet_eq arguments
  | expire => exact obeyExpire_eq arguments
  | size => exact obeySize_eq arguments
  | policy => exact obeyPolicy_eq arguments
  | resize => exact obeyResize_eq arguments
  | ping | version | status | wipe | reconnect | quit | help => rfl
  | get | peek | del | ttl =>
    -- What is said depends on whether there is an answer.
    exact withKey_eq (fun key => bind_congr fun answer => by cases answer <;> rfl) arguments
  | has =>
    refine withKey_eq (fun key => bind_congr fun _ => ?_) arguments
    refine (bind_assoc _ _ _).trans (bind_congr fun isThere => ?_)
    cases isThere <;> rfl

/-! ### The two words that quit -/

theorem Word.read?_eq_quit_iff {first : Bytes} :
    Word.read? first = some .quit ↔
      first = Bytes.ascii "QUIT" ∨ first = Bytes.ascii "EXIT" := by
  constructor
  · intro h
    obtain ⟨spelled, hfind, hquit⟩ := Option.map_eq_some_iff.1 h
    have hspelled : spelled.1 = first := by simpa using List.find?_some hfind
    have honly : ∀ spelled ∈ Word.spellings, spelled.2 = .quit →
        spelled.1 = Bytes.ascii "QUIT" ∨ spelled.1 = Bytes.ascii "EXIT" := by decide
    rw [← hspelled]
    exact honly spelled (List.mem_of_find?_eq_some hfind) hquit
  · rintro (rfl | rfl) <;> decide

theorem goesOn_elim {α : Type} {objection : Errand} {next : α → Errand}
    (hobjection : objection.goesOn = true) (hnext : ∀ a, (next a).goesOn = true) :
    ∀ given : Option α, (given.elim objection next).goesOn = true
  | none => hobjection
  | some a => hnext a

theorem goesOn_errandOf (arguments : List Bytes) (word : Word) :
    (errandOf arguments word).goesOn = !decide (word = .quit) := by
  cases word with
  | get | peek | del | has | ttl | size => cases arguments <;> rfl
  | set =>
    match arguments with
    | [] | [_] | [_, _] => rfl
    | _ :: _ :: _ :: _ => exact goesOn_elim rfl (fun _ => rfl) _
  | expire =>
    match arguments with
    | [] | [_] => rfl
    | _ :: _ :: _ => exact goesOn_elim rfl (fun _ => rfl) _
  | policy | resize =>
    match arguments with
    | [] => rfl
    | _ :: _ => exact goesOn_elim rfl (fun _ => rfl) _
  | _ => rfl

/-- The console goes on after a line, unless its first word is one of the two that quit. -/
theorem goesOn_errand (line : Bytes) : (errand line).goesOn = !quits line := by
  have hquits : quits line = decide (Word.read? (split line).1 = some .quit) := by
    simp only [quits, Word.read?_eq_quit_iff, Bool.decide_or]
  unfold errand
  split
  · rename_i hempty
    obtain rfl := List.isEmpty_iff.1 hempty
    rfl
  · rw [hquits]
    cases hword : Word.read? (split line).1 with
    | none => rfl
    | some word => simp [goesOn_errandOf]

theorem errand_of_quits {line : Bytes} (h : quits line = true) : errand line = .quit := by
  have hgoesOn := goesOn_errand line
  rw [h] at hgoesOn
  cases herrand : errand line with
  | quit => rfl
  | _ =>
    rw [herrand] at hgoesOn
    cases hgoesOn

/-- Obeying a line is reading it, and then doing what it comes to. -/
theorem obey_eq {line : Bytes} (hline : line.isEmpty = false) :
    obey client line = (errand line).carryOut client >>= fun _ => return !quits line := by
  rw [← goesOn_errand]
  unfold obey errand
  rw [hline]
  dsimp only
  cases hword : Word.read? (split line).1 with
  | none => simp [Errand.carryOut, Errand.goesOn]
  | some word =>
    simp only [Bool.false_eq_true, if_false, obeyWord_eq, goesOn_errandOf, decide_not]

end RemoteCache.Console
