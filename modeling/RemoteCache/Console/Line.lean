import RemoteCache.Binary64.Significant
import RemoteCache.Client

/-!
# Lines of the console

A line is a word for what is to be done, in any case, and its arguments. What the line leads to is
said on the standard output.

## Main definitions

* `Console.say` — text for the standard output
* `Console.obey` — what a line does; it tells whether the console goes on
* `Console.enter` — a line that may fail, with what is said about the failure
-/

namespace RemoteCache.Console

open Session

/-- Shows bytes on the output. -/
def say (b : Bytes) : Action Unit := modify fun s => { s with shown := ⟨.output, b⟩ :: s.shown }

/-- Shows a line on the output. -/
def sayLine (b : Bytes) : Action Unit := say (b ++ [10])

/-- The words that the console knows, and what they do. -/
def help : Bytes := Bytes.ascii (
  "Commands:\n" ++
  "  PING                  Health check\n" ++
  "  VERSION               Server version\n" ++
  "  GET key               Retrieve a value\n" ++
  "  PEEK key              Retrieve without touching eviction order\n" ++
  "  SET key value [secs]  Store a value, optionally expiring\n" ++
  "  DEL key               Delete a key\n" ++
  "  HAS key               Check if key exists\n" ++
  "  TTL key               Seconds until key expires\n" ++
  "  EXPIRE key secs       Set expiry, 0 = never\n" ++
  "  SIZE [key]            Cache size, or size of one value\n" ++
  "  STATUS                Server statistics\n" ++
  "  POLICY [name]         Show or change eviction policy\n" ++
  "  RESIZE bytes          Change cache capacity\n" ++
  "  CLEAR | WIPE          Delete all keys\n" ++
  "  RECONNECT             Drop and reopen the connection\n" ++
  "  QUIT                  Exit client\n")

/-- The words that the console knows. -/
inductive Word
  | ping
  | version
  | get
  | peek
  | set
  | del
  | has
  | ttl
  | expire
  | size
  | status
  | policy
  | resize
  | wipe
  | reconnect
  | quit
  | help
deriving DecidableEq

/-- The spellings of the words, in upper case. Some words have two. -/
def Word.spellings : List (Bytes × Word) :=
  [(Bytes.ascii "PING", .ping), (Bytes.ascii "VERSION", .version), (Bytes.ascii "GET", .get),
   (Bytes.ascii "PEEK", .peek), (Bytes.ascii "SET", .set), (Bytes.ascii "DEL", .del),
   (Bytes.ascii "HAS", .has), (Bytes.ascii "TTL", .ttl), (Bytes.ascii "EXPIRE", .expire),
   (Bytes.ascii "SIZE", .size), (Bytes.ascii "STATUS", .status),
   (Bytes.ascii "POLICY", .policy), (Bytes.ascii "RESIZE", .resize),
   (Bytes.ascii "CLEAR", .wipe), (Bytes.ascii "WIPE", .wipe),
   (Bytes.ascii "RECONNECT", .reconnect), (Bytes.ascii "QUIT", .quit),
   (Bytes.ascii "EXIT", .quit), (Bytes.ascii "HELP", .help)]

/-- The word with a given spelling in upper case. -/
def Word.read? (b : Bytes) : Option Word :=
  (spellings.find? fun spelled => spelled.1 == b).map Prod.snd

/-- Texts with a comma and a blank between them. -/
def commaList (texts : List Bytes) : Bytes := (texts.intersperse (Bytes.ascii ", ")).flatten

/-- The policies of a list, by name. Names that are empty would go without a comma; none is. -/
def policyList (policies : List Policy) : Bytes := commaList (policies.map Policy.text)

/-- The remark on a policy that the server chose itself. -/
def autoRemark (isAuto : Bool) : Bytes := if isAuto then Bytes.ascii " (auto)" else []

/-- A label and a value on a line. -/
def row (label : String) (value : Bytes) : Bytes := Bytes.ascii label ++ value ++ [10]

/-- What a server reports about itself, one line for each part of it. -/
def statusText (s : Status) : Bytes :=
  row "pid:          " (Numeral.ofNat s.pid.toNat) ++
  row "max_size:     " (Numeral.ofNat s.maxSize.toNat) ++
  row "used_size:    " (Numeral.ofNat s.usedSize.toNat) ++
  row "num_objects:  " (Numeral.ofNat s.numObjects.toNat) ++
  row "rss:          " (Numeral.ofNat s.rss.toNat) ++
  row "hwm:          " (Numeral.ofNat s.hwm.toNat) ++
  row "total_gets:   " (Numeral.ofNat s.totalGets.toNat) ++
  row "total_sets:   " (Numeral.ofNat s.totalSets.toNat) ++
  row "total_dels:   " (Numeral.ofNat s.totalDels.toNat) ++
  row "miss_ratio:   " s.missRatio.sixDigits ++
  row "policies:     " (policyList s.policies) ++
  row "policy:       " (s.policy.text ++ autoRemark s.isAutoPolicy) ++
  row "uptime:       " (Numeral.ofNat s.uptime.toNat ++ Bytes.ascii "s")

/-- The wording of the sizes of a cache. -/
def sizeText (size : CacheSize) : Bytes :=
  Bytes.ascii "OK used " ++ Numeral.ofNat size.usedSize.toNat ++ Bytes.ascii " / max " ++
    Numeral.ofNat size.maxSize.toNat ++ Bytes.ascii " bytes, " ++
    Numeral.ofNat size.numObjects.toNat ++ Bytes.ascii " objects"

/-- The wording of the policies of a cache. -/
def policyText (info : PolicyInfo) : Bytes :=
  Bytes.ascii "OK " ++ info.policy.text ++ autoRemark info.isAuto ++ Bytes.ascii " [" ++
    policyList info.policies ++ Bytes.ascii "]"

/-- Says that a call went well that has no result. -/
def sayOk : Action Unit := sayLine (Bytes.ascii "OK")

/-- Says how a word is used, after it was not used so. -/
def sayUsage (usage : String) : Action Unit :=
  sayLine (Bytes.ascii "ERROR usage: " ++ Bytes.ascii usage)

/-- Says a result, or that a key was not found. -/
def sayFound : Option Bytes → Action Unit
  | some b => sayLine (Bytes.ascii "OK " ++ b)
  | none => sayLine (Bytes.ascii "NOT_FOUND")

/-- Says that a call goes well before it is made, and its result after it. -/
def sayAfter (result : Action Bytes) : Action Unit := do
  say (Bytes.ascii "OK ")
  sayLine (← result)

/-- Stores a value under a key, with a lifetime in seconds if there is one. -/
def obeySet (client : Client) : List Bytes → Action Unit
  | key :: value :: rest =>
    match rest with
    -- No lifetime is the same as a lifetime of zero.
    | [] => do
      client.set key value (some 0)
      sayOk
    | ttl :: _ =>
      match Numeral.readSigned? ttl with
      | none => sayUsage "SET key value [secs]"
      | some ttl => do
        client.set key value (some ttl)
        sayOk
  | _ => sayUsage "SET key value [secs]"

/-- Gives a key a lifetime in seconds, where zero lasts for ever. -/
def obeyExpire (client : Client) : List Bytes → Action Unit
  | key :: ttl :: _ =>
    match Numeral.readSigned? ttl with
    | none => sayUsage "EXPIRE key secs"
    | some ttl => do
      client.setTtl key (some ttl)
      sayOk
  | _ => sayUsage "EXPIRE key secs"

/-- Says the size of the cache, or of the value of a key. -/
def obeySize (client : Client) : List Bytes → Action Unit
  | [] => do sayLine (sizeText (← client.size))
  | key :: _ => do
    sayFound ((← client.valueSize key).map fun bytes => Numeral.ofNat bytes.toNat)

/-- Says the policy of the cache, or chooses another. -/
def obeyPolicy (client : Client) : List Bytes → Action Unit
  | [] => do sayLine (policyText (← client.policy))
  | name :: _ =>
    match Policy.read? name with
    | none => sayLine (Bytes.ascii "ERROR unknown policy: " ++ name)
    | some policy => do
      client.setPolicy policy
      sayOk

/-- Changes the capacity of the cache. -/
def obeyResize (client : Client) : List Bytes → Action Unit
  | [] => sayUsage "RESIZE bytes"
  | capacity :: _ =>
    match Numeral.readSigned? capacity with
    | none => sayUsage "RESIZE bytes"
    | some capacity => do
      client.resize capacity
      sayOk

/-- Does something with the key that is the first argument. -/
def withKey (usage : String) (act : Bytes → Action Unit) : List Bytes → Action Unit
  | [] => sayUsage usage
  | key :: _ => act key

/-- Does what a word asks for. Arguments beyond those that it takes are passed over. -/
def obeyWord (client : Client) (arguments : List Bytes) : Word → Action Unit
  | .ping => sayAfter client.ping
  | .version => sayAfter client.version
  | .get => withKey "GET key" (fun key => do sayFound (← client.get key)) arguments
  | .peek => withKey "PEEK key" (fun key => do sayFound (← client.peek key)) arguments
  | .set => obeySet client arguments
  | .del =>
    withKey "DEL key" (fun key => do
      if ← client.del key then sayOk else sayLine (Bytes.ascii "NOT_FOUND")) arguments
  | .has =>
    withKey "HAS key" (fun key => sayAfter do
      return if ← client.has key then Bytes.ascii "1" else Bytes.ascii "0") arguments
  | .ttl =>
    withKey "TTL key" (fun key => do
      match ← client.ttl key with
      | some seconds => sayLine (Bytes.ascii "OK " ++ Numeral.ofInt seconds)
      | none => sayLine (Bytes.ascii "NONE")) arguments
  | .expire => obeyExpire client arguments
  | .size => obeySize client arguments
  | .status => do say (statusText (← client.status))
  | .policy => obeyPolicy client arguments
  | .resize => obeyResize client arguments
  | .wipe => do
    client.wipe
    sayOk
  | .reconnect => do
    Client.reconnect
    sayOk
  | .quit => sayLine (Bytes.ascii "BYE")
  | .help => say help

/-- The first word of a line in upper case, and the other words. -/
def split (line : Bytes) : Bytes × List Bytes :=
  match Bytes.words line with
  | [] => ([], [])
  | first :: arguments => (Bytes.toUpper first, arguments)

/-- What a line does. Whether the console goes on after it: not after the word to quit. -/
def obey (client : Client) (line : Bytes) : Action Bool := do
  let (first, arguments) := split line
  match Word.read? first with
  | none =>
    sayLine (Bytes.ascii "ERROR unknown command: " ++ first)
    return true
  | some word =>
    obeyWord client arguments word
    return word ≠ .quit

/-- Says what a line failed with, and whether the connection is gone. -/
def sayFailure (failure : Failure) : Action Unit := do
  sayLine (Bytes.ascii "ERROR " ++ failure.message)
  if (← get).connection.link.state = .faulted then
    sayLine (Bytes.ascii "connection lost, use RECONNECT")

/-- A line that is entered. No failure ends the console, and an empty line does nothing. -/
def enter (client : Client) (line : Bytes) : Action Bool :=
  if line.isEmpty then return true
  else fun s =>
    match obey client line s with
    | .ok goesOn s => .ok goesOn s
    | .error failure s =>
      match sayFailure failure s with
      | .ok () s => .ok true s
      | .error _ s => .ok true s

end RemoteCache.Console
