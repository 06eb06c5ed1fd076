import RemoteCache.Proofs.Network.Delivery
import RemoteCache.Proofs.Network.Lives

/-!
# What passes over a socket

Over one socket the peer greets, and then commands are answered one after another. A command may
be given up, and then the socket is closed. So what was written to a socket are whole frames, and
perhaps the beginning of one more; and no byte of a frame is written before everything that the
peer owed by then was read.

## Main definitions

* `Call.Greets`, `Call.Completes`, `Call.Abandons` — the calls by which a peer greets, a command is
  answered, and a command is given up
* `Call.Opens`, `Call.FailsToOpen` — the calls by which a connection is opened, or is not
* `Call.Dialogue` — the calls on a socket over which commands were answered
* `Call.Finished` — the calls on a socket that was closed
* `Call.Replied`, `Call.InTurn` — nothing is written before the replies to what came before it

## Main results

* `Call.Dialogue.inTurn`, `Call.Finished.inTurn` — what is written comes in its turn
* `Call.Finished.sent_eq` — whole frames, and at most one beginning of a frame
-/

namespace RemoteCache

open Wire

namespace Call

/-! ### Calls for one purpose -/

/-- The peer greets over a socket. The bytes behind its greeting are left over. -/
def Greets (d : Nat) (pending : Bytes) (calls : List Call) : Prop :=
  ∃ b payload offset, Carries d [] b calls ∧
    Reply.read .ack (.start b) = .done (.ok payload) ⟨offset, pending⟩

/-- A command is written whole, and then its response is read. The bytes behind it are left
over. -/
def Completes (d : Nat) (command : Command) (r : Response) (pending : Bytes) (calls : List Call) :
    Prop :=
  ∃ written read b offset, calls = read ++ written ∧
    Carries d (Request.encode command) [] written ∧ Carries d [] b read ∧
    Reply.read command.shape (.start b) = .done r ⟨offset, pending⟩

/-- A command is given up: a beginning of it was written and nothing was read, or all of it was
written and no response was read. -/
def Abandons (d : Nat) (command : Command) (calls : List Call) : Prop :=
  ∃ written read w b, calls = read ++ written ∧ Carries d w [] written ∧ Carries d [] b read ∧
    w <+: Request.encode command ∧ (w = Request.encode command ∨ read = []) ∧
    ∀ r c, Reply.read command.shape (.start b) ≠ .done r c

/-- A name is resolved and sockets are tried, and over the one that is left some bytes are read. -/
def Reaches (d : Nat) (b : Bytes) (calls : List Call) : Prop :=
  ∃ on searched, calls = on ++ .socket (some d) :: searched ∧ Carries d [] b on ∧
    Searched searched

/-- A socket is reached, and over it the peer greets. -/
def Opens (d : Nat) (pending : Bytes) (calls : List Call) : Prop :=
  ∃ b payload offset, Reaches d b calls ∧
    Reply.read .ack (.start b) = .done (.ok payload) ⟨offset, pending⟩

/-- No socket is reached, or no greeting comes over the one that is. -/
inductive FailsToOpen : List Call → Prop
  | unreached {calls : List Call} (h : Searched calls) : FailsToOpen calls
  | ungreeted {d : Nat} {b : Bytes} {calls : List Call} (h : Reaches d b calls) :
    FailsToOpen (.close d :: calls)

/-- Calls of some sort on a socket, and then its closing. -/
def Closes (d : Nat) (P : List Call → Prop) (calls : List Call) : Prop :=
  ∃ on, calls = .close d :: on ∧ P on

/-! ### Calls over the life of a socket -/

/-- Over a socket the peer greets, and commands are answered one after another. -/
inductive Dialogue (d : Nat) : List Command → Bytes → List Call → Prop
  | greeted {pending : Bytes} {calls : List Call} (h : Greets d pending calls) :
    Dialogue d [] pending calls
  | answered {commands : List Command} {command : Command} {r : Response} {pending : Bytes}
      {calls earlier : List Call} (h : Dialogue d commands [] earlier)
      (hcalls : Completes d command r pending calls) :
    Dialogue d (commands ++ [command]) pending (calls ++ earlier)

/-- What may have happened on a socket when it is closed: no greeting came; or commands were
answered; or one more was given up. -/
inductive Finished (d : Nat) : List Command → List Call → Prop
  | ungreeted {b : Bytes} {calls : List Call} (h : Carries d [] b calls) : Finished d [] calls
  | left {commands : List Command} {pending : Bytes} {calls : List Call}
      (h : Dialogue d commands pending calls) : Finished d commands calls
  | abandoned {commands : List Command} {command : Command} {calls earlier : List Call}
      (h : Dialogue d commands [] earlier) (hcalls : Abandons d command calls) :
    Finished d (commands ++ [command]) (calls ++ earlier)

/-- Bytes that were read: a greeting and then a reply to each of some commands, and nothing
more. -/
def Replied (commands : List Command) (b : Bytes) : Prop :=
  ∃ greeting replies, b = greeting ++ replies.flatten ∧
    (∃ payload, Reply.IsFrame .ack (.ok payload) greeting) ∧
    List.Forall₂ (fun command f => ∃ r, Reply.IsFrame command.shape r f) commands replies

/-- Whatever is written goes on with the frame of some command, behind the frames of the commands
before it; and by then the greeting and the replies to all of those were read. -/
def InTurn (commands : List Command) (calls : List Call) : Prop :=
  ∀ later d b earlier, calls = later ++ .send d b :: earlier → b ≠ [] →
    ∃ before command part, before ++ [command] <+: commands ∧
      sent earlier = before.flatMap Request.encode ++ part ∧
      part ++ b <+: Request.encode command ∧ Replied before (received earlier)

variable {P : Life → Prop} {d : Nat} {command : Command} {commands : List Command} {r : Response}
  {pending w b : Bytes} {calls earlier written read record : List Call}

theorem Reaches.append {b' : Bytes} {later : List Call} (h : Reaches d b earlier)
    (h' : Carries d [] b' later) : Reaches d (b ++ b') (later ++ earlier) := by
  obtain ⟨on, searched, rfl, hon, hsearched⟩ := h
  exact ⟨later ++ on, searched, (List.append_assoc _ _ _).symm, hon.append h', hsearched⟩

/-- A command of which nothing was written. -/
theorem abandons_nil (d : Nat) (command : Command) : Abandons d command [] :=
  ⟨[], [], [], [], rfl, .nil d, .nil d, List.nil_prefix, .inr rfl, nofun⟩

/-! ### The lives of sockets that are opened -/

theorem Reaches.lived (hcalls : Reaches d b calls) (h : Lived P [] record)
    (hsilent : ∀ d b uses, Carries d [] b uses → P ⟨d, false, uses⟩) :
    ∃ on, Carries d [] b on ∧ Lived P [⟨d, true, on⟩] (calls ++ record) := by
  obtain ⟨on, searched, rfl, hon, hsearched⟩ := hcalls
  refine ⟨on, hon, ?_⟩
  have hopened := (hsearched.lived h fun d uses => hsilent d [] uses).open d
  have hcarried := hopened.carry hon
  rwa [List.append_nil, ← List.cons_append, ← List.append_assoc] at hcarried

theorem FailsToOpen.lived (hcalls : FailsToOpen calls) (h : Lived P [] record)
    (hsilent : ∀ d b uses, Carries d [] b uses → P ⟨d, false, uses⟩) :
    Lived P [] (calls ++ record) := by
  cases hcalls with
  | unreached hsearched => exact hsearched.lived h fun d uses => hsilent d [] uses
  | ungreeted hreaches =>
    obtain ⟨on, hon, hlived⟩ := hreaches.lived h hsilent
    exact hlived.close (hsilent _ _ _ hon)

theorem Reaches.resolutions_eq (h : Reaches d b calls) : resolutions calls = 1 := by
  obtain ⟨on, searched, rfl, hon, hsearched⟩ := h
  have hopened : resolutions (.socket (some d) :: searched) = resolutions searched := rfl
  rw [resolutions_append, hon.resolutions_eq, hopened, hsearched.resolutions_eq]

theorem FailsToOpen.resolutions_eq (h : FailsToOpen calls) : resolutions calls = 1 := by
  cases h with
  | unreached hsearched => exact hsearched.resolutions_eq
  | ungreeted hreaches => exact hreaches.resolutions_eq

/-! ### What was read -/

/-- Bytes of which nothing is left over are one frame. -/
theorem isFrame_of_read {shape : Shape} {offset : Nat}
    (h : Reply.read shape (.start b) = .done r ⟨offset, []⟩) : Reply.IsFrame shape r b := by
  obtain ⟨passed, hrest, hoffset⟩ := (Reply.stable_read shape).advances _ _ _ h
  simp only [Cursor.start, Nat.zero_add, List.append_nil] at hrest hoffset
  rw [Reply.IsFrame, h, hoffset, ← hrest]

theorem Replied.append (h : Replied commands b) {f : Bytes}
    (hf : Reply.IsFrame command.shape r f) : Replied (commands ++ [command]) (b ++ f) := by
  obtain ⟨greeting, replies, rfl, hgreeting, hreplies⟩ := h
  refine ⟨greeting, replies ++ [f], ?_, hgreeting, ?_⟩
  · rw [List.flatten_append, List.flatten_singleton, List.append_assoc]
  · exact List.rel_append hreplies (.cons ⟨r, hf⟩ .nil)

theorem Dialogue.carries (h : Dialogue d commands pending calls) :
    ∃ b, Carries d (commands.flatMap Request.encode) b calls ∧
      (pending = [] → Replied commands b) := by
  induction h with
  | greeted h =>
    obtain ⟨b, payload, offset, hcarries, hread⟩ := h
    refine ⟨b, hcarries, ?_⟩
    rintro rfl
    exact ⟨b, [], (List.append_nil b).symm, ⟨payload, isFrame_of_read hread⟩, .nil⟩
  | @answered commands command r pending calls earlier h hcalls ih =>
    obtain ⟨b, hearlier, hreplied⟩ := ih
    obtain ⟨written, read, f, offset, rfl, hwritten, hread, hreply⟩ := hcalls
    refine ⟨b ++ f, ?_, ?_⟩
    · have hall := (hearlier.append hwritten).append hread
      rw [List.append_nil, List.append_nil, ← List.append_assoc] at hall
      rwa [List.flatMap_append, List.flatMap_singleton]
    · rintro rfl
      exact (hreplied rfl).append (isFrame_of_read hreply)

/-! ### What was written -/

theorem Carries.eq_nil_of_send (h : Carries d [] b calls) {later : List Call} {d' : Nat}
    {b' : Bytes} (hcalls : calls = later ++ .send d' b' :: earlier) : b' = [] := by
  have hsent := h.sent_eq
  rw [hcalls, sent_append, sent] at hsent
  simp_all

/-- An item of a list in two parts lies in one of them. -/
theorem split_append {α : Type} {first second later sooner : List α} {x : α}
    (h : first ++ second = later ++ x :: sooner) :
    (∃ between, second = between ++ x :: sooner) ∨
      ∃ between, first = later ++ x :: between ∧ sooner = between ++ second := by
  rcases List.append_eq_append_iff.1 h with ⟨between, -, hsecond⟩ | ⟨between, hfirst, hrest⟩
  · exact .inl ⟨between, hsecond⟩
  · cases between with
    | nil => exact .inl ⟨[], hrest.symm⟩
    | cons y between =>
      obtain ⟨rfl, hsooner⟩ := List.cons_eq_cons.1 hrest
      exact .inr ⟨between, hfirst, hsooner⟩

/-- A frame that is begun once all before it were answered comes in its turn. -/
theorem InTurn.append (h : InTurn commands earlier) {before : Bytes}
    (hearlier : Carries d (commands.flatMap Request.encode) before earlier)
    (hreplied : Replied commands before) (hwritten : Carries d w [] written)
    (hread : Carries d [] b read) (hw : w <+: Request.encode command) :
    InTurn (commands ++ [command]) ((read ++ written) ++ earlier) := by
  intro later d' b' sooner hcalls hb'
  rcases split_append hcalls with ⟨between, hsplit⟩ | ⟨between, hsplit, rfl⟩
  · -- Written before the frame.
    obtain ⟨done, c, part, hdone, hmore⟩ := h between d' b' sooner hsplit hb'
    exact ⟨done, c, part, hdone.trans (List.prefix_append _ _), hmore⟩
  · rcases split_append hsplit with ⟨later', hfrom⟩ | ⟨others, hfrom, -⟩
    · -- A part of the frame itself.
      have hsent := hwritten.sent_eq
      have hreceived := hwritten.received_eq
      rw [hfrom, sent_append, sent] at hsent
      rw [hfrom, received_append] at hreceived
      have hnone : received between = [] := (List.append_eq_nil_iff.1 hreceived).1
      refine ⟨commands, command, sent between, List.prefix_rfl, ?_, ?_, ?_⟩
      · rw [sent_append, hearlier.sent_eq]
      · exact (List.prefix_append _ _).trans (hsent ▸ hw)
      · rwa [received_append, hearlier.received_eq, hnone, List.append_nil]
    · exact absurd (hread.eq_nil_of_send hfrom) hb'

theorem Carries.inTurn (h : Carries d [] b calls) : InTurn [] calls :=
  fun _ _ _ _ hcalls hb' => absurd (h.eq_nil_of_send hcalls) hb'

/-- What is written while commands are answered comes in its turn. -/
theorem Dialogue.inTurn (h : Dialogue d commands pending calls) : InTurn commands calls := by
  induction h with
  | greeted h =>
    obtain ⟨b, payload, offset, hcarries, -⟩ := h
    exact hcarries.inTurn
  | answered h hcalls ih =>
    obtain ⟨before, hearlier, hreplied⟩ := h.carries
    obtain ⟨written, read, b, offset, rfl, hwritten, hread, -⟩ := hcalls
    exact ih.append hearlier (hreplied rfl) hwritten hread List.prefix_rfl

/-- So does all that was written to a socket that was closed. -/
theorem Finished.inTurn (h : Finished d commands calls) : InTurn commands calls := by
  cases h with
  | ungreeted h => exact h.inTurn
  | left h => exact h.inTurn
  | abandoned h hcalls =>
    obtain ⟨before, hearlier, hreplied⟩ := h.carries
    obtain ⟨written, read, w, b, rfl, hwritten, hread, hw, -⟩ := hcalls
    exact h.inTurn.append hearlier (hreplied rfl) hwritten hread hw

/-- Whole frames were written to a socket that was closed, and at most one beginning of a frame
behind them. -/
theorem Finished.sent_eq (h : Finished d commands calls) :
    sent calls = commands.flatMap Request.encode ∨
      ∃ before command part, commands = before ++ [command] ∧ part <+: Request.encode command ∧
        part ≠ Request.encode command ∧ sent calls = before.flatMap Request.encode ++ part := by
  cases h with
  | ungreeted h => exact .inl h.sent_eq
  | left h =>
    obtain ⟨b, hcarries, -⟩ := h.carries
    exact .inl hcarries.sent_eq
  | @abandoned before command calls earlier h hcalls =>
    obtain ⟨b, hearlier, -⟩ := h.carries
    obtain ⟨written, read, w, b, rfl, hwritten, hread, hw, -⟩ := hcalls
    have hsent : sent ((read ++ written) ++ earlier) = before.flatMap Request.encode ++ w := by
      have hall := ((hearlier.append hwritten).append hread).sent_eq
      rwa [List.append_nil, ← List.append_assoc] at hall
    by_cases hwhole : w = Request.encode command
    · left
      rw [hsent, hwhole, List.flatMap_append, List.flatMap_singleton]
    · exact .inr ⟨before, command, w, rfl, hw, hwhole, hsent⟩

end Call

end RemoteCache
