/-!
# Byte strings

Keys, values, addresses and messages are byte strings: nothing promises that they are valid
text, and they may hold the byte zero.

## Main definitions

* `Bytes` — a byte string
* `Bytes.ascii` — the bytes of a text that has only ASCII characters
* `Bytes.beforeNul` — the part in front of the first zero byte
* `Bytes.cutAt?` — the parts before and after the first occurrence of a byte
* `Bytes.after?` — what follows a given beginning
* `Bytes.trim` — a byte string without the blanks at its ends
* `Bytes.lines` — the lines of a text, without their ends
* `Bytes.pieces`, `Bytes.piecesBy` — a byte string cut into pieces of bounded length, the first of
  them perhaps shorter
* `Bytes.words` — the maximal runs of bytes that are not white space

## Main results

* `Bytes.cutAt?_eq_some_iff` — the cut is at the first occurrence, and only there
* `Bytes.eq_of_cutAtText?_eq_some`, `Bytes.cutAtText?_append` — the cut at a longer mark
* `Bytes.after?_eq_some_iff` — what follows a beginning
-/

-- Mathlib brings an instance of its own for powers of naturals, which is equal to this one by
-- definition. The programs are built without Mathlib and their theory with it. With this instance
-- in front a power is the same term in both, so that no lemma has to lead from one to the other.
attribute [default_instance 20000, instance (20000)] instPowNat

namespace RemoteCache

/-- A byte string. -/
abbrev Bytes := List UInt8

namespace Bytes

/-- The bytes of a text that has only ASCII characters. -/
def ascii (text : String) : Bytes := text.toList.map fun c => c.toNat.toUInt8

/-- The part in front of the first zero byte, all of it when there is none. -/
def beforeNul (b : Bytes) : Bytes := b.takeWhile (· != 0)

/-- The parts before and after the first occurrence of `mark`. -/
def cutAt? (mark : UInt8) : Bytes → Option (Bytes × Bytes)
  | [] => none
  | b :: rest =>
    if b = mark then some ([], rest)
    else (cutAt? mark rest).map fun (before, after) => (b :: before, after)

/-- The parts before and after the first occurrence of `mark`, a byte string. -/
def cutAtText? (mark : Bytes) : Bytes → Option (Bytes × Bytes)
  | [] => if mark.isEmpty then some ([], []) else none
  | b :: rest =>
    if mark.isPrefixOf (b :: rest) then some ([], (b :: rest).drop mark.length)
    else (cutAtText? mark rest).map fun (before, after) => (b :: before, after)

/-- What follows `start` in a byte string that begins with it. -/
def after? : Bytes → Bytes → Option Bytes
  | [], b => some b
  | _ :: _, [] => none
  | s :: start, b :: rest => if s = b then after? start rest else none

/-- A byte string without the bytes at its two ends that `blank` holds of. -/
def trim (blank : UInt8 → Bool) (b : Bytes) : Bytes :=
  ((b.dropWhile blank).reverse.dropWhile blank).reverse

/-- White space: the space, and the bytes 9 to 13, from the tabulator to the carriage return. -/
def isSpace (b : UInt8) : Bool := b == 32 || (9 ≤ b && b ≤ 13)

/-- The lines of a text. A line feed ends a line; a last line needs none. -/
def lines : Bytes → List Bytes
  | [] => []
  | b :: rest =>
    if b = 10 then [] :: lines rest
    else
      match lines rest with
      | [] => [[b]]
      | line :: more => (b :: line) :: more

/-- The maximal runs of bytes that are not white space. -/
def words : Bytes → List Bytes
  | [] => []
  | b :: rest =>
    if isSpace b then words rest
    else
      match rest with
      | [] => [[b]]
      | c :: _ =>
        -- The first byte is a word of its own when white space follows.
        if isSpace c then [b] :: words rest
        else
          match words rest with
          | [] => [[b]]
          | word :: more => (b :: word) :: more

/-- A byte string cut into pieces of `size + 1` bytes, the last one possibly shorter. An empty
byte string has no pieces. -/
def piecesOf (size : Nat) : Bytes → List Bytes
  | [] => []
  | b :: rest => (b :: rest.take size) :: piecesOf size (rest.drop size)
termination_by b => b.length
decreasing_by
  simp only [List.length_drop, List.length_cons]
  omega

/-- A byte string cut into pieces of at most `size` bytes, which is not zero. -/
def pieces (size : Nat) (b : Bytes) : List Bytes := piecesOf (size - 1) b

/-- A byte string cut into pieces of at most `size` bytes, the first ones no longer than the given
lengths. No piece is empty. -/
def piecesBy (size : Nat) : List Nat → Bytes → List Bytes
  | [], b => pieces size b
  | _ :: _, [] => []
  | length :: lengths, b :: rest =>
    let more := min (length - 1) (size - 1)
    (b :: rest.take more) :: piecesBy size lengths (rest.drop more)

/-- Lower-case ASCII letters become upper-case, all other bytes stay. -/
def toUpper (b : Bytes) : Bytes := b.map fun c => if 97 ≤ c && c ≤ 122 then c - 32 else c

/-- Upper-case ASCII letters become lower-case, all other bytes stay. -/
def toLower (b : Bytes) : Bytes := b.map fun c => if 65 ≤ c && c ≤ 90 then c + 32 else c

theorem cutAt?_eq_some_iff {mark : UInt8} {b before after : Bytes} :
    cutAt? mark b = some (before, after) ↔ b = before ++ mark :: after ∧ mark ∉ before := by
  induction b generalizing before with
  | nil => simp [cutAt?]
  | cons c rest ih =>
    by_cases h : c = mark
    · subst h
      simp only [cutAt?, if_true, Option.some.injEq, Prod.mk.injEq]
      constructor
      · rintro ⟨rfl, rfl⟩
        simp
      · rintro ⟨heq, hmem⟩
        cases before with
        | nil => simpa using heq
        | cons d before =>
          obtain ⟨rfl, -⟩ : c = d ∧ _ := by simpa using heq
          simp at hmem
    · simp only [cutAt?, if_neg h, Option.map_eq_some_iff, Prod.exists, Prod.mk.injEq]
      constructor
      · rintro ⟨x, y, hcut, rfl, rfl⟩
        obtain ⟨rfl, hmem⟩ := ih.1 hcut
        exact ⟨rfl, by simp [hmem, Ne.symm h]⟩
      · rintro ⟨heq, hmem⟩
        cases before with
        | nil => exact absurd (by simpa using heq : c = mark ∧ rest = after).1 h
        | cons d before =>
          obtain ⟨rfl, hrest⟩ : c = d ∧ rest = before ++ mark :: after := by simpa using heq
          exact ⟨before, after, ih.2 ⟨hrest, fun hm => hmem (List.mem_cons_of_mem _ hm)⟩, rfl, rfl⟩

theorem cutAt?_eq_none_iff {mark : UInt8} {b : Bytes} : cutAt? mark b = none ↔ mark ∉ b := by
  induction b with
  | nil => simp [cutAt?]
  | cons c rest ih =>
    by_cases h : c = mark
    · simp [cutAt?, h]
    · simp [cutAt?, h, ih, Ne.symm h]

theorem eq_of_cutAtText?_eq_some {mark b before after : Bytes}
    (h : cutAtText? mark b = some (before, after)) : b = before ++ mark ++ after := by
  induction b generalizing before with
  | nil =>
    simp only [cutAtText?] at h
    split at h
    · rename_i hmark
      cases h
      simp [List.isEmpty_iff.1 hmark]
    · cases h
  | cons c rest ih =>
    simp only [cutAtText?] at h
    split at h
    · rename_i hmark
      obtain ⟨tail, htail⟩ := List.isPrefixOf_iff_prefix.1 hmark
      cases h
      rw [← htail]
      simp
    · simp only [Option.map_eq_some_iff, Prod.exists, Prod.mk.injEq] at h
      obtain ⟨x, y, hcut, rfl, rfl⟩ := h
      simp [ih hcut]

/-- A mark whose first byte stands nowhere in front of it is cut at. -/
theorem cutAtText?_append {m : UInt8} {before : Bytes} (h : m ∉ before) (mark after : Bytes) :
    cutAtText? (m :: mark) (before ++ m :: (mark ++ after)) = some (before, after) := by
  induction before with
  | nil => simp [cutAtText?]
  | cons c before ih =>
    obtain ⟨hne, hmem⟩ : m ≠ c ∧ m ∉ before := by simpa using h
    simp [cutAtText?, hne, ih hmem]

theorem flatten_piecesOf (size : Nat) (b : Bytes) : (piecesOf size b).flatten = b := by
  fun_induction piecesOf size b with
  | case1 => rfl
  | case2 b rest ih => simp [ih]

theorem length_le_of_mem_piecesOf {size : Nat} {b piece : Bytes} (h : piece ∈ piecesOf size b) :
    0 < piece.length ∧ piece.length ≤ size + 1 := by
  fun_induction piecesOf size b with
  | case1 => simp at h
  | case2 b rest ih =>
    rcases List.mem_cons.1 h with rfl | hmem
    · simp only [List.length_cons, List.length_take]
      omega
    · exact ih hmem

theorem flatten_piecesBy (size : Nat) (lengths : List Nat) (b : Bytes) :
    (piecesBy size lengths b).flatten = b := by
  fun_induction piecesBy size lengths b with
  | case1 b => exact flatten_piecesOf _ b
  | case2 => rfl
  | case3 length lengths b rest more ih => simp [ih]

theorem ne_nil_of_mem_piecesBy {size : Nat} {lengths : List Nat} {b piece : Bytes}
    (h : piece ∈ piecesBy size lengths b) : piece ≠ [] := by
  fun_induction piecesBy size lengths b with
  | case1 b => exact List.length_pos_iff.1 (length_le_of_mem_piecesOf h).1
  | case2 => cases h
  | case3 length lengths b rest more ih =>
    rcases List.mem_cons.1 h with rfl | hmem
    · exact List.cons_ne_nil _ _
    · exact ih hmem

theorem after?_eq_some_iff {start b rest : Bytes} :
    after? start b = some rest ↔ b = start ++ rest := by
  induction start generalizing b with
  | nil => simp [after?]
  | cons s start ih =>
    cases b with
    | nil => simp [after?]
    | cons c b =>
      by_cases h : s = c
      · simp [after?, h, ih]
      · simp [after?, h, Ne.symm h]

end Bytes

end RemoteCache
