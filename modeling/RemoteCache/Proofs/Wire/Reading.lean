import RemoteCache.Proofs.Wire.Stability

/-!
# Readers take what was written

Every field is written by one function and read by another. A reader takes a value's bytes when
it finds the value at the front of any byte string that begins with them, passes exactly them and
leaves what follows untouched. Stated so, the field laws compose into laws of whole frames.

## Main definitions

* `Reader.Reads` — a reader takes a value's bytes off the front of whatever follows them

## Main results

* `Reader.Reads.bind` — the bytes of two fields are read one after the other
* `Reader.Reads.times` — and those of a counted list item by item
* `Reader.Reads.number`, `Reader.Reads.text`, `Reader.Reads.flag`, `Reader.Reads.policy` — every
  field reads what was written for it
-/

namespace RemoteCache.Wire.Reader

variable {α β : Type}

/-- A reader takes the bytes of a value off the front of whatever follows them. -/
def Reads (r : Reader α) (b : Bytes) (a : α) : Prop :=
  ∀ offset t, r ⟨offset, b ++ t⟩ = .done a ⟨offset + b.length, t⟩

theorem Reads.start {r : Reader α} {b : Bytes} {a : α} (h : Reads r b a) (t : Bytes) :
    r (.start (b ++ t)) = .done a ⟨b.length, t⟩ := by
  have hread := h 0 t
  rwa [Nat.zero_add] at hread

theorem Reads.pure (a : α) : Reads (Reader.pure a) [] a := fun _ _ => rfl

theorem Reads.bind {r : Reader α} {next : α → Reader β} {b b' : Bytes} {a : α} {a' : β}
    (hr : Reads r b a) (hnext : Reads (next a) b' a') :
    Reads (Reader.bind r next) (b ++ b') a' := by
  intro offset t
  -- For the first field, the second one is a part of what follows.
  refine bind_eq_done_iff.2 ⟨a, ⟨offset + b.length, b' ++ t⟩, ?_, ?_⟩
  · rw [List.append_assoc]
    exact hr offset (b' ++ t)
  · rw [List.length_append, ← Nat.add_assoc]
    exact hnext (offset + b.length) t

/-- A step that passes nothing turns the value that was read into another. -/
theorem Reads.then {r : Reader α} {next : α → Reader β} {b : Bytes} {a : α} {a' : β}
    (hr : Reads r b a) (hnext : Reads (next a) [] a') : Reads (Reader.bind r next) b a' := by
  have h := hr.bind hnext
  rwa [List.append_nil] at h

theorem Reads.map {r : Reader α} {b : Bytes} {a : α} (hr : Reads r b a) (f : α → β) :
    Reads (Reader.bind r fun a => Reader.pure (f a)) b (f a) :=
  hr.then (Reads.pure (f a))

theorem Reads.bytes (b : Bytes) : Reads (Reader.bytes b.length) b b :=
  fun _ _ => bytes_eq_done_iff.2 ⟨rfl, rfl, rfl⟩

/-- Items that are read one by one, each as a value of its own, are read as a list. -/
theorem Reads.times {r : Reader β} {write : α → Bytes} {value : α → β} {items : List α}
    (h : ∀ a ∈ items, Reads r (write a) (value a)) :
    Reads (Reader.times r items.length) (items.flatMap write) (items.map value) := by
  induction items with
  | nil => exact .pure []
  | cons a items ih =>
    have hrest := ih fun a' ha' => h a' (List.mem_cons_of_mem a ha')
    exact (h a List.mem_cons_self).bind (hrest.map fun more => value a :: more)

/-! ### Fields -/

theorem Reads.number {width n : Nat} (h : n < 256 ^ width) :
    Reads (Reader.number width) (littleEndian width n) n := by
  have hbytes := Reads.bytes (littleEndian width n)
  rw [length_littleEndian] at hbytes
  have hmap := hbytes.map ofLittleEndian
  rwa [ofLittleEndian_littleEndian, Nat.mod_eq_of_lt h] at hmap

theorem Reads.word32 {n : Nat} (h : n < 2 ^ 32) : Reads Reader.word32 (Wire.word32 n) n :=
  Reads.number (by omega)

theorem Reads.word64 {n : Nat} (h : n < 2 ^ 64) : Reads Reader.word64 (Wire.word64 n) n :=
  Reads.number (by omega)

theorem Reads.byte (b : UInt8) : Reads Reader.byte [b] b := by
  -- A byte is read as a number of one byte.
  have hlt := b.toNat_lt
  have hwritten : littleEndian 1 b.toNat = [b] := by
    have hmod : b.toNat % 256 = b.toNat := Nat.mod_eq_of_lt hlt
    simp [littleEndian, hmod]
  have hvalue : b.toNat.toUInt8 = b := by simp
  have h : Reads Reader.byte (littleEndian 1 b.toNat) b.toNat.toUInt8 :=
    (Reads.number (by omega)).map Nat.toUInt8
  rwa [hwritten, hvalue] at h

theorem Reads.binary64 (x : Binary64) : Reads Reader.binary64 (Wire.binary64 x) x := by
  have hlt := x.bits.toNat_lt
  have hvalue : (⟨x.bits.toNat.toUInt64⟩ : Binary64) = x := by simp
  have h : Reads Reader.binary64 (Wire.binary64 x) ⟨x.bits.toNat.toUInt64⟩ :=
    (Reads.number (by omega)).map fun n => Binary64.mk n.toUInt64
  rwa [hvalue] at h

theorem Reads.text {b : Bytes} (h : b.length < 2 ^ 32) : Reads Reader.text (Wire.text b) b :=
  (Reads.word32 h).bind (Reads.bytes b)

theorem Reads.flag (isSet : Bool) : Reads Reader.flag (Wire.flag isSet) isSet := by
  intro offset t
  cases isSet <;> rfl

/-- A policy is read back as the one that its name stands for. -/
theorem Reads.policy {p q : Policy} (hread : Policy.read? p.text = some q)
    (hlen : p.text.length < 2 ^ 32) : Reads Reader.policy (Wire.policy p) q := by
  unfold Reader.policy
  apply (Reads.text hlen).then
  simp only [hread]
  exact Reads.pure q

/-- A name that stands for no policy is a fault, whatever follows it. -/
theorem policy_of_read?_eq_none {name : Bytes} (hread : Policy.read? name = none)
    (hlen : name.length < 2 ^ 32) (offset : Nat) (t : Bytes) :
    Reader.policy ⟨offset, Wire.text name ++ t⟩ = .malformed (.unknownPolicy name) := by
  refine bind_eq_malformed_iff.2 (.inr ⟨name, _, Reads.text hlen offset t, ?_⟩)
  simp only [hread]
  rfl

end RemoteCache.Wire.Reader
