import RemoteCache.Proofs.Wire.PolicyRoundTrip

/-!
# Policies that came from a text

A policy that was read from a text is stable: it is read again from the text that is written for
it, bit for bit. Its first parameter was read from what stands in front of the first hyphen behind
the name. A minus is a hyphen too, so nothing that is read there has its sign bit set, although
the reader of numbers would accept a minus. The other parameters may be negative: whatever
follows the first hyphen belongs to one number.

## Main results

* `Binary64.signBit_iff_of_read?` — a number has its sign bit set if its text begins with a minus
* `Policy.namesItself_of_read?` — a policy that was read from a text names itself
* `Policy.text_stable` — it is read again from the text that is written for it
-/

namespace RemoteCache

/-! ### The sign of a number -/

theorem Decimal.signBit_of_nearest? {d : Decimal} {negative : Bool} {x : Binary64}
    (h : d.nearest? negative = some x) : x.signBit = negative := by
  unfold nearest? at h
  split at h
  · cases h
    exact Binary64.signBit_ofMagnitude (by decide)
  · simp only at h
    split at h
    · cases h
    · have hrounded := (Option.filter_eq_some_iff.1 h).1
      split at hrounded <;> exact Binary64.signBit_of_nearest? hrounded

namespace Binary64

variable {negative : Bool} {b : Bytes} {x : Binary64}

theorem signBit_of_readMagnitude? (h : readMagnitude? negative b = some x) :
    x.signBit = negative := by
  unfold readMagnitude? at h
  split at h
  · cases h
    exact signBit_ofMagnitude (by decide)
  · split at h
    · cases h
      exact signBit_ofMagnitude (by decide)
    · obtain ⟨d, -, hd⟩ := Option.bind_eq_some_iff.1 h
      exact Decimal.signBit_of_nearest? hd

/-- A number that was read has its sign bit set if and only if its text begins with a minus. -/
theorem signBit_iff_of_read? (h : read? b = some x) :
    x.signBit = true ↔ b.head? = some Policy.hyphen := by
  unfold read? at h
  split at h
  · simp [signBit_of_readMagnitude? h, Policy.hyphen]
  · rename_i hminus
    have hhead : b.head? ≠ some Policy.hyphen := by
      intro hhead
      obtain ⟨rest, rfl⟩ := List.head?_eq_some_iff.1 hhead
      exact hminus rest rfl
    simp [signBit_of_readMagnitude? h, hhead]

end Binary64

namespace Policy

variable {b : Bytes} {p : Policy}

theorem isPlain_of_mem_plainNames {named : Kind × Bytes} (h : named ∈ plainNames) :
    named.1.isPlain = true := by
  revert named
  decide

/-- The three ways in which a text names a policy. -/
theorem cases_of_read? (h : read? b = some p) :
    (p.kind.isPlain = true ∧ p = { kind := p.kind }) ∨
    (∃ parameters, readTwoQ? parameters = some p) ∨
    ∃ parameter, readSThreeFifo? parameter = some p := by
  unfold read? at h
  split at h
  · rename_i kind name hfound
    cases h
    exact .inl ⟨isPlain_of_mem_plainNames (List.mem_of_find?_eq_some hfound), rfl⟩
  · split at h
    · exact .inr (.inl ⟨_, h⟩)
    · obtain ⟨parameter, -, hread⟩ := Option.bind_eq_some_iff.1 h
      exact .inr (.inr ⟨parameter, hread⟩)

theorem exists_of_readTwoQ? (h : readTwoQ? b = some p) : ∃ before after,
    Bytes.cutAt? hyphen b = some (before, after) ∧ Binary64.read? before = some p.kIn ∧
      Binary64.read? after = some p.kOut ∧ p = { kind := .twoQ, kIn := p.kIn, kOut := p.kOut } := by
  obtain ⟨⟨before, after⟩, hcut, h⟩ := Option.bind_eq_some_iff.1 h
  obtain ⟨kIn, hin, h⟩ := Option.bind_eq_some_iff.1 h
  obtain ⟨kOut, hout, h⟩ := Option.bind_eq_some_iff.1 h
  cases h
  exact ⟨before, after, hcut, hin, hout, rfl⟩

/-- A policy that was read from a text has no parameters that its kind ignores. -/
theorem essence_of_read? (h : read? b = some p) : p.essence = p := by
  rcases cases_of_read? h with ⟨-, hp⟩ | ⟨parameters, hread⟩ | ⟨parameter, hread⟩
  · rw [hp]
    cases p.kind <;> rfl
  · obtain ⟨-, -, -, -, -, hp⟩ := exists_of_readTwoQ? hread
    rw [hp]
    rfl
  · obtain ⟨ratio, -, hp⟩ := Option.bind_eq_some_iff.1 hread
    cases hp
    rfl

/-- What is read as the first parameter has no minus in front. -/
theorem signBit_of_readTwoQ? (h : readTwoQ? b = some p) : p.kIn.signBit = false := by
  obtain ⟨before, after, hcut, hin, -⟩ := exists_of_readTwoQ? h
  have hbefore : hyphen ∉ before := (Bytes.cutAt?_eq_some_iff.1 hcut).2
  rw [← Bool.not_eq_true, Binary64.signBit_iff_of_read? hin]
  exact fun hhead => hbefore (List.mem_of_head? hhead)

/-- A policy that was read from a text names itself, unless a parameter is a NaN. -/
theorem namesItself_of_read? (h : read? b = some p)
    (hnan : ∀ x ∈ p.parameters, x.isNaN = false) : p.NamesItself := by
  have hin : p.kIn.isNaN = false := hnan p.kIn (by simp [parameters])
  have hout : p.kOut.isNaN = false := hnan p.kOut (by simp [parameters])
  have hratio : p.ratio.isNaN = false := hnan p.ratio (by simp [parameters])
  unfold NamesItself
  split
  · rename_i hkind
    refine ⟨hin, ?_, hout⟩
    -- Of the three ways, only the one with two parameters leads to this kind.
    rcases cases_of_read? h with ⟨hplain, -⟩ | ⟨parameters, hread⟩ | ⟨parameter, hread⟩
    · simp [hkind, Kind.isPlain] at hplain
    · exact signBit_of_readTwoQ? hread
    · obtain ⟨ratio, -, hp⟩ := Option.bind_eq_some_iff.1 hread
      cases hp
      cases hkind
  · exact hratio
  · trivial

/-- A policy that was read from a text, and has no NaN, is read again from the text that is written
for it. What is read then is equal to it and has the same text. In no text is a parameter replaced
for want of room. -/
theorem text_stable (h : read? b = some p) (hnan : ∀ x ∈ p.parameters, x.isNaN = false) :
    (∃ q, read? p.text = some q ∧ q.agrees p = true ∧ q.text = p.text) ∧
      ∀ x : Binary64, x.shortest.length ≤ parameterRoom ∧ parameterText x = x.shortest := by
  have hnames := namesItself_of_read? h hnan
  have hessence := essence_of_read? h
  have hread := read?_text hnames
  have hagrees := agrees_essence hnames
  rw [hessence] at hread hagrees
  refine ⟨⟨p, hread, hagrees, rfl⟩, fun x => ⟨?_, parameterText_eq x⟩⟩
  exact x.length_shortest_le.trans (by decide)

/-- A power of ten in exponent form and a negative infinity are read, written and read again. -/
theorem text_stable_infinity :
    (∃ p, read? (Bytes.ascii "2q-1e5--inf") = some p ∧ ∃ q, read? p.text = some q ∧
      q.agrees p = true ∧ q.text = p.text) := by
  have hread : read? (Bytes.ascii "2q-1e5--inf") =
      some ⟨.twoQ, ⟨0x40F86A0000000000⟩, .infinity true, .zero⟩ := by
    decide +kernel
  exact ⟨_, hread, (text_stable hread (by decide)).1⟩

end Policy

end RemoteCache
