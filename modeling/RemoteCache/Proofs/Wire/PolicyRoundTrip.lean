import RemoteCache.Proofs.Binary64.PlainText
import RemoteCache.Proofs.Wire.RequestRoundTrip

/-!
# Policies are read back

A policy travels as its text. The parameters in it are separated by hyphens and a minus is a
hyphen too, so the text of a policy is read back unless its first parameter has its sign bit set.
The check of a command keeps out the numbers below zero. It lets the negative zero through, which
is not below zero and yet is written with a minus.

## Main definitions

* `Policy.essence` — a policy without the parameters that its kind ignores
* `Policy.NamesItself` — a policy whose text is read back
* `Binary64.negativeZero` — the zero with the sign bit set

## Main results

* `Policy.parameterText_eq` — there is room for the text of every parameter
* `Policy.read?_text` — a policy that names itself is read back from its text
* `Policy.read?_text_of_signBit` — a first parameter with its sign bit set spoils the text
* `Request.setPolicy_round_trip_iff` — the choice of a policy that can be sent is read back
  unless the first parameter is the negative zero
-/

namespace RemoteCache

namespace Binary64

/-- The zero with the sign bit set. -/
def negativeZero : Binary64 := ofMagnitude true 0

theorem isNaN_of_isFinite {x : Binary64} (h : x.isFinite = true) : x.isNaN = false := by
  have hfield : x.exponentField ≠ topExponent := by simpa [isFinite] using h
  simp [isNaN, hfield]

/-- The only number with its sign bit set that is not below zero is the negative zero. -/
theorem signBit_iff_eq_negativeZero {x : Binary64} (hfinite : x.isFinite = true)
    (hbelow : x.isBelowZero = false) : x.signBit = true ↔ x = negativeZero := by
  constructor
  · intro hsign
    have hzero : x.exponentField = 0 ∧ x.fraction = 0 := by
      simpa [isBelowZero, hsign, isNaN_of_isFinite hfinite, isZero] using hbelow
    have hself := x.ofMagnitude_signBit
    rw [hzero.1, hzero.2, hsign] at hself
    exact hself.symm
  · rintro rfl
    rfl

end Binary64

namespace Policy

variable {p : Policy}

/-- A policy without the parameters that its kind ignores. -/
def essence (p : Policy) : Policy :=
  match p.kind with
  | .twoQ => { kind := .twoQ, kIn := p.kIn, kOut := p.kOut }
  | .sThreeFifo => { kind := .sThreeFifo, ratio := p.ratio }
  | kind => { kind }

/-- A policy whose text is read back: no parameter of its kind is a NaN, and the text of the
first one of two has no minus. -/
def NamesItself (p : Policy) : Prop :=
  match p.kind with
  | .twoQ => p.kIn.isNaN = false ∧ p.kIn.signBit = false ∧ p.kOut.isNaN = false
  | .sThreeFifo => p.ratio.isNaN = false
  | _ => True

/-- There is room for the text of every parameter, so none is replaced by a zero. -/
@[simp]
theorem parameterText_eq (x : Binary64) : parameterText x = x.shortest := by
  have hroom : x.shortest.length ≤ parameterRoom :=
    x.length_shortest_le.trans (by decide)
  simp [parameterText, hroom]

theorem find?_plainNames_twoQ (b : Bytes) :
    plainNames.find? (fun named => named.2 == twoQStart ++ b) = none := by
  simp [plainNames, twoQStart, Bytes.ascii]

theorem find?_plainNames_sThreeFifo (b : Bytes) :
    plainNames.find? (fun named => named.2 == sThreeFifoStart ++ b) = none := by
  simp [plainNames, sThreeFifoStart, Bytes.ascii]

theorem read?_twoQ (b : Bytes) : read? (twoQStart ++ b) = readTwoQ? b := by
  simp only [read?, find?_plainNames_twoQ, Bytes.after?_eq_some_iff.2 rfl]

theorem read?_sThreeFifo (b : Bytes) : read? (sThreeFifoStart ++ b) = readSThreeFifo? b := by
  have hafter : Bytes.after? twoQStart (sThreeFifoStart ++ b) = none := by
    simp [Bytes.after?, twoQStart, sThreeFifoStart, Bytes.ascii]
  simp only [read?, find?_plainNames_sThreeFifo, hafter, Bytes.after?_eq_some_iff.2 rfl,
    Option.bind_some]

/-- A policy that names itself is read back from its text, without the parameters that its kind
ignores. -/
theorem read?_text (h : p.NamesItself) : read? p.text = some p.essence := by
  obtain ⟨kind, kIn, kOut, ratio⟩ := p
  cases kind with
  | twoQ =>
    obtain ⟨hin, hsign, hout⟩ := h
    have hcut : Bytes.cutAt? hyphen (kIn.shortest ++ hyphen :: kOut.shortest) =
        some (kIn.shortest, kOut.shortest) :=
      Bytes.cutAt?_eq_some_iff.2 ⟨rfl, Binary64.hyphen_notMem_shortest hin hsign⟩
    rw [text, parameterText_eq, parameterText_eq, List.append_assoc, read?_twoQ]
    simp [readTwoQ?, hcut, Binary64.read?_shortest hin, Binary64.read?_shortest hout, essence]
  | sThreeFifo =>
    have hratio : ratio.isNaN = false := h
    rw [text, parameterText_eq, read?_sThreeFifo]
    simp [readSThreeFifo?, Binary64.read?_shortest hratio, essence]
  | _ => rfl

/-- A first parameter with its sign bit set spoils the text: it is cut at the minus, in front of
which there is no number. -/
theorem read?_text_of_signBit (hkind : p.kind = .twoQ) (hsign : p.kIn.signBit = true) :
    read? p.text = none := by
  obtain ⟨rest, hrest⟩ := Binary64.exists_cons_shortest hsign
  have hcut : Bytes.cutAt? hyphen (p.kIn.shortest ++ hyphen :: p.kOut.shortest) =
      some ([], rest ++ hyphen :: p.kOut.shortest) := by
    rw [hrest]
    exact Bytes.cutAt?_eq_some_iff.2 ⟨rfl, List.not_mem_nil⟩
  have hempty : Binary64.read? [] = none := rfl
  rw [text, hkind, parameterText_eq, parameterText_eq, List.append_assoc, read?_twoQ]
  simp [readTwoQ?, hcut, hempty]

theorem agrees_essence (h : p.NamesItself) : p.agrees p.essence = true := by
  obtain ⟨kind, kIn, kOut, ratio⟩ := p
  cases kind with
  | twoQ =>
    obtain ⟨hin, -, hout⟩ := h
    simp [agrees, essence, (Binary64.agrees_self_iff _).2 hin, (Binary64.agrees_self_iff _).2 hout]
  | sThreeFifo =>
    have hratio : ratio.isNaN = false := h
    simp [agrees, essence, (Binary64.agrees_self_iff _).2 hratio]
  | _ => rfl

theorem length_text_lt (p : Policy) : p.text.length < 2 ^ 32 := by
  have hin := p.kIn.length_shortest_le
  have hout := p.kOut.length_shortest_le
  have hratio := p.ratio.length_shortest_le
  obtain ⟨kind, kIn, kOut, ratio⟩ := p
  cases kind <;> simp [text, twoQStart, sThreeFifoStart, Bytes.ascii] at * <;> omega

end Policy

namespace Request

open Wire

theorem bounds_of_checkPolicy {p : Policy} (h : Command.checkPolicy p = .ok ()) :
    ∀ x ∈ p.parameters, x.isFinite = true ∧ x.isBelowZero = false := by
  unfold Command.checkPolicy at h
  split at h
  · rename_i hall
    intro x hx
    simpa using List.all_eq_true.1 hall x hx
  · cases h

/-- A policy that can be sent names itself unless its first parameter is the negative zero. -/
theorem namesItself_of_checkPolicy {p : Policy} (h : Command.checkPolicy p = .ok ())
    (hzero : ¬ (p.kind = .twoQ ∧ p.kIn = .negativeZero)) : p.NamesItself := by
  obtain ⟨hin, hbelow⟩ := bounds_of_checkPolicy h p.kIn (by simp [Policy.parameters])
  obtain ⟨hout, -⟩ := bounds_of_checkPolicy h p.kOut (by simp [Policy.parameters])
  obtain ⟨hratio, -⟩ := bounds_of_checkPolicy h p.ratio (by simp [Policy.parameters])
  unfold Policy.NamesItself
  split
  · rename_i hkind
    have hsign : p.kIn.signBit ≠ true := fun hsign =>
      hzero ⟨hkind, (Binary64.signBit_iff_eq_negativeZero hin hbelow).1 hsign⟩
    exact ⟨Binary64.isNaN_of_isFinite hin, by simpa using hsign, Binary64.isNaN_of_isFinite hout⟩
  · exact Binary64.isNaN_of_isFinite hratio
  · trivial

theorem reads_encode_setPolicy {p q : Policy} (h : Policy.read? p.text = some q) :
    Reader.Reads read (encode (.setPolicy p)) (.setPolicy q) :=
  (Reader.Reads.byte 12).bind ((Reader.Reads.policy h p.length_text_lt).map Command.setPolicy)

/-- A text that names no policy is a fault, whatever follows it. -/
theorem read_encode_setPolicy_of_eq_none {p : Policy} (h : Policy.read? p.text = none)
    (t : Bytes) :
    read (.start (encode (.setPolicy p) ++ t)) = .malformed (.unknownPolicy p.text) := by
  have hbyte : Reader.byte (.start (encode (.setPolicy p) ++ t)) =
      .done 12 ⟨1, Wire.policy p ++ t⟩ := (Reader.Reads.byte 12).start _
  have hfault := Reader.policy_of_read?_eq_none h p.length_text_lt 1 t
  have hfields : readFields 12 ⟨1, Wire.policy p ++ t⟩ = .malformed (.unknownPolicy p.text) :=
    Reader.bind_eq_malformed_iff.2 (.inl hfault)
  have hread : Reader.bind Reader.byte readFields (.start (encode (.setPolicy p) ++ t)) =
      .malformed (.unknownPolicy p.text) :=
    Reader.bind_eq_malformed_iff.2 (.inr ⟨12, _, hbyte, hfields⟩)
  exact hread

/-- The choice of a policy that can be sent is read back, as a policy that agrees with it, if and
only if the first of its two parameters, where its kind has two, is not the negative zero. That
one policy is a fault on the other side. -/
theorem setPolicy_round_trip_iff {p : Policy} (h : (Command.setPolicy p).Valid) (t : Bytes) :
    frame (.setPolicy p) = .ok (encode (.setPolicy p)) ∧
    ((∃ q, p.agrees q = true ∧ read (.start (encode (.setPolicy p) ++ t)) =
        .done (.setPolicy q) ⟨(encode (.setPolicy p)).length, t⟩) ↔
      ¬ (p.kind = .twoQ ∧ p.kIn = .negativeZero)) ∧
    (p.kind = .twoQ ∧ p.kIn = .negativeZero →
      read (.start (encode (.setPolicy p) ++ t)) = .malformed (.unknownPolicy p.text)) := by
  have hfault : p.kind = .twoQ ∧ p.kIn = .negativeZero →
      read (.start (encode (.setPolicy p) ++ t)) = .malformed (.unknownPolicy p.text) := by
    rintro ⟨hkind, hzero⟩
    exact read_encode_setPolicy_of_eq_none (Policy.read?_text_of_signBit hkind (hzero ▸ rfl)) t
  refine ⟨frame_eq_ok h, ⟨?_, ?_⟩, hfault⟩
  · rintro ⟨q, -, hread⟩ hzero
    rw [hfault hzero] at hread
    cases hread
  · intro hzero
    have hnames := namesItself_of_checkPolicy h hzero
    exact ⟨p.essence, Policy.agrees_essence hnames,
      (reads_encode_setPolicy (Policy.read?_text hnames)).start t⟩

/-- One quarter and one half are read back. -/
theorem setPolicy_round_trip_quarter :
    (Command.setPolicy ⟨.twoQ, ⟨0x3FD0000000000000⟩, ⟨0x3FE0000000000000⟩, .zero⟩).Valid ∧
    ∃ q, Policy.agrees ⟨.twoQ, ⟨0x3FD0000000000000⟩, ⟨0x3FE0000000000000⟩, .zero⟩ q = true ∧
      read (.start (encode (.setPolicy
        ⟨.twoQ, ⟨0x3FD0000000000000⟩, ⟨0x3FE0000000000000⟩, .zero⟩) ++ [13])) =
        .done (.setPolicy q) ⟨16, [13]⟩ := by
  have hvalid :
      (Command.setPolicy ⟨.twoQ, ⟨0x3FD0000000000000⟩, ⟨0x3FE0000000000000⟩, .zero⟩).Valid := by
    decide
  have hlength : (encode (.setPolicy
      ⟨.twoQ, ⟨0x3FD0000000000000⟩, ⟨0x3FE0000000000000⟩, .zero⟩)).length = 16 := by
    decide +kernel
  have hback := (setPolicy_round_trip_iff hvalid [13]).2.1.2 (by decide)
  rw [hlength] at hback
  exact ⟨hvalid, hback⟩

/-- The negative zero in the first place can be sent, and is not read back. -/
theorem setPolicy_negativeZero_not_read_back :
    (Command.setPolicy ⟨.twoQ, .negativeZero, ⟨0x3FE0000000000000⟩, .zero⟩).Valid ∧
    ¬ ∃ q, Policy.agrees ⟨.twoQ, .negativeZero, ⟨0x3FE0000000000000⟩, .zero⟩ q = true ∧
      read (.start (encode (.setPolicy
        ⟨.twoQ, .negativeZero, ⟨0x3FE0000000000000⟩, .zero⟩))) =
        .done (.setPolicy q) ⟨14, []⟩ := by
  refine ⟨by decide, ?_⟩
  rintro ⟨q, -, hread⟩
  have hsign : Binary64.negativeZero.signBit = true := by decide
  have hfault := read_encode_setPolicy_of_eq_none (Policy.read?_text_of_signBit
    (p := ⟨.twoQ, .negativeZero, ⟨0x3FE0000000000000⟩, .zero⟩) rfl hsign) []
  rw [List.append_nil, hread] at hfault
  cases hfault

end Request

end RemoteCache
