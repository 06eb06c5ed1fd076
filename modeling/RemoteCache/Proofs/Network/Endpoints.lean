import RemoteCache.Endpoint

/-!
# The grammar of addresses

An address is read by searching: for the first separator, for the first bracket or colon, for the
end of the digits. What is accepted in the end has a plain grammar, in which a host stands in
brackets or free. The two forms differ in what a host may hold. In brackets it may hold anything
but the closing bracket; free it may hold anything but a colon, and may not begin with a bracket.

The address that is written for an endpoint has brackets exactly if the host holds a colon. A host
that was read in brackets and begins with a bracket, but holds no colon, is written free. It is
the one kind of host that does not survive: its own bracket is then taken for the one around it.

## Main definitions

* `Endpoint.IsPort` — a text of decimal digits that is the number of a port
* `Endpoint.Names` — the grammar: a text is an address of an endpoint
* `Endpoint.LosesBracket` — a host that begins with a bracket and is written free

## Main results

* `Endpoint.read_iff_names` — the addresses that are read are those of the grammar
* `Endpoint.read_text_iff` — the endpoint that was read is read again from the address that is
  written for it, unless its host loses its bracket
-/

namespace RemoteCache.Endpoint

open Numeral

/-- A text of decimal digits, zeros in front allowed, that is the number of a port. -/
structure IsPort (digits : Bytes) (port : UInt16) : Prop where
  ne_nil : digits ≠ []
  digit : ∀ b ∈ digits, isDigit b = true
  value : value digits = port.toNat
  pos : 0 < port.toNat

/-- The grammar of addresses. A host in brackets is free of closing ones. A host without brackets
is free of colons and does not begin with a bracket. -/
inductive Names : Bytes → Endpoint → Prop
  | bracketed {host digits : Bytes} {port : UInt16} (ne_nil : host ≠ [])
      (close : closeBracket ∉ host) (hport : IsPort digits port) :
      Names (Bytes.ascii "paper://[" ++ host ++ Bytes.ascii "]:" ++ digits) ⟨host, port⟩
  | free {host digits : Bytes} {port : UInt16} (ne_nil : host ≠ []) (hcolon : colon ∉ host)
      (bracket : host.head? ≠ some openBracket) (hport : IsPort digits port) :
      Names (Bytes.ascii "paper://" ++ host ++ Bytes.ascii ":" ++ digits) ⟨host, port⟩

/-- A host that begins with a bracket although it holds no colon. -/
def LosesBracket (host : Bytes) : Prop := host.head? = some openBracket ∧ colon ∉ host

instance (host : Bytes) : Decidable (LosesBracket host) :=
  inferInstanceAs (Decidable (_ ∧ _))

variable {b host digits rest : Bytes} {port : UInt16} {e : Endpoint}

/-! ### The port -/

/-- A port is read from its digits, and from nothing else. A number that is too large even to be
represented is no port either. -/
theorem readPort_eq_ok_iff : readPort digits = .ok port ↔ IsPort digits port := by
  constructor
  · intro h
    unfold readPort readDigits? at h
    split at h
    · cases h
    · rename_i n hread
      split at hread
      · rename_i hdigits
        cases hread
        simp only [Bool.and_eq_true, Bool.not_eq_true', List.isEmpty_eq_false_iff,
          List.all_eq_true, decide_eq_true_eq] at hdigits
        split at h
        · cases h
        · rename_i hrange
          simp only [Bool.or_eq_true, decide_eq_true_eq, not_or, Nat.not_lt] at hrange
          cases h
          have hvalue : (value digits).toUInt16.toNat = value digits :=
            Nat.mod_eq_of_lt (by omega)
          exact ⟨hdigits.1.1, hdigits.1.2, hvalue.symm, by omega⟩
      · cases hread
  · rintro ⟨hne, hdigits, hvalue, hpos⟩
    -- A port is far below the bound of the reader, so its digits are never too many for it.
    have hlt := port.toNat_lt
    have hread : readDigits? (2 ^ 64) digits = some port.toNat := by
      have hbound : port.toNat < 2 ^ 64 := by omega
      have hall : digits.all isDigit = true := List.all_eq_true.2 hdigits
      have hempty : digits.isEmpty = false := by simp [hne]
      simp [readDigits?, hempty, hall, hvalue, hbound]
    have hrange : ¬ (port.toNat = 0 ∨ 65535 < port.toNat) := by omega
    simp [readPort, hread, hrange]

theorem IsPort.notMem (h : IsPort digits port) {c : UInt8} (hc : isDigit c = false) :
    c ∉ digits := by
  intro hmem
  rw [h.digit c hmem] at hc
  cases hc

theorem isPort_ofNat (h : 0 < port.toNat) : IsPort (ofNat port.toNat) port where
  ne_nil := ofNat_ne_nil _
  digit := List.all_eq_true.1 (all_isDigit_ofNat _)
  value := value_ofNat _
  pos := h

/-! ### The host -/

theorem splitBracketed_eq_ok_iff : splitBracketed b = .ok (host, digits) ↔
    b = host ++ closeBracket :: colon :: digits ∧ closeBracket ∉ host := by
  unfold splitBracketed
  constructor
  · intro h
    split at h
    · cases h
    · cases h
    · rename_i hcut
      split at h
      · rename_i hcolon
        cases h
        rw [hcolon] at hcut
        exact Bytes.cutAt?_eq_some_iff.1 hcut
      · cases h
  · intro h
    simp [Bytes.cutAt?_eq_some_iff.2 h]

theorem splitFree_eq_ok_iff : splitFree b = .ok (host, digits) ↔
    (b = host ++ colon :: digits ∧ colon ∉ host) ∧ colon ∉ digits := by
  unfold splitFree
  constructor
  · intro h
    split at h
    · cases h
    · rename_i hcut
      split at h
      · cases h
      · rename_i hcolon
        cases h
        exact ⟨Bytes.cutAt?_eq_some_iff.1 hcut, by simpa using hcolon⟩
  · rintro ⟨h, hcolon⟩
    simp [Bytes.cutAt?_eq_some_iff.2 h, hcolon]

theorem split_openBracket : split (openBracket :: b) = splitBracketed b := rfl

theorem split_of_head? (h : b.head? ≠ some openBracket) : split b = splitFree b := by
  cases b with
  | nil => rfl
  | cons c rest =>
    have hne : c ≠ openBracket := by simpa using h
    simp [split, hne]

/-! ### The address -/

theorem bracketed_text (host digits : Bytes) :
    Bytes.ascii "paper://[" ++ host ++ Bytes.ascii "]:" ++ digits =
      Bytes.ascii "paper://" ++ openBracket :: (host ++ closeBracket :: colon :: digits) := by
  rw [List.append_assoc, List.append_assoc]
  rfl

theorem free_text (host digits : Bytes) :
    Bytes.ascii "paper://" ++ host ++ Bytes.ascii ":" ++ digits =
      Bytes.ascii "paper://" ++ (host ++ colon :: digits) := by
  rw [List.append_assoc, List.append_assoc]
  rfl

theorem head?_append (h : host ≠ []) (b : Bytes) : (host ++ b).head? = host.head? := by
  obtain ⟨c, host, rfl⟩ := List.exists_cons_of_ne_nil h
  rfl

theorem cutAtText?_separator_iff : Bytes.cutAtText? separator b = some (scheme, rest) ↔
    b = Bytes.ascii "paper://" ++ rest := by
  constructor
  · exact Bytes.eq_of_cutAtText?_eq_some
  · rintro rfl
    have hcolon : colon ∉ scheme := by decide
    exact Bytes.cutAtText?_append hcolon (Bytes.ascii "//") rest

theorem read_append (rest : Bytes) : read (Bytes.ascii "paper://" ++ rest) =
    match split rest with
    | .error fault => .error fault
    | .ok (host, digits) =>
      if host = [] then .error .missingHost
      else if digits = [] then .error .missingPort
      else (readPort digits).map fun port => { host, port } := by
  unfold read
  rw [cutAtText?_separator_iff.2 rfl]
  simp only [bind, Except.bind, pure, Except.pure, ne_eq, not_true_eq_false, if_false,
    List.isEmpty_iff]
  rcases split rest with fault | ⟨host, digits⟩
  · rfl
  · cases readPort digits <;> rfl

/-- An address that is read begins with the scheme and its separator. -/
theorem exists_append_of_read (h : read b = .ok e) :
    ∃ rest, b = Bytes.ascii "paper://" ++ rest := by
  unfold read at h
  split at h
  · cases h
  · rename_i start rest hcut
    by_cases hscheme : start = scheme
    · exact ⟨rest, cutAtText?_separator_iff.1 (hscheme ▸ hcut)⟩
    · simp [hscheme, bind, Except.bind] at h

/-- What an accepted address is made of, in terms of the searches that find it. -/
theorem read_eq_ok_iff : read b = .ok e ↔ ∃ rest digits, b = Bytes.ascii "paper://" ++ rest ∧
    split rest = .ok (e.host, digits) ∧ e.host ≠ [] ∧ IsPort digits e.port := by
  constructor
  · intro h
    obtain ⟨rest, rfl⟩ := exists_append_of_read h
    rw [read_append] at h
    split at h
    · cases h
    · rename_i host digits hsplit
      by_cases hhost : host = []
      · simp [hhost] at h
      · by_cases hdigits : digits = []
        · simp [hhost, hdigits] at h
        · rw [if_neg hhost, if_neg hdigits] at h
          cases hread : readPort digits with
          | error fault =>
            rw [hread] at h
            cases h
          | ok port =>
            rw [hread] at h
            cases h
            exact ⟨rest, digits, rfl, hsplit, hhost, readPort_eq_ok_iff.1 hread⟩
  · rintro ⟨rest, digits, rfl, hsplit, hhost, hport⟩
    simp [read_append, hsplit, hhost, hport.ne_nil, readPort_eq_ok_iff.2 hport, Except.map]

theorem names_of_read (h : read b = .ok e) : Names b e := by
  obtain ⟨host, port⟩ := e
  obtain ⟨rest, digits, rfl, hsplit, hhost, hport⟩ := read_eq_ok_iff.1 h
  -- The byte behind the scheme tells which search was made, and so which form was found.
  by_cases hbracket : rest.head? = some openBracket
  · obtain ⟨rest, rfl⟩ := List.head?_eq_some_iff.1 hbracket
    rw [split_openBracket] at hsplit
    obtain ⟨rfl, hclose⟩ := splitBracketed_eq_ok_iff.1 hsplit
    rw [← bracketed_text]
    exact .bracketed hhost hclose hport
  · rw [split_of_head? hbracket] at hsplit
    obtain ⟨⟨rfl, hcolon⟩, -⟩ := splitFree_eq_ok_iff.1 hsplit
    rw [head?_append hhost] at hbracket
    rw [← free_text]
    exact .free hhost hcolon hbracket hport

theorem read_of_names (h : Names b e) : read b = .ok e := by
  have hdigit : isDigit colon = false := by decide
  rw [read_eq_ok_iff]
  cases h with
  | bracketed hhost hclose hport =>
    refine ⟨_, _, bracketed_text _ _, ?_, hhost, hport⟩
    rw [split_openBracket]
    exact splitBracketed_eq_ok_iff.2 ⟨rfl, hclose⟩
  | free hhost hcolon hbracket hport =>
    refine ⟨_, _, free_text _ _, ?_, hhost, hport⟩
    rw [split_of_head? (by rwa [head?_append hhost])]
    -- No digit is a colon, so the port passes the search for bare ones.
    exact splitFree_eq_ok_iff.2 ⟨⟨rfl, hcolon⟩, hport.notMem hdigit⟩

theorem read_eq_ok_iff_names : read b = .ok e ↔ Names b e := ⟨names_of_read, read_of_names⟩

/-- The addresses that are read are those of the grammar, and each is read as the endpoint that
the grammar gives it. Every other text is a fault. -/
theorem read_iff_names (b : Bytes) : (∀ e, read b = .ok e ↔ Names b e) ∧
    ((¬ ∃ e, Names b e) ↔ ∃ fault, read b = .error fault) := by
  refine ⟨fun e => read_eq_ok_iff_names, ?_⟩
  simp only [← read_eq_ok_iff_names]
  cases read b <;> simp

/-- Zeros in front of a port do not change it, however many. -/
example : read (Bytes.ascii "paper://[:[]:00000000000000000000080") =
    .ok ⟨Bytes.ascii ":[", 80⟩ := rfl

/-! ### The address that is written -/

theorem Names.ne_nil (h : Names b e) : e.host ≠ [] := by
  cases h <;> assumption

theorem Names.pos (h : Names b e) : 0 < e.port.toNat := by
  cases h with
  | bracketed _ _ hport => exact hport.pos
  | free _ _ _ hport => exact hport.pos

/-- A host with a colon in it or a bracket in front was read in brackets, and ends before the first
closing one. -/
theorem Names.closeBracket_notMem (h : Names b e)
    (hbracket : colon ∈ e.host ∨ e.host.head? = some openBracket) : closeBracket ∉ e.host := by
  cases h with
  | bracketed _ hclose _ => exact hclose
  | free _ hcolon hhead _ => exact absurd hbracket (not_or.2 ⟨hcolon, hhead⟩)

theorem text_of_colon_mem (h : colon ∈ e.host) : e.text =
    Bytes.ascii "paper://[" ++ e.host ++ Bytes.ascii "]:" ++ ofNat e.port.toNat := by
  have hhost : hostText e.host = openBracket :: e.host ++ [closeBracket] := by simp [hostText, h]
  rw [bracketed_text, text, hhost]
  simp [scheme, separator, Bytes.ascii]

theorem text_of_colon_notMem (h : colon ∉ e.host) : e.text =
    Bytes.ascii "paper://" ++ e.host ++ Bytes.ascii ":" ++ ofNat e.port.toNat := by
  have hhost : hostText e.host = e.host := by simp [hostText, h]
  rw [free_text, text, hhost]
  simp [scheme, separator, Bytes.ascii]

/-- The address that is written for an endpoint is one of the grammar, unless the host loses its
bracket. -/
theorem Names.text (h : Names b e) (hbracket : ¬ LosesBracket e.host) : Names e.text e := by
  have hport := isPort_ofNat h.pos
  by_cases hcolon : colon ∈ e.host
  · rw [text_of_colon_mem hcolon]
    exact .bracketed h.ne_nil (h.closeBracket_notMem (.inl hcolon)) hport
  · have hhead : e.host.head? ≠ some openBracket := fun hhead => hbracket ⟨hhead, hcolon⟩
    rw [text_of_colon_notMem hcolon]
    exact .free h.ne_nil hcolon hhead hport

/-- A host that loses its bracket is taken for one in brackets that are not closed: neither the
rest of it nor the port has a closing one. -/
theorem Names.read_text_of_losesBracket (h : Names b e) (hbracket : LosesBracket e.host) :
    read e.text = .error .openBracketOnly := by
  have hclose := h.closeBracket_notMem (.inr hbracket.1)
  have hdigits : closeBracket ∉ ofNat e.port.toNat := (isPort_ofNat h.pos).notMem (by decide)
  obtain ⟨host, hhost⟩ := List.head?_eq_some_iff.1 hbracket.1
  have hrest : closeBracket ∉ host := fun hmem => hclose (hhost ▸ List.mem_cons_of_mem _ hmem)
  have hcolon : closeBracket ≠ colon := by decide
  -- The search goes through all that stands behind the bracket: the host, the colon, the port.
  have hnone : Bytes.cutAt? closeBracket (host ++ colon :: ofNat e.port.toNat) = none :=
    Bytes.cutAt?_eq_none_iff.2 (by simp [hrest, hcolon, hdigits])
  have hsplit : split (e.host ++ colon :: ofNat e.port.toNat) = .error .openBracketOnly := by
    rw [hhost, List.cons_append, split_openBracket]
    simp [splitBracketed, hnone]
  rw [text_of_colon_notMem hbracket.2, free_text, read_append, hsplit]

/-- The endpoint that was read from an address is read again from the address that is written for
it, if and only if its host does not lose its bracket. A host that does is refused for want of a
closing bracket. -/
theorem read_text_iff (h : read b = .ok e) :
    (read e.text = .ok e ↔ ¬ LosesBracket e.host) ∧
    (LosesBracket e.host → read e.text = .error .openBracketOnly) := by
  have hnames := names_of_read h
  refine ⟨⟨?_, fun hbracket => read_of_names (hnames.text hbracket)⟩,
    hnames.read_text_of_losesBracket⟩
  intro htext hbracket
  rw [hnames.read_text_of_losesBracket hbracket] at htext
  cases htext

/-- A host with colons is written in brackets and read again. -/
theorem read_text_iff_loopback :
    read (Bytes.ascii "paper://[::1]:3145") = .ok ⟨Bytes.ascii "::1", 3145⟩ ∧
    read (text ⟨Bytes.ascii "::1", 3145⟩) = .ok ⟨Bytes.ascii "::1", 3145⟩ := by
  have hread : read (Bytes.ascii "paper://[::1]:3145") = .ok ⟨Bytes.ascii "::1", 3145⟩ := rfl
  exact ⟨hread, (read_text_iff hread).1.2 (by decide)⟩

/-- The host that is a lone bracket and a letter is read, and is not read again. -/
theorem read_text_not_read_again :
    ¬ ∀ b e, read b = .ok e → ∃ e', read e.text = .ok e' ∧ e'.host = e.host ∧ e'.port = e.port := by
  intro h
  have hread : read (Bytes.ascii "paper://[[a]:1") = .ok ⟨Bytes.ascii "[a", 1⟩ := rfl
  obtain ⟨e', he', -⟩ := h _ _ hread
  rw [(names_of_read hread).read_text_of_losesBracket (by decide)] at he'
  cases he'

end RemoteCache.Endpoint
