import RemoteCache.Binary64.Reading

/-!
# The shortest positional text of a floating-point number

An integral number is written exactly. Any other number is written with the fewest decimals that
read back, and of the decimals of that length with the nearest one, a tie going to the even last
digit. There is never an exponent.

## Main definitions

* `Binary64.readsBack` — whether a decimal is read as a given number
* `Binary64.candidates` — the decimals with so many places that come into question
* `Binary64.shortestPoint?` — the fewest decimals that read back
* `Binary64.shortest` — the text of a number

## Main results

* `Binary64.readsBack_of_shortestPoint?` — the decimal that is found reads back
-/

namespace RemoteCache.Binary64

/-- Whether `point / 10 ^ places` is read as a number, up to the sign in front of it. -/
def readsBack (x : Binary64) (point places : Nat) : Bool :=
  Decimal.nearest? x.signBit ⟨point, -(places : Int)⟩ == some x

/-- The decimals with so many places that come into question for the number
`significand / unit`: the nearest one, and its neighbour on the number's other side. -/
def candidates (x : Binary64) (unit places : Nat) : List Nat :=
  let scaled := x.significand * 10 ^ places
  let near := roundQuotient scaled unit
  let far := if near * unit ≤ scaled then near + 1 else near - 1
  [near, far]

/-- The first decimal that reads back, with at least one and at most `limit` places. -/
def shortestPoint? (x : Binary64) (unit limit : Nat) : Option (Nat × Nat) :=
  (List.range limit).findSome? fun k =>
    ((x.candidates unit (k + 1)).find? fun point => x.readsBack point (k + 1)).map fun point =>
      (point, k + 1)

/-- The decimal `point / 10 ^ places` in positional notation. -/
def positional (point places : Nat) : Bytes :=
  let digits := Numeral.padLeft (places + 1) (Numeral.ofNat point)
  let whole := digits.take (digits.length - places)
  if places = 0 then whole else whole ++ 46 :: digits.drop (digits.length - places)

/-- The text of a finite number, without its sign. -/
def shortestMagnitude (x : Binary64) : Bytes :=
  let m := x.significand
  if 0 ≤ x.exponent then Numeral.ofNat (m * 2 ^ x.exponent.toNat)
  else
    let depth := (-x.exponent).toNat
    let unit := 2 ^ depth
    if m % unit = 0 then Numeral.ofNat (m / unit)
    else
      match x.shortestPoint? unit depth with
      | some (point, places) => positional point places
      -- A number over `2 ^ depth` has `depth` decimals, so the last resort is exact.
      | none => positional (m * 5 ^ depth) depth

/-- The text of a number, with a minus if the sign bit is set. -/
def shortest (x : Binary64) : Bytes :=
  let magnitude :=
    if x.isNaN then Bytes.ascii "nan"
    else if x.isInfinite then Bytes.ascii "inf"
    else x.shortestMagnitude
  if x.signBit then 45 :: magnitude else magnitude

theorem readsBack_of_shortestPoint? {x : Binary64} {unit limit point places : Nat}
    (h : x.shortestPoint? unit limit = some (point, places)) :
    x.readsBack point places = true := by
  obtain ⟨k, -, hk⟩ := List.exists_of_findSome?_eq_some h
  obtain ⟨found, hfound, heq⟩ := Option.map_eq_some_iff.1 hk
  cases heq
  simpa using List.find?_some hfound

end RemoteCache.Binary64
