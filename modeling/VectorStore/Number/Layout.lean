/-
  How numbers are written.

  * `Layout` holds the decisions of a notation for doubles, `Layout.write` carries them
    out on the shortest digits; `diagnostic` and `json` differ in the words for the values
    that are no numbers;
  * `fixed` writes a given number of places, `roundTo` is the double nearest to that.
-/
import VectorStore.Number.Shortest

namespace VectorStore.Number

/-- The decimal digits of a natural number. -/
def natDigits (n : Nat) : List Char := Nat.toDigits 10 n

/-- An integer in decimal. -/
def intDigits (n : Int) : List Char :=
  if n < 0 then '-' :: natDigits n.natAbs else natDigits n.natAbs

/-- An integer in decimal. -/
def intText (n : Int) : String := String.ofList (intDigits n)

/-- A natural number in decimal. -/
def natText (n : Nat) : String := String.ofList (natDigits n)

/-- The decisions of a notation for doubles. -/
structure Layout where
  /-- the least exponent written positionally -/
  firstPositional : Int
  /-- the least exponent above those written positionally -/
  endPositional : Int
  /-- the least number of digits of an exponent -/
  exponentDigits : Nat
  nan : String
  infinity : String

/-- Positional from `0.0001` to below `10^16`, with at least one place; exponents have a
    sign and two digits. -/
def diagnostic : Layout := ⟨-4, 16, 2, "nan", "inf"⟩

/-- The same notation with the words of JSON texts. -/
def json : Layout := { diagnostic with nan := "NaN", infinity := "Infinity" }

/-- `n` in decimal, with zeros in front up to the given width. -/
def padded (width n : Nat) : List Char :=
  let ds := natDigits n
  List.replicate (width - ds.length) '0' ++ ds

/-- An exponent with its sign. -/
def Layout.exponent (l : Layout) (e : Int) : List Char :=
  'e' :: (if e < 0 then '-' else '+') :: padded l.exponentDigits e.natAbs

/-- The digits of a positive number `0.d₁d₂… · 10^point`. -/
def Layout.place (l : Layout) (ds : List Char) (point : Int) : List Char :=
  let e := point - 1
  if e < l.firstPositional ∨ l.endPositional ≤ e then
    match ds with
    | [d] => d :: l.exponent e
    | d :: more => d :: '.' :: (more ++ l.exponent e)
    | [] => l.exponent e
  else if point ≤ 0 then
    '0' :: '.' :: (List.replicate (-point).toNat '0' ++ ds)
  else if ds.length ≤ point.toNat then
    ds ++ (List.replicate (point.toNat - ds.length) '0' ++ ['.', '0'])
  else
    ds.take point.toNat ++ '.' :: ds.drop point.toNat

/-- A double by its shortest digits. -/
def Layout.writeChars (l : Layout) (x : Float) : List Char :=
  match Binary.ofFloat x with
  | .nan => l.nan.toList
  | .infinite negative => if negative then '-' :: l.infinity.toList else l.infinity.toList
  | .finite negative m e =>
    let body :=
      if m = 0 then ['0', '.', '0']
      else
        let d := shortest m e
        let ds := natDigits d.digits
        l.place ds (ds.length + d.exponent)
    if negative then '-' :: body else body

/-- A double by its shortest digits. -/
def Layout.write (l : Layout) (x : Float) : String := String.ofList (l.writeChars x)

/-- The integer nearest to `m · 2^e · 10^places`. -/
def inPlaces (places : Nat) (m : Nat) (e : Int) : Nat :=
  if 0 ≤ e then m * Nat.pow 2 e.toNat * Nat.pow 10 places
  else roundDiv (m * Nat.pow 10 places) (Nat.pow 2 (-e).toNat)

/-- A double with the given number of places after the point. -/
def fixed (places : Nat) (x : Float) : String :=
  match Binary.ofFloat x with
  | .nan => "nan"
  | .infinite negative => if negative then "-inf" else "inf"
  | .finite negative m e =>
    let ds := padded (places + 1) (inPlaces places m e)
    let cut := ds.length - places
    let body := ds.take cut ++ (if places = 0 then [] else '.' :: ds.drop cut)
    String.ofList (if negative then '-' :: body else body)

/-- The double nearest to `x` rounded to the given number of places. -/
def roundTo (places : Nat) (x : Float) : Float :=
  match Binary.ofFloat x with
  | .finite negative m e => (nearest? negative (inPlaces places m e) (Nat.pow 10 places)).getD x
  | _ => x

end VectorStore.Number
