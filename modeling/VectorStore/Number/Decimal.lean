/-
  Exact decimals, as a database takes them for `numeric` parameters.

  `Decimal.read?` accepts a signed decimal with exponent, an infinity, or a value that is
  no number, with its diagnostic digits; underscores are ignored wherever they stand, and
  digits of every script are read.  `Decimal.text` keeps the places that were given:
  positional notation while the exponent is not above zero and the value not below
  `10^(-6)`, scientific notation with a capital `E` otherwise.
-/
import VectorStore.Number.Layout
import VectorStore.Number.Reader

namespace VectorStore.Number

open Text

/-- A decimal with the places it was written with. -/
inductive Decimal where
  /-- `± coefficient · 10^exponent` -/
  | finite (negative : Bool) (coefficient : Nat) (exponent : Int)
  | infinite (negative : Bool)
  /-- no number; `digits` is its diagnostic -/
  | nan (negative signaling : Bool) (digits : List Char)
deriving DecidableEq, Repr

/-- The greatest exponent of a leading digit. -/
def Decimal.maxExponent : Int := 999999999999999999

/-- The least exponent of a last digit. -/
def Decimal.minExponent : Int := -1999999999999999997

/-- A text in ASCII without underscores and outer blanks, if all its characters have such a
    form. -/
def Decimal.plain? (s : String) : Option (List Char) :=
  ((trim isBlank s.toList).filter (· != '_')).mapM fun c =>
    if c.toNat < 128 then some c
    else if isBlank c then some ' '
    else (decimalValue? c).map asciiDigit

/-- The word `word` at the start of `cs` in any letter case: what follows it. -/
def afterWord (word : List Char) (cs : List Char) : Option (List Char) :=
  if (cs.take word.length).map Char.toLower == word then some (cs.drop word.length) else none

/-- A value that is no number: the word, then diagnostic digits. -/
def Decimal.readNan? (negative signaling : Bool) (cs : List Char) : Option Decimal := do
  let digits ← afterWord ['n', 'a', 'n'] cs
  if digits.all isDecimal then some (.nan negative signaling (digits.dropWhile (· == '0')))
  else none

/-- A finite decimal whose digits are all within range. -/
def Decimal.readFinite? (negative : Bool) (cs : List Char) : Option Decimal := do
  let p ← readDecimal? cs
  let coefficient := ofDigits (p.whole ++ p.fraction)
  let exponent := p.exponent - p.fraction.length
  let leading := exponent + (natDigits coefficient).length - 1
  if leading ≤ maxExponent ∧ minExponent ≤ exponent then
    some (.finite negative coefficient exponent)
  else none

/-- The decimal that a text denotes. -/
def Decimal.read? (s : String) : Option Decimal := do
  let (negative, cs) := takeSign (← plain? s)
  let word := cs.map Char.toLower
  if word == ['i', 'n', 'f'] || word == ['i', 'n', 'f', 'i', 'n', 'i', 't', 'y'] then
    some (.infinite negative)
  else match cs with
    | 's' :: rest | 'S' :: rest => readNan? negative true rest
    | 'n' :: _ | 'N' :: _ => readNan? negative false cs
    | _ => readFinite? negative cs

/-- Digits with the point after the first `point` of them. -/
def withPoint (ds : List Char) (point : Int) : List Char :=
  if point ≤ 0 then '0' :: '.' :: (List.replicate (-point).toNat '0' ++ ds)
  else if ds.length ≤ point.toNat then ds ++ List.replicate (point.toNat - ds.length) '0'
  else ds.take point.toNat ++ '.' :: ds.drop point.toNat

/-- A decimal with the places it was written with. -/
def Decimal.text (d : Decimal) : String :=
  let sign (negative : Bool) : List Char := if negative then ['-'] else []
  match d with
  | .infinite negative => String.ofList (sign negative ++ "Infinity".toList)
  | .nan negative signaling digits =>
    String.ofList (sign negative ++ (if signaling then "sNaN" else "NaN").toList ++ digits)
  | .finite negative coefficient exponent =>
    let ds := natDigits coefficient
    let point : Int := exponent + ds.length
    let body :=
      if exponent ≤ 0 ∧ -6 < point then withPoint ds point
      else
        let e := point - 1
        let mark := if e = 0 then []
          else 'E' :: (if e < 0 then '-' else '+') :: natDigits e.natAbs
        withPoint ds 1 ++ mark
    String.ofList (sign negative ++ body)

end VectorStore.Number
