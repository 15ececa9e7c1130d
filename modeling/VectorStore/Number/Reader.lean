/-
  Numbers from text.

  A numeral may stand between blanks, have single underscores between digits, and use the
  decimal digits of any script.  `readInt` takes a signed integer, `readFloat?` a decimal
  with optional fraction and exponent, or the words `inf`, `infinity` and `nan` in any
  letter case.  `decimalToFloat` is the double nearest to `c · 10^e`, infinite beyond range.
-/
import VectorStore.Number.Binary
import VectorStore.Text.Blank
import VectorStore.Text.Digit

namespace VectorStore.Number

open Text

/-- An ASCII digit. -/
def isDecimal (c : Char) : Bool := '0' ≤ c && c ≤ '9'

/-- The natural number that ASCII digits denote. -/
def ofDigits (ds : List Char) : Nat := ds.foldl (fun n d => 10 * n + (d.toNat - 48)) 0

/-- Digits of every script as ASCII digits, and white space beyond ASCII as spaces; ASCII
    characters stay as they are. -/
def asciiNumeral (cs : List Char) : List Char :=
  cs.map fun c =>
    if c.toNat < 128 then c
    else if isBlank c then ' '
    else match decimalValue? c with
      | some n => asciiDigit n
      | none => c

/-- The text without its underscores, if each stands between two digits. -/
def dropUnderscores : Char → List Char → Option (List Char)
  | last, [] => if last == '_' then none else some []
  | last, c :: cs =>
    if c == '_' then
      if isDecimal last then dropUnderscores c cs else none
    else if last == '_' && !isDecimal c then none
    else (dropUnderscores c cs).map (c :: ·)

/-- A numeral in ASCII without blanks around it and underscores in it. -/
def plainNumeral? (s : String) : Option (List Char) :=
  dropUnderscores ' ' (trim isAsciiBlank (asciiNumeral s.toList))

/-- A sign, if there is one, and the rest: `true` for minus. -/
def takeSign : List Char → Bool × List Char
  | '-' :: cs => (true, cs)
  | '+' :: cs => (false, cs)
  | cs => (false, cs)

/-- The most digits that an integer's text may have. -/
def maxIntDigits : Nat := 4300

/-- How many digits a text begins with, underscores among them not counted; none if an
    underscore among them does not stand between two digits.  `due` is whether a digit has to
    come next. -/
def digitsAhead? (due : Bool) : List Char → Option Nat
  | [] => if due then none else some 0
  | c :: cs =>
    if isDecimal c then (digitsAhead? false cs).map (· + 1)
    else if due then none
    else if c == '_' then digitsAhead? true cs
    else some 0

/-- Why a text denotes no integer. -/
inductive IntRefusal where
  | malformed
  /-- it begins with more digits than an integer's text may have -/
  | tooManyDigits (digits : Nat)

/-- The integer that the text denotes.  Too many digits are refused whatever follows them. -/
def readInt (s : String) : Except IntRefusal Int :=
  let cs := trim isAsciiBlank (asciiNumeral s.toList)
  match digitsAhead? true (takeSign cs).2 with
  | none => .error .malformed
  | some n =>
    if maxIntDigits < n then .error (.tooManyDigits n)
    else match (dropUnderscores ' ' cs).map takeSign with
    | none => .error .malformed
    | some (negative, ds) =>
      if !ds.all isDecimal then .error .malformed
      else .ok (if negative then -(ofDigits ds : Int) else ofDigits ds)

/-- The integer that the text denotes, if it denotes one. -/
def readInt? (s : String) : Option Int := (readInt s).toOption

/-- The double nearest to `c · 10^e`. -/
def decimalToFloat (negative : Bool) (c : Nat) (e : Int) : Float :=
  let size : Int := (c.log2 : Int) * 30103 / 100000 + e
  if c = 0 then (if negative then -0.0 else 0.0)
  else if 320 < size then signedInfinity negative
  else if size < -350 then (if negative then -0.0 else 0.0)
  else
    let value := if 0 ≤ e then nearest? negative (c * Nat.pow 10 e.toNat) 1
      else nearest? negative c (Nat.pow 10 (-e).toNat)
    value.getD (signedInfinity negative)

/-- The parts of a decimal: digits before and after the point and the exponent. -/
structure DecimalParts where
  whole : List Char
  fraction : List Char
  exponent : Int

/-- An exponent mark and a signed integer, or nothing at all. -/
def readExponent? : List Char → Option Int
  | [] => some 0
  | c :: cs =>
    if c == 'e' || c == 'E' then
      let (negative, ds) := takeSign cs
      if ds.isEmpty || !ds.all isDecimal then none
      else some (if negative then -(ofDigits ds : Int) else ofDigits ds)
    else none

/-- Digits with at most one point among them, then an exponent. -/
def readDecimal? (cs : List Char) : Option DecimalParts :=
  let whole := cs.takeWhile isDecimal
  let (fraction, rest) := match cs.dropWhile isDecimal with
    | '.' :: more => (more.takeWhile isDecimal, more.dropWhile isDecimal)
    | rest => ([], rest)
  if whole.isEmpty && fraction.isEmpty then none
  else (readExponent? rest).map fun e => ⟨whole, fraction, e⟩

/-- The double that the parts denote. -/
def DecimalParts.toFloat (p : DecimalParts) (negative : Bool) : Float :=
  decimalToFloat negative (ofDigits (p.whole ++ p.fraction)) (p.exponent - p.fraction.length)

/-- The double that a text without blanks and underscores denotes. -/
def readFloatChars? (cs : List Char) : Option Float :=
  let (negative, body) := takeSign cs
  let word := body.map Char.toLower
  if word == ['i', 'n', 'f'] || word == ['i', 'n', 'f', 'i', 'n', 'i', 't', 'y'] then
    some (signedInfinity negative)
  else if word == ['n', 'a', 'n'] then some notANumber
  else (readDecimal? body).map (·.toFloat negative)

/-- The double that the text denotes. -/
def readFloat? (s : String) : Option Float := (plainNumeral? s).bind readFloatChars?

end VectorStore.Number
