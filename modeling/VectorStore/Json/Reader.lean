/-
  Documents from JSON texts.

  The reader takes standard JSON, the three words for values that are no numbers, and
  integers of any size up to the limit for integer texts.  Of several fields with one name
  the last value counts, in the place of the first.  A number with a fraction or an exponent
  is a double, any other an integer.
-/
import VectorStore.Error.Fault

namespace VectorStore.Json

/-- Why a text is no document. -/
inductive ReadError where
  | malformed
  /-- an integer has more digits than an integer's text may have -/
  | tooManyDigits (digits : Nat)
deriving DecidableEq, Repr

/-- The white space between the parts of a JSON text. -/
def isSpace (c : Char) : Bool := c == ' ' || c == '\t' || c == '\n' || c == '\r'

/-- The text without white space in front. -/
def skipSpace (cs : List Char) : List Char := cs.dropWhile isSpace

/-- The value of a hexadecimal digit. -/
def hexValue? (c : Char) : Option Nat :=
  if '0' ≤ c && c ≤ '9' then some (c.toNat - 48)
  else if 'a' ≤ c && c ≤ 'f' then some (c.toNat - 87)
  else if 'A' ≤ c && c ≤ 'F' then some (c.toNat - 55)
  else none

/-- Four hexadecimal digits in front of the text. -/
def readUnit? : List Char → Option (Nat × List Char)
  | a :: b :: c :: d :: rest => do
    let digits := [← hexValue? a, ← hexValue? b, ← hexValue? c, ← hexValue? d]
    some (digits.foldl (fun n digit => 16 * n + digit) 0, rest)
  | _ => none

/-- The character that a letter after a backslash stands for. -/
def simpleEscape? (c : Char) : Option Char :=
  if c == '\x22' || c == '\\' || c == '/' then some c
  else if c == 'n' then some '\n'
  else if c == 'r' then some '\r'
  else if c == 't' then some '\t'
  else if c == 'b' then some '\x08'
  else if c == 'f' then some '\x0c'
  else none

/-- A character given by one escaped unit or a pair of them; half a pair is the
    replacement character. -/
def readEscapedUnits? (cs : List Char) : Option (Char × List Char) := do
  let (high, rest) ← readUnit? cs
  if 0xD800 ≤ high && high < 0xDC00 then
    match rest with
    | '\\' :: 'u' :: more =>
      match readUnit? more with
      | some (low, after) =>
        if 0xDC00 ≤ low && low < 0xE000 then
          some (Char.ofNat (0x10000 + (high - 0xD800) * 0x400 + (low - 0xDC00)), after)
        else some ('\ufffd', rest)
      | none => some ('\ufffd', rest)
    | _ => some ('\ufffd', rest)
  else if 0xDC00 ≤ high && high < 0xE000 then some ('\ufffd', rest)
  else some (Char.ofNat high, rest)

/-- The characters of a string up to its closing quote, after `fuel` of them at most. -/
def readChars? : Nat → List Char → Option (List Char × List Char)
  | 0, _ => none
  | _, [] => none
  | fuel + 1, c :: cs =>
    if c == '\x22' then some ([], cs)
    else if c == '\\' then
      match cs with
      | 'u' :: rest => do
        let (d, rest) ← readEscapedUnits? rest
        let (ds, rest) ← readChars? fuel rest
        some (d :: ds, rest)
      | e :: rest => do
        let d ← simpleEscape? e
        let (ds, rest) ← readChars? fuel rest
        some (d :: ds, rest)
      | [] => none
    else if c.toNat < 32 then none
    else do
      let (ds, rest) ← readChars? fuel cs
      some (c :: ds, rest)

/-- A string after its opening quote. -/
def readString (cs : List Char) : Except ReadError (String × List Char) :=
  match readChars? (cs.length + 1) cs with
  | some (ds, rest) => .ok (String.ofList ds, rest)
  | none => .error .malformed

/-- The digits of a fraction, if a point with a digit stands in front. -/
def takeFraction : List Char → Option (List Char) × List Char
  | '.' :: cs =>
    let ds := cs.takeWhile Number.isDecimal
    if ds.isEmpty then (none, '.' :: cs) else (some ds, cs.dropWhile Number.isDecimal)
  | cs => (none, cs)

/-- An exponent, if a mark with digits stands in front. -/
def takeExponent : List Char → Option Int × List Char
  | [] => (none, [])
  | c :: cs =>
    if c == 'e' || c == 'E' then
      let (negative, body) := Number.takeSign cs
      let ds := body.takeWhile Number.isDecimal
      if ds.isEmpty then (none, c :: cs)
      else
        let n : Int := Number.ofDigits ds
        (some (if negative then -n else n), body.dropWhile Number.isDecimal)
    else (none, c :: cs)

/-- The digits before the point: a zero alone or digits that do not start with one. -/
def takeWhole : List Char → Option (List Char × List Char)
  | [] => none
  | c :: cs =>
    if c == '0' then some (['0'], cs)
    else if Number.isDecimal c then
      some (c :: cs.takeWhile Number.isDecimal, cs.dropWhile Number.isDecimal)
    else none

/-- A number without its sign. -/
def readUnsigned (negative : Bool) (cs : List Char) : Except ReadError (Value × List Char) :=
  match takeWhole cs with
  | none => .error .malformed
  | some (whole, rest) =>
    let (fraction, rest) := takeFraction rest
    let (exponent, rest) := takeExponent rest
    match fraction, exponent with
    | none, none =>
      if Number.maxIntDigits < whole.length then .error (.tooManyDigits whole.length)
      else
        let n : Int := Number.ofDigits whole
        .ok (.int (if negative then -n else n), rest)
    | _, _ =>
      let parts : Number.DecimalParts := ⟨whole, fraction.getD [], exponent.getD 0⟩
      .ok (.float (parts.toFloat negative), rest)

/-- A word in front of the text: what follows it. -/
def afterWord? (word : String) (cs : List Char) : Option (List Char) :=
  if word.toList.isPrefixOf cs then some (cs.drop word.length) else none

/-- A word that stands for a value. -/
def readWord (cs : List Char) : Except ReadError (Value × List Char) :=
  let words : List (String × Value) := [
    ("null", .null), ("true", .bool true), ("false", .bool false),
    ("NaN", .float Number.notANumber), ("Infinity", .float Number.infinity),
    ("-Infinity", .float (-Number.infinity))]
  match words.findSome? fun w => (afterWord? w.1 cs).map fun rest => (w.2, rest) with
  | some found => .ok found
  | none => .error .malformed

mutual

/-- A value in front of the text, white space in front of it skipped. -/
def readValue : Nat → List Char → Except ReadError (Value × List Char)
  | 0, _ => .error .malformed
  | fuel + 1, cs =>
    match skipSpace cs with
    | [] => .error .malformed
    | '\x22' :: rest => do
      let (s, rest) ← readString rest
      .ok (.text s, rest)
    | '[' :: rest =>
      match skipSpace rest with
      | ']' :: rest => .ok (.list [], rest)
      | rest => do
        let (items, rest) ← readItems fuel rest
        .ok (.list items, rest)
    | '\x7b' :: rest =>
      match skipSpace rest with
      | '\x7d' :: rest => .ok (.object [], rest)
      | rest => do
        let (fields, rest) ← readFields fuel rest
        .ok (.object (Fields.putAll [] fields), rest)
    | '-' :: 'I' :: rest => readWord ('-' :: 'I' :: rest)
    | '-' :: rest => readUnsigned true rest
    | c :: rest =>
      if Number.isDecimal c then readUnsigned false (c :: rest) else readWord (c :: rest)

/-- The items of a list up to its closing bracket. -/
def readItems : Nat → List Char → Except ReadError (List Value × List Char)
  | 0, _ => .error .malformed
  | fuel + 1, cs => do
    let (v, rest) ← readValue fuel cs
    match skipSpace rest with
    | ']' :: rest => .ok ([v], rest)
    | ',' :: rest => do
      let (items, rest) ← readItems fuel rest
      .ok (v :: items, rest)
    | _ => .error .malformed

/-- The fields of an object up to its closing bracket. -/
def readFields : Nat → List Char → Except ReadError (List (String × Value) × List Char)
  | 0, _ => .error .malformed
  | fuel + 1, cs =>
    match skipSpace cs with
    | '\x22' :: rest => do
      let (name, rest) ← readString rest
      match skipSpace rest with
      | ':' :: rest => do
        let (v, rest) ← readValue fuel rest
        match skipSpace rest with
        | '\x7d' :: rest => .ok ([(name, v)], rest)
        | ',' :: rest => do
          let (fields, rest) ← readFields fuel rest
          .ok ((name, v) :: fields, rest)
        | _ => .error .malformed
      | _ => .error .malformed
    | _ => .error .malformed

end

/-- The document of a JSON text. -/
def read (s : String) : Except ReadError Value := do
  let cs := s.toList
  let (v, rest) ← readValue (2 * cs.length + 2) cs
  if (skipSpace rest).isEmpty then .ok v else .error .malformed

/-- The fault of a text that is no document. -/
def ReadError.fault : ReadError → Fault
  | malformed => .badJson
  | tooManyDigits n => .intTextTooLong n

/-- The document of a JSON text, or the fault of reading it. -/
def decode (s : String) : Except Fault Value := (read s).mapError ReadError.fault

end VectorStore.Json
