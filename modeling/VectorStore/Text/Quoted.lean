/-
  Quoted text, as it stands in diagnostics.

  A text is put between single quotes, or between double quotes if it holds single
  quotes and no double ones.  Printable characters stand for themselves; the quote in
  use and the backslash are preceded by a backslash; line feed, return and tab have the
  usual letters; anything else is its code point in hexadecimal, two, four or eight
  digits wide.
-/
import VectorStore.Text.Printable

namespace VectorStore.Text

/-- The last `width` hexadecimal digits of `n`. -/
def hex : Nat → Nat → List Char
  | 0, _ => []
  | width + 1, n => hex width (n / 16) ++ [Nat.digitChar (n % 16)]

theorem length_hex (width n : Nat) : (hex width n).length = width := by
  induction width generalizing n with
  | zero => rfl
  | succ width ih => simp [hex, ih]

/-- The code point of an unprintable character, in the least of three widths. -/
def escapedCode (n : Nat) : List Char :=
  if n < 256 then '\\' :: 'x' :: hex 2 n
  else if n < 65536 then '\\' :: 'u' :: hex 4 n
  else '\\' :: 'U' :: hex 8 n

/-- One character inside a pair of `quote`s. -/
def quotedChar (quote : Char) (c : Char) : List Char :=
  if c == quote || c == '\\' then ['\\', c]
  else if c == '\n' then ['\\', 'n']
  else if c == '\r' then ['\\', 'r']
  else if c == '\t' then ['\\', 't']
  else if isPrintable c then [c]
  else escapedCode c.toNat

/-- The quote that a text is put between. -/
def quoteFor (cs : List Char) : Char :=
  if cs.contains '\x27' && !cs.contains '\x22' then '\x22' else '\x27'

/-- The text between quotes. -/
def quotedChars (cs : List Char) : List Char :=
  let quote := quoteFor cs
  quote :: (cs.flatMap (quotedChar quote) ++ [quote])

/-- The string between quotes. -/
def quoted (s : String) : String := String.ofList (quotedChars s.toList)

/-- One byte inside a pair of `quote`s: bytes beyond ASCII are escaped. -/
def quotedByte (quote : Char) (b : UInt8) : List Char :=
  if b.toNat < 128 then
    let c := Char.ofNat b.toNat
    if c == quote || c == '\\' then ['\\', c]
    else if c == '\n' then ['\\', 'n']
    else if c == '\r' then ['\\', 'r']
    else if c == '\t' then ['\\', 't']
    else if 32 ≤ b.toNat && b.toNat < 127 then [c]
    else escapedCode b.toNat
  else escapedCode b.toNat

/-- The UTF-8 bytes of a string between quotes, marked with a `b`. -/
def quotedBytes (s : String) : String :=
  let quote := quoteFor s.toList
  String.ofList ('b' :: quote :: (s.toUTF8.toList.flatMap (quotedByte quote) ++ [quote]))

end VectorStore.Text
