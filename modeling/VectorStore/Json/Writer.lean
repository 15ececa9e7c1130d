/-
  JSON texts of documents.

  `Style` holds the choices a JSON text leaves open: what stands between items and after
  names, whether characters beyond printable ASCII are escaped, and whether fields are sorted by
  name.  `spaced` is the style of stored and bound texts, `compact` that of metric lines,
  `sorted` that of listings.

  `write` is the text of any document; `encode` makes it only where each integer has one.
-/
import VectorStore.Error.Fault

namespace VectorStore.Json

/-- The choices that a JSON text leaves open. -/
structure Style where
  between : List Char
  afterName : List Char
  asciiOnly : Bool
  sortNames : Bool

/-- Spaces after commas and colons, ASCII only, fields in their order. -/
def spaced : Style := ⟨[',', ' '], [':', ' '], true, false⟩

/-- No spaces, characters as they are, fields in their order. -/
def compact : Style := ⟨[','], [':'], false, false⟩

/-- Spaces after commas and colons, characters as they are, fields sorted by name. -/
def sorted : Style := ⟨[',', ' '], [':', ' '], false, true⟩

/-- A UTF-16 unit as an escape. -/
def unitEscape (n : Nat) : List Char := '\\' :: 'u' :: Text.hex 4 n

/-- A character beyond the controls as escapes of its UTF-16 units. -/
def escaped (c : Char) : List Char :=
  let n := c.toNat
  if n < 0x10000 then unitEscape n
  else unitEscape (0xD800 + (n - 0x10000) / 0x400) ++ unitEscape (0xDC00 + (n - 0x10000) % 0x400)

/-- One character of a string. -/
def writeChar (asciiOnly : Bool) (c : Char) : List Char :=
  if c == '\x22' then ['\\', '\x22']
  else if c == '\\' then ['\\', '\\']
  else if c == '\n' then ['\\', 'n']
  else if c == '\r' then ['\\', 'r']
  else if c == '\t' then ['\\', 't']
  else if c == '\x0c' then ['\\', 'f']
  else if c == '\x08' then ['\\', 'b']
  else if c.toNat < 32 then unitEscape c.toNat
  else if asciiOnly && 127 ≤ c.toNat then escaped c
  else [c]

/-- A string between its quotes. -/
def writeString (asciiOnly : Bool) (s : String) : List Char :=
  '\x22' :: (s.toList.flatMap (writeChar asciiOnly) ++ ['\x22'])

mutual

/-- The JSON text of a document, fields in their order. -/
def writeValue (style : Style) : Value → List Char
  | .null => ['n', 'u', 'l', 'l']
  | .bool b => if b then ['t', 'r', 'u', 'e'] else ['f', 'a', 'l', 's', 'e']
  | .int n => Number.intDigits n
  | .float x => Number.json.writeChars x
  | .text s => writeString style.asciiOnly s
  | .list items => '[' :: (writeItems style items ++ [']'])
  | .object fields => '\x7b' :: (writeFields style fields ++ ['\x7d'])

/-- The items of a list, separated. -/
def writeItems (style : Style) : List Value → List Char
  | [] => []
  | [v] => writeValue style v
  | v :: items => writeValue style v ++ (style.between ++ writeItems style items)

/-- The fields of an object, separated. -/
def writeFields (style : Style) : List (String × Value) → List Char
  | [] => []
  | [(name, v)] => writeString style.asciiOnly name ++ (style.afterName ++ writeValue style v)
  | (name, v) :: fields =>
    writeString style.asciiOnly name ++
      (style.afterName ++ (writeValue style v ++ (style.between ++ writeFields style fields)))

end

/-- Fields in ascending order of their names. -/
def sortByName (fields : List (String × Value)) : List (String × Value) :=
  fields.mergeSort fun a b => decide (a.1 ≤ b.1)

mutual

/-- The document with the fields of every object in ascending order of their names. -/
def sortNames : Value → Value
  | .list items => .list (sortNamesItems items)
  | .object fields => .object (sortByName (sortNamesFields fields))
  | v => v

/-- The items with sorted names. -/
def sortNamesItems : List Value → List Value
  | [] => []
  | v :: items => sortNames v :: sortNamesItems items

/-- The fields with sorted names in their values. -/
def sortNamesFields : List (String × Value) → List (String × Value)
  | [] => []
  | (name, v) :: fields => (name, sortNames v) :: sortNamesFields fields

end

/-- The JSON text of a document. -/
def write (style : Style) (v : Value) : String :=
  String.ofList (writeValue style (if style.sortNames then sortNames v else v))

/-- The JSON text of a document, if there is one. -/
def encode (style : Style) (v : Value) : Except Fault String :=
  if v.isWritable then .ok (write style v) else .error .intTooLong

end VectorStore.Json
