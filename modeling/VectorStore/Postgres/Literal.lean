/-
  Texts of vectors.

  A vector travels as its components between brackets, separated by commas (`literal`), and
  comes back in the same form or as a list (`parse`).
-/
import VectorStore.Value.Coercion
import VectorStore.Text.Search

namespace VectorStore.Postgres

/-- A vector as text. -/
def literalChars (vector : List Float) : List Char :=
  '[' :: (Text.join ',' (vector.map Number.diagnostic.writeChars) ++ [']'])

/-- A vector as text. -/
def literal (vector : List Float) : String := String.ofList (literalChars vector)

/-- The parts of a vector's text between its commas: brackets at either end and blank parts
    do not count. -/
def components (cs : List Char) : List (List Char) :=
  (Text.split ',' (Text.trim (fun c => c == '[' || c == ']') cs)).filter (!·.all Text.isBlank)

/-- The vector that a text or a list gives. -/
def parse : Value → Except Fault (Option (List Float))
  | .null => .ok none
  | .list items => do return some (← Value.toFloats items)
  | v => do
    let parts := (components (← v.toText).toList).map fun cs => Value.text (String.ofList cs)
    return some (← Value.toFloats parts)

end VectorStore.Postgres
