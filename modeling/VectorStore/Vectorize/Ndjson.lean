/-
  Records as lines of JSON.

  Each record is one object with its id, its values and its metadata; a line feed ends each
  line.  Line feeds inside texts are escaped, so lines and records correspond.
-/
import VectorStore.Json.Writer

namespace VectorStore.Vectorize

/-- A record on its way to the service. -/
structure Line where
  id : Value
  values : List Value
  metadata : Value

/-- The object of a line. -/
def Line.toValue (l : Line) : Value :=
  .object [("id", l.id), ("values", .list l.values), ("metadata", l.metadata)]

/-- The text of a line. -/
def Line.text (l : Line) : Except Fault String := Json.encode Json.spaced l.toValue

/-- Texts of lines, each ended by a line feed. -/
def joinLines : List String → String
  | [] => "\n"
  | texts => String.ofList (texts.flatMap fun s => s.toList ++ ['\n'])

/-- The lines of a body. -/
def ndjson (lines : List Line) : Except Fault String := do
  return joinLines (← lines.mapM Line.text)

end VectorStore.Vectorize
