/-
  Texts for a console: boxed titles, aligned pairs, and one line per match.
-/
import VectorStore.Json.Writer
import VectorStore.Value.Coercion
import VectorStore.Text.Blank

namespace VectorStore.Console

/-- The width of a console: at least 40 columns count and at most 200. -/
def width (columns : Int) : Nat := (max 40 (min columns 200)).toNat

/-- A text over and over again. -/
def repeated (n : Nat) (s : String) : String := String.ofList (List.replicate n s.toList).flatten

/-- Blanks, none for a negative number. -/
def blanks (n : Int) : String := repeated n.toNat " "

/-- The text at the right of a column. -/
def atRight (columns : Nat) (s : String) : String := blanks (columns - s.length : Int) ++ s

/-- The text at the left of a column. -/
def atLeft (columns : Nat) (s : String) : String := s ++ blanks (columns - s.length : Int)

/-- A title in a box, with an empty line before and after; the upper and lower side are as
    long as the title or as the console allows. -/
def box (columns : Int) (fill title : String) : String :=
  let title := " " ++ Text.trimmed title ++ " "
  let side := repeated (min title.length (width columns - 4)) fill
  s!"\n┌{side}┐\n│{title}│\n└{side}┘\n\n"

/-- How the sides of a box are drawn. -/
def boxFill : String := "─"

/-- Pairs, one on a line, names at the right of their column. -/
def pairs (indent : Int) (items : List (String × Value)) : Except Fault String := do
  let columns := (items.map fun p => p.1.length).foldl max 0
  let lines ← items.mapM fun p => do
    return blanks indent ++ atRight columns p.1 ++ ": " ++ (← p.2.toText) ++ "\n"
  return String.join lines

/-- The pairs of an object or of a list of pairs. -/
def pairsOf (v : Value) : Except Fault (List (String × Value)) :=
  match v with
  | .object fields => .ok fields
  | v => do
    (← v.toItems).zipIdx.mapM fun (item, i) => do
      match ← item.toItems with
      | [name, value] => return (← name.toText, value)
      | parts => .error (.notPair i parts.length)

/-- How far lines are indented when nothing is said. -/
def defaultIndent : Int := 2

/-- A match on a line: its id, its score with four places, and its metadata in the order of
    their names. -/
def hit (indent : Int) (id : String) (score : Float) (metadata : Value) :
    Except Fault String := do
  let listing ← Json.encode Json.sorted (metadata.orElse (.object []))
  return blanks indent ++ "id=" ++ atLeft 10 id ++ " score=" ++ Number.fixed 4 score ++
    " meta=" ++ listing ++ "\n"

end VectorStore.Console
