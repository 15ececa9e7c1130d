/-
  The command line: takes a guided tour on the console.

  The first argument names the tour; the width of the console comes from the environment.
-/
import VectorStore.Console.Tour

open VectorStore

/-- The columns of a console that does not say how wide it is. -/
def usualColumns : Int := 80

/-- What is printed when no tour is named. -/
def usage : String :=
  "usage: tour NAME, where NAME is one of: " ++ ", ".intercalate (Console.tours.map (·.1))

/-- Takes the tour that the first argument names. -/
def main (args : List String) : IO UInt32 := do
  let columns := ((← IO.getEnv "COLUMNS").bind Number.readInt?).getD usualColumns
  match args.head?.bind (Fields.get? Console.tours) with
  | none =>
    IO.eprintln usage
    return 2
  | some tour =>
    match Console.transcript columns tour with
    | .ok text =>
      IO.print text
      return 0
    | .error f =>
      IO.eprintln s!"{f.label}: {f.message}"
      return 1
