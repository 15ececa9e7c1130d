/-
  Measurements as lines of text.

  Each measurement is one line: a tag and an object of JSON.  Of the extra fields only a few
  are shown, in the order of their names, and of those only short scalars.
-/
import VectorStore.Store.Session

namespace VectorStore.Console

/-- A measurement as it is given to the console. -/
inductive Measurement where
  | observed (component operation time ok code extra : Value)
  | counted (component name value extra : Value)

/-- The longest text of an extra field. -/
def longestExtra : Nat := 200

/-- The number of extra fields that are shown when nothing is said. -/
def defaultExtras : Value := .int 10

/-- Whether an extra field is a short scalar. -/
def isShown (v : Value) : Except Fault Bool :=
  match v with
  | .list _ | .object _ => .ok false
  | v => do return decide ((← v.toText).length ≤ longestExtra)

/-- Whether a position is among the first ones that are looked at. -/
def within (most : Value) (position : Nat) : Except Fault Bool :=
  match most.aboveInt? position with
  | some b => .ok b
  | none => .error (.notOrdered ">=" "int" most.typeName)

/-- The short scalars among the first fields, the first one at the given position. -/
def shownFrom (most : Value) : Nat → Fields → Except Fault Fields
  | _, [] => .ok []
  | position, (name, v) :: fields => do
    if ← within most position then
      let short ← isShown v
      let rest ← shownFrom most (position + 1) fields
      return if short then (name, v) :: rest else rest
    else return []

/-- The extra fields that are shown, if there are any. -/
def shown (most extra : Value) : Except Fault Fields :=
  if extra.isVoid then .ok []
  else match extra with
    | .object fields => do
      let safe ← shownFrom most 0 (Json.sortByName fields)
      return if safe.isEmpty then [] else [("extra", .object safe)]
    | v => .error (.missingAttribute v.typeName "items")

/-- A line of a tag and an object. -/
def line (tag : String) (fields : Fields) : Except Fault String := do
  return "[" ++ tag ++ "] " ++ (← Json.encode Json.compact (.object fields)) ++ "\n"

/-- A time in milliseconds with three places, zero at least. -/
def shownTime (v : Value) : Except Fault Value := do
  let x ← v.toFloat
  return .float (Number.roundTo 3 (if 0.0 < x then x else 0.0))

/-- The line of a measurement. -/
def Measurement.line (most : Value) : Measurement → Except Fault String
  | observed component operation time ok code extra => do
    let ms ← shownTime time
    let code ← (code.orElse (.text "OK")).toText
    let safe ← shown most extra
    Console.line "OBS" ([("component", component), ("op", operation), ("ms", ms),
      ("ok", .bool !ok.isVoid), ("code", .text code)] ++ safe)
  | counted component name value extra => do
    let n ← value.toInt
    let safe ← shown most extra
    Console.line "CTR" ([("component", component), ("name", name), ("value", .int n)] ++ safe)

/-- A measurement of a session as it is given to the console. -/
def Measurement.ofEvent : Event → Measurement
  | .observe component operation time ok code extra =>
    .observed (.text component) (.text operation) (.float time.milliseconds) (.bool ok) (.text code)
      (.object extra)
  | .counter component name n => .counted (.text component) (.text name) (.int n) .null

end VectorStore.Console
