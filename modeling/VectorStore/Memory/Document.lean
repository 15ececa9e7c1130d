/-
  Looking into a metadata document.

  `extract` follows a path through objects by name and through lists by position.  Values
  are compared by their text (`asText`); `asNumber` reads that text as a number.
-/
import VectorStore.Filter.Path
import VectorStore.Json.Writer
import VectorStore.Value.Coercion

namespace VectorStore.Memory

open VectorStore.Filter (Path)

/-- The position that a segment of digits gives, if it is below `length`.  Digits that are
    not decimal are a fault. -/
def position? (segment : String) (length : Nat) : Except Fault (Option Nat) :=
  let cs := segment.toList
  if cs.isEmpty || !cs.all Text.isDigit then .ok none
  else do
    let n ← (Number.readInt segment).mapError (Fault.ofIntRefusal segment)
    return if n < length then some n.toNat else none

/-- What one segment leads to. -/
def step (segment : String) : Value → Except Fault (Option Value)
  | .object fields => .ok (Fields.get? fields segment)
  | .list items => do
    match ← position? segment items.length with
    | some i => .ok items[i]?
    | none => .ok none
  | _ => .ok none

/-- The value at a path, if the path leads anywhere. -/
def extract : Path → Value → Except Fault (Option Value)
  | [], v => .ok (some v)
  | segment :: path, v => do
    match ← step segment v with
    | some w => extract path w
    | none => .ok none

/-- The text by which a value is compared, if there is a value: null has none, the truth values
    are words, a text is itself, and anything else is written as JSON. -/
def asText : Option Value → Except Fault (Option String)
  | none | some .null => .ok none
  | some (.bool b) => .ok (some (if b then "true" else "false"))
  | some (.text s) => .ok (some s)
  | some v => do return some (← Json.encode Json.spaced v)

/-- The number by which a value is compared, if its text is one. -/
def asNumber (stored : Option Value) : Except Fault (Option Float) := do
  return (← asText stored).bind Number.readFloat?

end VectorStore.Memory
