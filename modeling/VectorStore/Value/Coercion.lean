/-
  Reading a document as a number, a text, a sequence or a mapping.

  Each reading succeeds on the documents that have it and is a fault on all others: a text
  is an integer when it is an integer's text, a double loses its fraction, a list of pairs
  is a mapping, and every value is a text that has no integer of too many digits.
-/
import VectorStore.Error
import VectorStore.Number.Reader

namespace VectorStore.Value

/-- The document as an integer. -/
def toInt : Value → Except Fault Int
  | .int n => .ok n
  | .bool b => .ok (if b then 1 else 0)
  | .float x =>
    match Number.Binary.ofFloat x with
    | .nan => .error .nanToInt
    | .infinite _ => .error .infinityToInt
    | .finite .. => .ok ((Number.truncate? x).getD 0)
  | .text s => (Number.readInt s).mapError (Fault.ofIntRefusal s)
  | v => .error (.notInt v.typeName)

/-- The document as a double. -/
def toFloat : Value → Except Fault Float
  | .float x => .ok x
  | .bool b => .ok (if b then 1.0 else 0.0)
  | .int n =>
    match Number.ofInt? n with
    | some x => .ok x
    | none => .error .intTooLarge
  | .text s =>
    match Number.readFloat? s with
    | some x => .ok x
    | none => .error (.badFloatText s)
  | v => .error (.notFloat v.typeName)

/-- The document as a text. -/
def toText (v : Value) : Except Fault String :=
  if v.isWritable then .ok v.plain else .error .intTooLong

theorem plain_of_toText {v : Value} {s : String} (h : v.toText = .ok s) : v.plain = s := by
  rw [toText] at h
  split at h <;> cases h
  rfl

/-- The items of a list, the characters of a text, or the names of an object's fields. -/
def toItems : Value → Except Fault (List Value)
  | .list items => .ok items
  | .text s => .ok (s.toList.map fun c => .text (String.singleton c))
  | .object fields => .ok (fields.map fun f => .text f.1)
  | v => .error (.notIterable v.typeName)

/-- The documents as doubles. -/
def toFloats (items : List Value) : Except Fault (List Float) := items.mapM toFloat

/-- The document as a vector, none if it is null. -/
def toVector (v : Value) : Except Fault (Option (List Float)) :=
  if v.isNull then .ok none else do return some (← toFloats (← v.toItems))

/-- The named field of an object. -/
def field (v : Value) (name : String) : Except Fault Value :=
  match v with
  | .object fields =>
    match Fields.get? fields name with
    | some w => .ok w
    | none => .error (.missingKey name)
  | .list _ => .error .listIndex
  | .text _ => .error .textIndex
  | v => .error (.notIndexable v.typeName)

/-- The name that a document gives to a field. -/
def toName : Value → Except Fault String
  | .text s => .ok s
  | v@(.list _) | v@(.object _) => .error (.notHashable v.typeName)
  | .null => .ok "null"
  | .bool b => .ok (if b then "true" else "false")
  | v => .ok v.quoted

/-- The fields that a list of pairs gives, from the pair at `position` on. -/
def pairsToFields (acc : Fields) : Nat → List Value → Except Fault Fields
  | _, [] => .ok acc
  | position, item :: items =>
    match item.toItems with
    | .error _ => .error (.notSequence position)
    | .ok [name, v] => do
      let name ← name.toName
      pairsToFields (Fields.put acc name v) (position + 1) items
    | .ok parts => .error (.notPair position parts.length)

/-- The document as a mapping. -/
def toFields : Value → Except Fault Fields
  | .object fields => .ok fields
  | v => do pairsToFields [] 0 (← v.toItems)

end VectorStore.Value
