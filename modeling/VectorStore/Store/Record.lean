/-
  Records on their way into a store, and how they are put together.

  A write brings three lists side by side: vectors, metadata and ids.  `buildRecords` checks
  them entry by entry and joins them; an id that is left out is drawn from the supply, and
  ids drawn before a refusal stay drawn.
-/
import VectorStore.Uuid
import VectorStore.Value.Coercion

namespace VectorStore

/-- A record of a store. -/
structure Record where
  id : String
  vector : List Float
  metadata : Fields

namespace Record

/-- Whether a document is a number and no truth value. -/
def isNumber : Value → Bool
  | .int _ | .float _ => true
  | _ => false

/-- The vector of a document: a list of numbers that is not empty. -/
def vectorOf (name : String) (v : Value) : Except Failure (List Float) :=
  match v with
  | .list (x :: xs) =>
    if (x :: xs).all isNumber then (Value.toFloats (x :: xs)).mapError .fault
    else .error (.error (.of .validation s!"{name} must contain only numeric values"))
  | _ => .error (.error (.of .validation s!"{name} must be a non-empty list of numbers"))

/-- The metadata of a document: an object, or nothing. -/
def metadataOf (position : Nat) (v : Value) : Except Failure Fields :=
  match v with
  | .null => .ok []
  | .object fields => .ok fields
  | _ => .error (.error (.of .validation
      s!"metadata[{Number.natText position}] must be a mapping or None"))

/-- The id of a document, or the next one of the supply if there is none; `drawn` counts the
    ids drawn. -/
def idOf (position drawn : Nat) (v : Value) : Except Failure (String × Nat) :=
  match v with
  | .null => .ok (generatedText (drawn + 1), drawn + 1)
  | .text s =>
    if s.isEmpty then
      .error (.error (.of .validation
        s!"ids[{Number.natText position}] must be a non-empty string or None"))
    else .ok (s, drawn)
  | _ => .error (.error (.of .validation
      s!"ids[{Number.natText position}] must be a non-empty string or None"))

/-- The record of one entry of each list. -/
def ofEntry (position drawn : Nat) (vector metadata id : Value) :
    Except Failure (Record × Nat) := do
  let xs ← vectorOf s!"vectors[{Number.natText position}]" vector
  let fields ← metadataOf position metadata
  let (id, drawn) ← idOf position drawn id
  return (⟨id, xs, fields⟩, drawn)

/-- The records of the entries from a position on, with the number of ids drawn. -/
def ofEntries (position drawn : Nat) :
    List (Value × Value × Value) → Except Failure (List Record) × Nat
  | [] => (.ok [], drawn)
  | (vector, metadata, id) :: entries =>
    match ofEntry position drawn vector metadata id with
    | .error f => (.error f, drawn)
    | .ok (record, drawn) =>
      let (records, drawn) := ofEntries (position + 1) drawn entries
      (records.map (record :: ·), drawn)

/-- The entries that go with `n` vectors: nulls if none are given, else exactly `n`. -/
def companions (name : String) (n : Nat) (v : Value) : Except Failure (List Value) :=
  let refusal (length : Value) : Failure :=
    .error (.of .validation s!"{name} must have exactly one entry per vector"
      [("vectors", .int n), (name, length)])
  match v with
  | .null => .ok (List.replicate n .null)
  | .list items => if items.length = n then .ok items else .error (refusal (.int items.length))
  | _ => .error (refusal .null)

/-- The entries of the three lists side by side. -/
def entries (vectors metadata ids : Value) : Except Failure (List (Value × Value × Value)) := do
  match vectors with
  | .list (v :: vs) =>
    let n := (v :: vs).length
    let metadata ← companions "metadata" n metadata
    let ids ← companions "ids" n ids
    return (v :: vs).zip (metadata.zip ids)
  | _ => .error (.error (.of .validation "vectors must be a non-empty list"))

/-- The records of a write, with the number of ids drawn. -/
def buildRecords (drawn : Nat) (vectors metadata ids : Value) :
    Except Failure (List Record) × Nat :=
  match entries vectors metadata ids with
  | .error f => (.error f, drawn)
  | .ok es => ofEntries 0 drawn es

end Record

end VectorStore
