/-
  The store in memory.

  Indexes are held in the order of their creation and records in the order of their first
  write; writing a record again replaces it in its place.  A chunk whose vectors do not all
  have the index's dimension is refused as a whole.  A query scores the records that meet
  the filter and returns the best, equally good ones in their order.

  Metadata are copied when a record is stored and when it is found.  A document can be copied;
  what else a caller may put into metadata need not be, so copying is a parameter (`copy`).
-/
import VectorStore.Memory.Match
import VectorStore.Memory.Score
import VectorStore.Store.Operations

namespace VectorStore.Memory

/-- An index: its shape and its records by id. -/
structure Index where
  dimension : Nat
  metric : Metric
  records : List (String × Record)

/-- The indexes by name. -/
abbrev State := List (String × Index)

/-- The failure to find an index. -/
def noIndex (name : String) : Failure :=
  .error (.of .notFound s!"index '{name}' does not exist" [("index", .text name)])

/-- The index of the given name. -/
def find (state : State) (name : String) : Except Failure Index :=
  match Fields.get? state name with
  | some i => .ok i
  | none => .error (noIndex name)

/-- The state with a new index. -/
def create (state : State) (name : String) (dimension : Nat) (m : Metric) :
    Except Failure State :=
  if Fields.has state name then
    .error (.error (.of .conflict s!"index '{name}' already exists" [("index", .text name)]))
  else .ok (Fields.put state name ⟨dimension, m, []⟩)

/-- The state without an index. -/
def delete (state : State) (name : String) : Except Failure State := do
  let _ ← find state name
  return Fields.erase state name

/-- The failure of a vector of the wrong length. -/
def wrongDimension (expected found : Nat) (details : Fields) : Failure :=
  .showing (.int expected) (.of .validation
    s!"expected {Number.natText expected} dimensions, not {Number.natText found}" details)

/-- Refuses a chunk with a vector of the wrong length. -/
def checkChunk (name : String) (dimension : Nat) (c : Batch.Chunk Record) : Except Failure Unit :=
  match c.records.zipIdx.find? fun r => r.1.vector.length ≠ dimension with
  | none => .ok ()
  | some (r, i) =>
    .error (wrongDimension dimension r.vector.length
      [("index", .text name), ("position", .int (c.offset + i)), ("id", .text r.id)])

/-- The records with copies of more of them written, one after another, up to one that cannot be
    copied, and what ended the writing there. -/
def insertCopies (copy : Fields → Except Fault Fields) (records : List (String × Record)) :
    List Record → List (String × Record) × Except Fault Unit
  | [] => (records, .ok ())
  | r :: more =>
    match copy r.metadata with
    | .ok metadata => insertCopies copy (Fields.put records r.id { r with metadata }) more
    | .error e => (records, .error e)

/-- The state with a chunk written, as far as its records can be copied. -/
def write (copy : Fields → Except Fault Fields) (state : State) (name : String)
    (c : Batch.Chunk Record) : Except Failure (State × Except Fault Unit) := do
  let i ← find state name
  checkChunk name i.dimension c
  let (records, written) := insertCopies copy i.records c.records
  return (Fields.put state name { i with records }, written)

/-- The match of a record that meets a filter, if it does. -/
def matchOf (q : QueryRequest) (m : Metric) (filter : Option Filter) (r : Record) :
    Except Failure (Option Match) := do
  let meets ← match filter with
    | none => .ok true
    | some f => matchFilter (.object r.metadata) f
  if meets then
    let s ← (score m q.vector r.vector).mapError .fault
    return some ⟨r.id, s, r.metadata, if q.includeVector then some r.vector else none⟩
  else return none

/-- The match with a copy of its metadata. -/
def copied (copy : Fields → Except Fault Fields) (m : Match) : Except Failure Match := do
  let metadata ← (copy m.metadata).mapError .fault
  return { m with metadata }

/-- The answer to a query. -/
def search (copy : Fields → Except Fault Fields) (state : State) (q : QueryRequest) :
    Except Failure (List Match) := do
  let i ← find state q.name
  if q.vector.length ≠ i.dimension then
    .error (wrongDimension i.dimension q.vector.length [("index", .text q.name)])
  let filter := q.filter.map fun fields => Filter.ofValue (.object fields)
  let found ← i.records.filterMapM fun r => matchOf q i.metric filter r.2
  (Store.topMatches q.topK found).mapM (copied copy)

/-- The shape of an index. -/
def describe (state : State) (name : String) : Except Failure Descriptor := do
  let i ← find state name
  return ⟨i.dimension, i.metric, i.records.length⟩

/-- A change of the state that may fail without one. -/
def change (f : State → Except Failure State) : Task State Failure Unit :=
  .read fun s =>
    match f s with
    | .ok s' => .write s' (.ret ())
    | .error e => .fail e

/-- An answer from the state. -/
def answer (f : State → Except Failure α) : Task State Failure α := .read fun s => .ofExcept (f s)

/-- The writing of a chunk, which may fail with a part of it written. -/
def storeChunk (copy : Fields → Except Fault Fields) (name : String) (c : Batch.Chunk Record) :
    Task State Failure Unit :=
  .read fun s =>
    match write copy s name c with
    | .ok (s', written) => .write s' (.ofExcept (written.mapError .fault))
    | .error e => .fail e

/-- What the store in memory can do. -/
def capabilities (name : String) : Capabilities := { server := name, filterDialect := "local" }

/-- The backend that holds its indexes in memory. -/
def backend (name : String) (copy : Fields → Except Fault Fields := .ok) : Backend State where
  component := "vector_memory"
  capabilities := .ret (capabilities name)
  createIndex index dimension m _ := change fun s => create s index dimension m
  describeIndex index _ := answer fun s => describe s index
  listIndexes _ := answer fun s => .ok (s.map (·.1))
  deleteIndex index _ := change fun s => delete s index
  upsertChunk index c _ := (storeChunk copy index c).andThen fun _ => .ret []
  query q _ := answer fun s => search copy s q

end VectorStore.Memory
