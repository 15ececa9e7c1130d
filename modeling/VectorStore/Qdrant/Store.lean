/-
  The store in a Qdrant service.

  An index is a collection with one vector per point.  The service takes only some ids; a
  record whose id is mapped to another keeps its own in the payload (`point`), and a query
  restores it (`matchOf`).  Filters are turned into the service's own.  The metric of a
  collection is asked for once and then remembered until the collection is deleted.
-/
import VectorStore.Metric.Mapper
import VectorStore.Metric.Similarity
import VectorStore.Qdrant.Clause
import VectorStore.Qdrant.PointId
import VectorStore.Qdrant.Diagnosis
import VectorStore.Store.Known
import VectorStore.Store.Operations

namespace VectorStore.Qdrant

/-- A point as it is written. -/
structure Point where
  id : PointId
  vector : List Float
  payload : Fields

/-- A point as it is found. -/
structure Found where
  id : Value
  score : Value
  payload : Value
  /-- the point's vector, or its vectors by name -/
  vector : Value

/-- A search for the nearest points. -/
structure Search where
  collection : String
  vector : List Float
  limit : Nat
  filter : Option Clause
  withVectors : Bool

/-- What the service says of the vectors under one name. -/
structure VectorShape where
  size : Value
  distance : NativeMetric

/-- The vectors of a collection: one without a name, or some by name. -/
inductive Vectors where
  | single (shape : VectorShape)
  | named (shapes : List (String × VectorShape))

/-- What the service says of a collection. -/
structure Collection where
  vectors : Vectors
  pointsCount : Value

/-- A client of the service, with a state of its own. -/
structure Client (S : Type) where
  collectionExists : String → Task S Failure Bool
  /-- creates a collection for vectors of a size, compared by the service's metric -/
  createCollection : String → Nat → String → Task S Failure Unit
  deleteCollection : String → Task S Failure Unit
  collection : String → Task S Failure Collection
  collectionNames : Task S Failure (List Value)
  /-- writes points and waits until they are visible -/
  upsert : String → List Point → Task S Failure Unit
  search : Search → Task S Failure (List Found)
  close : Task S Failure Unit

variable {S α : Type}

/-- A task on the service; its faults leave as store errors. -/
def onService (operation : String) (index : Option String) (t : Task (Known S) Failure α) :
    Task (Known S) Failure α :=
  t.recover fun f => .fail (Report.diagnosed errorOf ⟨operation, index, f⟩)

/-! ## Records and points -/

/-- The field of the payload that keeps the id of a record. -/
def ownIdField : String := "_vectorgate_id"

/-- The payload of a record's point. -/
def payload (p : PointId) (r : Record) : Fields :=
  if p.isRemapped r.id then Fields.put r.metadata ownIdField (.text r.id) else r.metadata

/-- The point of a record. -/
def point (r : Record) : Except Fault Point := do
  let p ← pointId r.id
  return ⟨p, r.vector, payload p r⟩

/-- The vector of a found point: the first one, if they have names. -/
def Found.firstVector (p : Found) : Value :=
  match p.vector with
  | .object fields => (fields.head?.map (·.2)).getD .null
  | v => v

/-- The id of the record that a found point stands for. -/
def recordId (payload : Fields) (id : Value) : Except Fault String :=
  let own := Fields.orNull payload ownIdField
  (if own.isNull then id else own).toText

/-- The match of a found point. -/
def matchOf (m : Metric) (includeVector : Bool) (p : Found) : Except Fault Match := do
  let payload ← (p.payload.orElse (.object [])).toFields
  let id ← recordId payload p.id
  let score ← p.score.toFloat
  let vector ← if includeVector then p.firstVector.toVector else .ok none
  return ⟨id, ofScore m score, Fields.erase payload ownIdField, vector⟩

/-! ## Operations -/

/-- What the store can do. -/
def capabilities : Capabilities := { server := "qdrant", maxDimensions := 65536 }

/-- The shape of a collection's vectors, if they are of one kind. -/
def shapeOf : Vectors → Except Failure VectorShape
  | .single shape => .ok shape
  | .named [(_, shape)] => .ok shape
  | .named _ =>
    .error (.error (.of .notSupported "collections with several named vectors are not supported"))

/-- The metric of a shape. -/
def metricOf (shape : VectorShape) : Except Failure Metric :=
  Mapper.qdrant.fromNative shape.distance

/-- The metric of a collection, remembered or asked for. -/
def collectionMetric (client : Client S) (name : String) : Task (Known S) Failure Metric := do
  let k ← Task.get
  match k.metric? name with
  | some m => return m
  | none =>
    let c ← Known.ofService (client.collection name)
    let m ← .ofExcept (shapeOf c.vectors >>= metricOf)
    .modify (Known.remember name m)
    return m

/-- Creates a collection that does not exist. -/
def create (client : Client S) (name : String) (dimension : Nat) (m : Metric) :
    Task (Known S) Failure Unit := do
  onService "create_index" (some name) do
    let found ← Known.ofService (client.collectionExists name)
    if found then
      .fail (.error (.of .conflict s!"index '{name}' already exists" [("index", .text name)]))
    Known.ofService (client.createCollection name dimension (Mapper.qdrant.toNative m))
  .modify (Known.remember name m)

/-- The shape of a collection. -/
def describe (client : Client S) (name : String) : Task (Known S) Failure Descriptor := do
  let c ← onService "describe_index" (some name) (Known.ofService (client.collection name))
  let shape ← .ofExcept (shapeOf c.vectors)
  let m ← .ofExcept (metricOf shape)
  .modify (Known.remember name m)
  let dimension ← .ofExcept (shape.size.toInt.mapError .fault)
  let count ← .ofExcept ((c.pointsCount.orElse (.int 0)).toInt.mapError .fault)
  return ⟨dimension, m, count⟩

/-- The names of the collections. -/
def list (client : Client S) : Task (Known S) Failure (List String) := do
  let names ← onService "list_indexes" none (Known.ofService client.collectionNames)
  .ofExcept ((names.mapM Value.toText).mapError .fault)

/-- Deletes a collection that exists. -/
def delete (client : Client S) (name : String) : Task (Known S) Failure Unit := do
  onService "delete_index" (some name) do
    let found ← Known.ofService (client.collectionExists name)
    if !found then
      .fail (.error (.of .notFound s!"index '{name}' does not exist" [("index", .text name)]))
    Known.ofService (client.deleteCollection name)
  .modify (Known.forget name)

/-- Writes the points of a chunk. -/
def writeChunk (client : Client S) (name : String) (c : Batch.Chunk Record) :
    Task (Known S) Failure Batch.Reported := do
  let points ← .ofExcept ((c.records.mapM point).mapError .fault)
  onService "upsert" (some name) (Known.ofService (client.upsert name points))
  return []

/-- The native filter of a query. -/
def filterOf (q : QueryRequest) : Except Failure (Option Clause) :=
  match q.filter with
  | none => .ok none
  | some fields => do return some (← Clause.ofFilter (Filter.ofValue (.object fields)))

/-- The nearest points. -/
def search (client : Client S) (q : QueryRequest) : Task (Known S) Failure (List Match) := do
  let filter ← .ofExcept (filterOf q)
  let (m, found) ← onService "query" (some q.name) do
    let m ← collectionMetric client q.name
    let found ← Known.ofService
      (client.search ⟨q.name, q.vector, q.topK, filter, q.includeVector⟩)
    return (m, found)
  .ofExcept ((found.mapM (matchOf m q.includeVector)).mapError .fault)

/-- Closes the client. -/
def close (client : Client S) : Task (Known S) Failure Unit := Known.ofService client.close

/-- The backend over a client. -/
def backend (client : Client S) : Backend (Known S) where
  component := "vector_qdrant"
  capabilities := .ret capabilities
  createIndex name dimension m _ := create client name dimension m
  describeIndex name _ := describe client name
  listIndexes _ := list client
  deleteIndex name _ := delete client name
  upsertChunk name c _ := writeChunk client name c
  query q _ := search client q

end VectorStore.Qdrant
