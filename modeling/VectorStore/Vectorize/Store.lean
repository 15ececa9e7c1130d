/-
  The store in Cloudflare Vectorize.

  The service has no filters that match the library's, so a filter never reaches it.
  Records are sent as lines of JSON.  The metric is asked for with every query.
-/
import VectorStore.Metric.Mapper
import VectorStore.Metric.Similarity
import VectorStore.Store.Operations
import VectorStore.Vectorize.Ndjson
import VectorStore.Vectorize.Diagnosis

namespace VectorStore.Vectorize

/-- What the service says of the settings of an index. -/
structure IndexConfig where
  dimensions : Value
  metric : Value

/-- What the service says of the contents of an index. -/
structure IndexInfo where
  dimensions : Value
  vectorCount : Value

/-- A record as it is found. -/
structure Found where
  id : Value
  score : Value
  metadata : Value
  values : Value

/-- A search for the nearest records, with all their metadata. -/
structure Search where
  name : String
  vector : List Float
  topK : Nat
  returnValues : Bool

/-- A client of the service, with a state of its own. -/
structure Client (S : Type) where
  /-- creates an index of a dimension, compared by the service's metric -/
  create : String → Nat → String → Task S Failure Unit
  config : String → Task S Failure IndexConfig
  info : String → Task S Failure IndexInfo
  names : Task S Failure (List Value)
  delete : String → Task S Failure Unit
  /-- sends lines of JSON -/
  upsert : String → String → Task S Failure Unit
  search : Search → Task S Failure (List Found)

variable {S α : Type}

/-- A task on the service; its faults leave as store errors. -/
def onService (operation : String) (index : Option String) (t : Task S Failure α) :
    Task S Failure α :=
  t.recover fun f => .fail (Report.diagnosed (fun r => .ok (errorOf r)) ⟨operation, index, f⟩)

/-- The line of a record. -/
def lineOf (r : Record) : Line := ⟨.text r.id, r.vector.map .float, .object r.metadata⟩

/-- The match of a found record. -/
def matchOf (m : Metric) (includeVector : Bool) (found : Found) : Except Fault Match := do
  let id ← found.id.toText
  let score ← found.score.toFloat
  let metadata ← (found.metadata.orElse (.object [])).toFields
  let vector ← if includeVector then found.values.toVector else .ok none
  return ⟨id, ofScore m score, metadata, vector⟩

/-! ## Operations -/

/-- The most results of a query. -/
def maxTopK : Nat := 100

/-- The most results of a query that returns vectors. -/
def maxTopKWithValues : Nat := 20

/-- What the store can do. -/
def capabilities : Capabilities :=
  { server := "vectorize", enforcesFilters := false, filterDialect := "none",
    maxBatchSize := some 1000, maxTopK := some maxTopK, maxDimensions := 1536 }

/-- Creates an index. -/
def create (client : Client S) (name : String) (dimension : Nat) (m : Metric) :
    Task S Failure Unit :=
  onService "create_index" (some name)
    (client.create name dimension (Mapper.vectorize.toNative m))

/-- The metric of an index. -/
def metricOf (config : IndexConfig) : Except Failure Metric :=
  Mapper.vectorize.fromNative (.plain config.metric)

/-- The shape of an index, as its settings and its contents say. -/
def descriptorOf (config : IndexConfig) (info : IndexInfo) : Except Failure Descriptor := do
  let dimension ← (info.dimensions.orElse config.dimensions).toInt.mapError .fault
  let m ← metricOf config
  let count ← (info.vectorCount.orElse (.int 0)).toInt.mapError .fault
  return ⟨dimension, m, count⟩

/-- The shape of an index. -/
def describe (client : Client S) (name : String) : Task S Failure Descriptor := do
  let (config, info) ← onService "describe_index" (some name) do
    let config ← client.config name
    let info ← client.info name
    return (config, info)
  .ofExcept (descriptorOf config info)

/-- The names of the indexes. -/
def list (client : Client S) : Task S Failure (List String) :=
  onService "list_indexes" none do
    let names ← client.names
    .ofExcept ((names.mapM Value.toText).mapError .fault)

/-- Deletes an index. -/
def delete (client : Client S) (name : String) : Task S Failure Unit :=
  onService "delete_index" (some name) (client.delete name)

/-- Sends the lines of a chunk. -/
def writeChunk (client : Client S) (name : String) (c : Batch.Chunk Record) :
    Task S Failure Batch.Reported := do
  let body ← .ofExcept ((ndjson (c.records.map lineOf)).mapError .fault)
  onService "upsert" (some name) (client.upsert name body)
  return []

/-- Refuses a query for more vectors than the service returns. -/
def checkValues (q : QueryRequest) : Except Failure Unit :=
  if q.includeVector && maxTopKWithValues < q.topK then
    .error (.showing (.int q.topK) (.of .validation
      (s!"top_k {Number.natText q.topK} exceeds maximum of " ++
        s!"{Number.natText maxTopKWithValues} when vectors are returned")
      [("max_top_k", .int maxTopKWithValues)]))
  else .ok ()

/-- The nearest records. -/
def search (client : Client S) (q : QueryRequest) : Task S Failure (List Match) := do
  .ofExcept (checkValues q)
  let (config, found) ← onService "query" (some q.name) do
    let config ← client.config q.name
    let found ← client.search ⟨q.name, q.vector, q.topK, q.includeVector⟩
    return (config, found)
  let m ← .ofExcept (metricOf config)
  .ofExcept ((found.mapM (matchOf m q.includeVector)).mapError .fault)

/-- The backend over a client. -/
def backend (client : Client S) : Backend S where
  component := "vector_vectorize"
  capabilities := .ret capabilities
  createIndex name dimension m _ := create client name dimension m
  describeIndex name _ := describe client name
  listIndexes _ := list client
  deleteIndex name _ := delete client name
  upsertChunk name c _ := writeChunk client name c
  query q _ := search client q

end VectorStore.Vectorize
