/-
  Backends: what a store is built on.

  A backend says what it can do and carries out validated requests on a state of its own.
  `Capabilities` bounds what a store asks of it.
-/
import VectorStore.Batch.Upsert
import VectorStore.Metric
import VectorStore.Store.Context
import VectorStore.Store.Record

namespace VectorStore

/-- What a backend can do. -/
structure Capabilities where
  server : String
  version : String := "1.0.0"
  protocol : String := "vectorgate/v1.0"
  supportedMetrics : List String := Metric.names
  enforcesFilters : Bool := true
  filterDialect : String := "native"
  /-- the most records of a write, if there is a limit -/
  maxBatchSize : Option Int := none
  /-- the most results of a query, if there is a limit -/
  maxTopK : Option Int := none
  /-- the most dimensions of an index; zero stands for no limit -/
  maxDimensions : Int := 0

/-- An optional integer as a document. -/
def Value.ofInt? (n : Option Int) : Value := (n.map Value.int).getD .null

/-- The capabilities as an object. -/
def Capabilities.toValue (c : Capabilities) : Value :=
  .object [("server", .text c.server), ("version", .text c.version), ("protocol", .text c.protocol),
    ("supported_metrics", .list (c.supportedMetrics.map .text)),
    ("enforces_filters", .bool c.enforcesFilters), ("filter_dialect", .text c.filterDialect),
    ("max_batch_size", .ofInt? c.maxBatchSize), ("max_top_k", .ofInt? c.maxTopK),
    ("max_dimensions", .int c.maxDimensions)]

/-- The shape of an index. -/
structure Descriptor where
  dimension : Int
  metric : Metric
  /-- the number of records, which may lag behind recent writes -/
  count : Int

/-- The shape of an index as an object. -/
def Descriptor.toValue (d : Descriptor) : Value :=
  .object [("dimension", .int d.dimension), ("metric", .text d.metric.name), ("count", .int d.count)]

/-- A record found by a query. -/
structure Match where
  id : String
  /-- higher is more similar -/
  score : Float
  metadata : Fields
  vector : Option (List Float)

/-- A vector as a document. -/
def Value.ofVector (xs : List Float) : Value := .list (xs.map .float)

/-- A match as an object. -/
def Match.toValue (m : Match) : Value :=
  .object [("id", .text m.id), ("score", .float m.score), ("metadata", .object m.metadata),
    ("vector", (m.vector.map Value.ofVector).getD .null)]

/-- A validated query. -/
structure QueryRequest where
  name : String
  vector : List Float
  topK : Nat
  /-- a filter with entries, if there is one -/
  filter : Option Fields
  includeVector : Bool

/-- What a store is built on, with a state of its own. -/
structure Backend (β : Type) where
  /-- the name under which metrics are counted -/
  component : String
  capabilities : Task β Failure Capabilities
  createIndex : String → Nat → Metric → Option Context → Task β Failure Unit
  describeIndex : String → Option Context → Task β Failure Descriptor
  listIndexes : Option Context → Task β Failure (List String)
  deleteIndex : String → Option Context → Task β Failure Unit
  /-- writes a chunk and reports the items that were refused -/
  upsertChunk : String → Batch.Chunk Record → Option Context → Task β Failure Batch.Reported
  query : QueryRequest → Option Context → Task β Failure (List Match)

/-- A backend without any operation. -/
def Backend.bare (component : String) : Backend β where
  component
  capabilities := .fail (.fault .notImplemented)
  createIndex _ _ _ _ := .fail (.fault .notImplemented)
  describeIndex _ _ := .fail (.fault .notImplemented)
  listIndexes _ := .fail (.fault .notImplemented)
  deleteIndex _ _ := .fail (.fault .notImplemented)
  upsertChunk _ _ _ := .fail (.fault .notImplemented)
  query _ _ := .fail (.fault .notImplemented)

end VectorStore
