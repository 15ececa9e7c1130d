/-
  The SQL statements of the store.

  Each index is a table of its own, with an index whose operator class encodes the metric.
  Names are quoted, values are always parameters.
-/
import VectorStore.Metric.Mapper
import VectorStore.Postgres.Settings

namespace VectorStore.Postgres

/-- A quoted name: a quote inside it is written twice. -/
def quoteName (name : String) : List Char :=
  '\x22' :: (name.toList.flatMap (fun c => if c = '\x22' then ['\x22', '\x22'] else [c]) ++ ['\x22'])

/-- A schema and a table as one name. -/
def qualified (schema name : String) : String :=
  String.ofList (quoteName schema ++ '.' :: quoteName name)

/-- The refusal of an index's name. -/
def badName (name : String) : Failure :=
  .error (.of .validation
    "index name must be a SQL identifier (letters, digits, underscore; max 48 chars)"
    [("index", .text name)])

/-- The table of an index. -/
def tableOf (settings : Settings) (name : String) : Except Failure String :=
  if isName name then .ok (qualified settings.schema name) else .error (badName name)

/-- Installs the extension. -/
def createExtension : String := "CREATE EXTENSION IF NOT EXISTS vector"

/-- Creates the table of an index. -/
def createTable (table : String) (dimension : Nat) : String :=
  s!"CREATE TABLE {table} (id TEXT PRIMARY KEY, embedding vector({Number.natText dimension}) " ++
    "NOT NULL, metadata JSONB NOT NULL DEFAULT '\x7b\x7d'::jsonb)"

/-- The name of the index over a table's vectors. -/
def vectorIndexName (name : String) : String := name ++ "_embedding_idx"

/-- Creates the index over a table's vectors. -/
def createVectorIndex (name table : String) (m : Metric) : String :=
  let index := String.ofList (quoteName (vectorIndexName name))
  s!"CREATE INDEX {index} ON {table} USING hnsw (embedding {Mapper.pgvector.toNative m})"

/-- Asks whether a table exists. -/
def selectTable : String := "SELECT to_regclass($1)"

/-- Asks for the definitions of a table's indexes. -/
def selectIndexes : String :=
  "SELECT indexdef FROM pg_indexes WHERE schemaname = $1 AND tablename = $2"

/-- Asks for the dimension of a table's vectors. -/
def selectDimension : String :=
  "SELECT atttypmod FROM pg_attribute WHERE attrelid = to_regclass($1) AND attname = 'embedding'"

/-- Counts a table's records. -/
def selectCount (table : String) : String := s!"SELECT count(*) FROM {table}"

/-- Asks for the tables of a schema that are indexes. -/
def selectTables : String :=
  "SELECT table_name FROM information_schema.columns " ++
    "WHERE table_schema = $1 AND column_name = 'embedding' AND udt_name = 'vector' " ++
    "ORDER BY table_name"

/-- Drops a table. -/
def dropTable (table : String) : String := s!"DROP TABLE {table}"

/-- Writes a record. -/
def insert (table : String) : String :=
  s!"INSERT INTO {table} (id, embedding, metadata) " ++
    "VALUES ($1, $2::text::vector, $3::text::jsonb) " ++
    "ON CONFLICT (id) DO UPDATE SET embedding = EXCLUDED.embedding, metadata = EXCLUDED.metadata"

/-- The distance operator of a metric. -/
def distanceOperator : Metric → String
  | .cosine => "<=>"
  | .euclidean => "<->"
  | .dotproduct => "<#>"

/-- The columns that a query asks for. -/
def queryColumns (m : Metric) (includeVector : Bool) : List Char :=
  "id, metadata, embedding ".toList ++ ((distanceOperator m).toList ++
    (" $1::text::vector AS distance".toList ++
      (if includeVector then ", embedding::text AS embedding".toList else [])))

/-- The nearest records: the query vector is the first parameter, the number of records the
    last, and those of the filter stand between. -/
def selectNearest (table : String) (m : Metric) (includeVector : Bool)
    (predicate : Option Filter.Compiled) : String :=
  let (condition, limit) := match predicate with
    | none => ([], 2)
    | some c => (" WHERE ".toList ++ c.predicate.chars, c.nextIndex)
  String.ofList ("SELECT ".toList ++ (queryColumns m includeVector ++ (" FROM ".toList ++
    (table.toList ++ (condition ++ (" ORDER BY distance LIMIT ".toList ++
      Filter.placeholder limit))))))

/-- The metric that an index definition encodes: the first whose operator class it names. -/
def metricIn (definition : String) : Option Metric :=
  Metric.all.find? fun m => Text.occursIn (Mapper.pgvector.toNative m) definition

/-- The first metric that one of the definitions encodes. -/
def metricOf (definitions : List String) : Option Metric := definitions.findSome? metricIn

end VectorStore.Postgres
