/-
  The store in a PostgreSQL database with vectors.

  The store sends statements over a `Connection` that it takes from a pool and hands back.
  Tables are created and records are written inside transactions, which are rolled back when
  they fail or are cut short.  To begin, commit or roll back and to hand back are calls like
  any other, which take time and may fail; only behind work that is cut short they happen at
  once.  The metric of an index is read from the catalog once and then remembered until the
  index is dropped.
-/
import VectorStore.Json.Reader
import VectorStore.Metric.Similarity
import VectorStore.Postgres.Bound
import VectorStore.Postgres.Literal
import VectorStore.Postgres.Statement
import VectorStore.Postgres.Diagnosis
import VectorStore.Store.Known
import VectorStore.Store.Operations
import VectorStore.Task.Turnstile

namespace VectorStore.Postgres

/-- A way to the database, with a state of its own. -/
structure Connection (S : Type) where
  /-- opens a pool of connections -/
  openPool : Value → Int → Int → Task S Failure Unit
  closePool : Task S Failure Unit
  /-- takes a connection from the pool -/
  acquire : Task S Failure Unit
  /-- hands the connection back to the pool -/
  release : Task S Failure Unit
  begin : Task S Failure Unit
  commit : Task S Failure Unit
  rollBack : Task S Failure Unit
  /-- rolls back work that is cut short -/
  rollsBack : S → S
  /-- hands the connection back behind work that is cut short -/
  releases : S → S
  execute : String → List Bound → Task S Failure Unit
  fetchValue : String → List Bound → Task S Failure Value
  fetchRows : String → List Bound → Task S Failure Value
  /-- the statement once for each row of parameters -/
  executeMany : String → List (List Value) → Task S Failure Unit

/-- The pool of connections. -/
structure Pool (S : Type) where
  isOpen : Bool
  connection : S
  /-- only one task opens the pool at a time -/
  turnstile : Turnstile := {}

/-- The state of the store. -/
abbrev State (S : Type) := Known (Pool S)

variable {S α : Type}

/-- The state before the first operation: a pool that was given is open. -/
def start (settings : Settings) (connection : S) : State S :=
  .start { isOpen := !settings.ownsPool, connection }

/-- A task of the connection as one of the store. -/
def onService (t : Task S ε α) : Task (State S) ε α :=
  Known.ofService (t.zoom Pool.connection fun s p => { p with connection := s })

/-- A change of the connection's state. -/
def changed (f : S → S) (st : State S) : State S :=
  { st with service := { st.service with connection := f st.service.connection } }

/-- Whether the pool is open from now on. -/
def setOpen (isOpen : Bool) (st : State S) : State S :=
  { st with service := { st.service with isOpen := isOpen } }

/-- The task inside a transaction: it is committed at the end, or rolled back where the task
    fails. -/
def inTransaction (conn : Connection S) (t : Task (State S) Failure α) :
    Task (State S) Failure α :=
  (onService conn.begin).andThen fun _ =>
    (t.onAbandon (changed conn.rollsBack)).attempt.andThen fun
      | .ok a => (onService conn.commit).andThen fun _ => .ret a
      | .error e => (onService conn.rollBack).andThen fun _ => .fail e

/-- The task with a connection, which is handed back however the task ends. -/
def withConnection (conn : Connection S) (t : Task (State S) Failure α) :
    Task (State S) Failure α :=
  (onService conn.acquire).andThen fun _ =>
    (t.onAbandon (changed conn.releases)).attempt.andThen fun r =>
      (onService conn.release).andThen fun _ => .ofExcept r

/-- A change of the turnstile before the opening of the pool. -/
def setTurnstile (f : Turnstile → Turnstile) (st : State S) : State S :=
  { st with service := { st.service with turnstile := f st.service.turnstile } }

/-- Opens the pool if there is none. -/
def openIfClosed (settings : Settings) (conn : Connection S) : Task (State S) Failure Unit :=
  .read fun st =>
    if st.service.isOpen then .ret ()
    else (onService (conn.openPool settings.dsn settings.minPoolSize settings.maxPoolSize)).andThen
      fun _ => .modify (setOpen true)

/-- Opens the pool if there is none; while one opens it the others wait. -/
def ensureOpen (settings : Settings) (conn : Connection S) : Task (State S) Failure Unit :=
  .read fun st =>
    if st.service.isOpen then .ret ()
    else Turnstile.pass (·.service.turnstile) setTurnstile (openIfClosed settings conn)

/-- Work on a connection of the pool. -/
def onConnection (settings : Settings) (conn : Connection S) (operation : String)
    (index : Option String) (work : Task (State S) Failure α) : Task (State S) Failure α :=
  ((ensureOpen settings conn).andThen fun _ => withConnection conn work).recover fun f =>
    .fail (Report.diagnosed (fun r => .ok (errorOf r)) ⟨operation, index, f⟩)

/-- A fault as a failure. -/
def faulty (r : Except Fault α) : Task (State S) Failure α := .ofExcept (r.mapError .fault)

/-- The named column of each row. -/
def column (rows : Value) (name : String) : Except Fault (List Value) := do
  (← rows.toItems).mapM fun row => row.field name

/-- The first metric encoded in the rows; rows behind it are not looked at. -/
def metricOfRows : List Value → Except Fault (Option Metric)
  | [] => .ok none
  | row :: rows => do
    match metricIn (← (← row.field "indexdef").toText) with
    | some m => return some m
    | none => metricOfRows rows

/-- The failure to find an index. -/
def noIndex (name : String) : Failure :=
  .error (.of .notFound s!"index '{name}' does not exist" [("index", .text name)])

/-- The metric of an index, remembered or read from the catalog. -/
def indexMetric (settings : Settings) (conn : Connection S) (name table : String) :
    Task (State S) Failure Metric := do
  let st ← Task.get
  match st.metric? name with
  | some m => return m
  | none =>
    let found ← onService (conn.fetchValue selectTable [.value (.text table)])
    if found.isNull then .fail (noIndex name)
    let rows ← onService
      (conn.fetchRows selectIndexes [.value (.text settings.schema), .value (.text name)])
    match ← faulty (rows.toItems >>= metricOfRows) with
    | none =>
      .fail (.error (.of .notSupported
        s!"index '{name}' has no HNSW operator class vectorgate recognizes"
        [("index", .text name)]))
    | some m =>
      .modify (Known.remember name m)
      return m

/-! ## Operations -/

/-- What the store can do. -/
def capabilities : Capabilities :=
  { server := "pgvector", filterDialect := "sql", maxDimensions := 2000 }

/-- Creates the table and the vector index. -/
def create (settings : Settings) (conn : Connection S) (name : String) (dimension : Nat)
    (m : Metric) : Task (State S) Failure Unit := do
  let table ← .ofExcept (tableOf settings name)
  onConnection settings conn "create_index" (some name) <| inTransaction conn do
    if settings.createExtension then onService (conn.execute createExtension [])
    onService (conn.execute (createTable table dimension) [])
    onService (conn.execute (createVectorIndex name table m) [])
  .modify (Known.remember name m)

/-- The shape of an index. -/
def describe (settings : Settings) (conn : Connection S) (name : String) :
    Task (State S) Failure Descriptor := do
  let table ← .ofExcept (tableOf settings name)
  onConnection settings conn "describe_index" (some name) do
    let m ← indexMetric settings conn name table
    let dimension ← onService (conn.fetchValue selectDimension [.value (.text table)])
    let count ← onService (conn.fetchValue (selectCount table) [])
    let dimension ← faulty dimension.toInt
    let count ← faulty (count.orElse (.int 0)).toInt
    return ⟨dimension, m, count⟩

/-- The names of the indexes. -/
def list (settings : Settings) (conn : Connection S) : Task (State S) Failure (List String) :=
  onConnection settings conn "list_indexes" none do
    let rows ← onService (conn.fetchRows selectTables [.value (.text settings.schema)])
    faulty do (← column rows "table_name").mapM Value.toText

/-- Drops an index. -/
def drop (settings : Settings) (conn : Connection S) (name : String) :
    Task (State S) Failure Unit := do
  let table ← .ofExcept (tableOf settings name)
  onConnection settings conn "delete_index" (some name)
    (onService (conn.execute (dropTable table) []))
  .modify (Known.forget name)

/-- The parameters of a record. -/
def row (r : Record) : Except Fault (List Value) := do
  let metadata ← Json.encode Json.spaced (.object r.metadata)
  return [.text r.id, .text (literal r.vector), .text metadata]

/-- Writes a chunk in one transaction. -/
def writeChunk (settings : Settings) (conn : Connection S) (name : String)
    (c : Batch.Chunk Record) : Task (State S) Failure Batch.Reported := do
  let table ← .ofExcept (tableOf settings name)
  let rows ← faulty (c.records.mapM row)
  onConnection settings conn "upsert" (some name)
    (inTransaction conn (onService (conn.executeMany (insert table) rows)))
  return []

/-- The parameters of a query: the vector, those of the filter, and the number of records. -/
def queryParameters (q : QueryRequest) (predicate : Option Filter.Compiled) :
    Except Fault (List Bound) := do
  let bindings := (predicate.map (·.bindings)).getD []
  let bound ← bindings.mapM fun b => bind (some b.type) b.value
  return .value (.text (literal q.vector)) :: (bound ++ [.value (.int q.topK)])

/-- The metadata of a row: JSON text is read. -/
def metadataOf (v : Value) : Except Fault Value :=
  match v with
  | .text s => Json.decode s
  | v => .ok v

/-- The match of a row. -/
def matchOf (m : Metric) (includeVector : Bool) (row : Value) : Except Fault Match := do
  let metadata ← metadataOf (← row.field "metadata")
  let id ← (← row.field "id").toText
  let distance ← (← row.field "distance").toFloat
  let fields ← (metadata.orElse (.object [])).toFields
  let vector ← if includeVector then parse (← row.field "embedding") else .ok none
  return ⟨id, ofOperator m distance, fields, vector⟩

/-- The predicate of a query's filter, its placeholders from the second on. -/
def predicateOf (q : QueryRequest) : Except Failure (Option Filter.Compiled) :=
  match q.filter with
  | none => .ok none
  | some fields => ((Filter.compile (.object fields) 2).mapError Filter.Refusal.failure).map some

/-- The nearest records. -/
def search (settings : Settings) (conn : Connection S) (q : QueryRequest) :
    Task (State S) Failure (List Match) := do
  let table ← .ofExcept (tableOf settings q.name)
  let predicate ← .ofExcept (predicateOf q)
  let parameters ← faulty (queryParameters q predicate)
  let (m, rows) ← onConnection settings conn "query" (some q.name) do
    let m ← indexMetric settings conn q.name table
    let rows ← onService
      (conn.fetchRows (selectNearest table m q.includeVector predicate) parameters)
    return (m, rows)
  faulty (rows.toItems >>= fun rows => rows.mapM (matchOf m q.includeVector))

/-- Closes the pool if the store opened it. -/
def close (settings : Settings) (conn : Connection S) : Task (State S) Failure Unit := do
  let st ← Task.get
  if settings.ownsPool && st.service.isOpen then
    onService conn.closePool
    .modify (setOpen false)

/-- The backend over a connection. -/
def backend (settings : Settings) (conn : Connection S) : Backend (State S) where
  component := "vector_pgvector"
  capabilities := .ret capabilities
  createIndex name dimension m _ := create settings conn name dimension m
  describeIndex name _ := describe settings conn name
  listIndexes _ := list settings conn
  deleteIndex name _ := drop settings conn name
  upsertChunk name c _ := writeChunk settings conn name c
  query q _ := search settings conn q

end VectorStore.Postgres
