/-
  The operations of a store.

  Every operation checks its arguments, then whether its deadline has passed, then asks the
  backend what it can do, and only then has the backend do its part within the time that
  remains.  How it ended is measured, and a failure is passed on unchanged.

  * `createIndex`, `describeIndex`, `listIndexes`, `deleteIndex` manage indexes;
  * `upsertWithReport` writes records in chunks and returns what was refused, `upsert` fails
    if anything was;
  * `query` returns at most as many matches as asked for, the most similar first, equally
    similar ones in the backend's order (`topMatches`).
-/
import VectorStore.Filter.Sql
import VectorStore.Store.Backend
import VectorStore.Store.Config
import VectorStore.Store.Ranking
import VectorStore.Store.Session

namespace VectorStore

/-- A backend with settings. -/
structure Store (β : Type) where
  backend : Backend β
  config : Config

namespace Store

variable {β α : Type}

/-! ## Arguments -/

/-- A refusal of an argument. -/
def invalid (message : String) (details : Fields := []) : Failure :=
  .error (.of .validation message details)

/-- A text that is not blank. -/
def requireText (name : String) : Value → Except Failure String
  | .text s =>
    if Text.allBlank s then .error (invalid s!"{name} must be a non-empty string") else .ok s
  | _ => .error (invalid s!"{name} must be a non-empty string")

/-- A positive integer. -/
def requirePositive (name : String) (v : Value) : Except Failure Nat :=
  match Batch.positive? v with
  | some n => .ok n
  | none =>
    .error (.showing v
      (.of .validation s!"{name} must be a positive integer" [(name, .text v.quoted)]))

/-- A filter that is absent, empty or well formed: its entries if it has any. -/
def requireFilter : Value → Except Failure (Option Fields)
  | .null => .ok none
  | .object [] => .ok none
  | .object (f :: fields) => do
    (Filter.validate (.object (f :: fields))).mapError Filter.Refusal.failure
    return some (f :: fields)
  | _ => .error (invalid "filter must be a mapping (dict) when provided")

/-- A truth value. -/
def requireBool (name : String) : Value → Except Failure Bool
  | .bool b => .ok b
  | _ => .error (invalid s!"{name} must be a boolean")

/-! ## Deadlines -/

/-- The failure of an operation whose deadline passed before it began. -/
def expired : Failure :=
  .error (.of .deadlineExceeded "operation timed out (preflight)" [("preflight", .bool true)])

/-- The failure of an operation whose deadline passed while it ran. -/
def timedOut : Failure := .error (.of .deadlineExceeded "operation timed out")

/-- Fails if the deadline has passed. -/
def failIfExpired (ctx : Option Context) : Task (Session β) Failure Unit :=
  match ctx with
  | none => .ret ()
  | some c => .read fun s =>
    match c.remaining s.now with
    | .error f => .fail (.fault f)
    | .ok remaining =>
      match remaining with
      | .int 0 => .fail expired
      | _ => .ret ()

/-- How much time an operation has. -/
inductive Budget where
  | unlimited
  | spent
  | left (span : Time)

/-- The budget that some milliseconds are. -/
def Budget.ofMilliseconds (remaining : Value) : Except Fault Budget :=
  match remaining with
  | .null => .ok .unlimited
  | .int 0 => .ok .spent
  | v => do return .left (Time.ofMilliseconds (← v.toFloat))

/-- A failure as it leaves an operation with a deadline: a time-out of the backend is one of
    the operation. -/
def asTimeout (f : Failure) : Failure :=
  match f with
  | .fault (.driver e) => if e.kind = .timeout then timedOut else f
  | f => f

/-- The task with the deadline of the context, if the context has one. -/
def withDeadline (ctx : Option Context)
    (t : Option (Task.Deadline Failure) → Task (Session β) Failure α) :
    Task (Session β) Failure α :=
  let guarded (d : Option (Task.Deadline Failure)) := (t d).recover fun f => .fail (asTimeout f)
  match ctx with
  | none => guarded none
  | some c => .read fun s =>
    match c.remaining s.now >>= Budget.ofMilliseconds with
    | .error f => .fail (.fault f)
    | .ok .unlimited => guarded none
    | .ok .spent => .fail timedOut
    | .ok (.left span) => guarded (some ⟨s.clock + span, timedOut⟩)

/-- A task of the backend within the deadline of the context. -/
def byDeadline (ctx : Option Context) (t : Task β Failure α) : Task (Session β) Failure α :=
  withDeadline ctx fun d => (Session.ofBackend t).bounded d

/-! ## Measuring -/

/-- The task with its failure measured; a cancellation is not. -/
def measured (st : Store β) (operation : String) (ctx : Option Context) (extra : Fields)
    (body : Time → Task (Session β) Failure α) : Task (Session β) Failure α :=
  .read fun s₀ => (body s₀.clock).recover fun f =>
    if f.isCancellation then .fail f
    else
      (Task.modify
        (Session.observe st.backend.component operation s₀.clock false f.code ctx extra)).andThen
          fun _ => .fail f

/-- Measures the success of an operation that began at `began`. -/
def succeed (st : Store β) (operation : String) (began : Time) (ctx : Option Context)
    (extra : Fields) : Task (Session β) Failure Unit :=
  .modify (Session.observe st.backend.component operation began true "OK" ctx extra)

/-! ## Operations -/

/-- The failure to find out what a backend can do. -/
def capabilitiesFailure (f : Failure) : Failure :=
  match f with
  | .fault _ =>
    if f.isCancellation then f
    else .chained (.of .unavailable "capabilities fetch failed") f
  | f => f

/-- What the backend can do. -/
def capabilities (st : Store β) : Task (Session β) Failure Capabilities :=
  (st.measured "capabilities" none [] fun began => do
    let caps ← Session.ofBackend st.backend.capabilities
    st.succeed "capabilities" began none []
    return caps).recover fun f => .fail (capabilitiesFailure f)

/-- The name of the log that operations write to. -/
def logger : String := "vectorgate.vector_base"

/-- The name of the log that batched writes write to. -/
def batchLogger : String := "vectorgate.batching"

/-- Refuses an index that the backend cannot hold. -/
def checkIndex (caps : Capabilities) (dimension : Nat) (m : Metric) : Except Failure Unit := do
  if caps.maxDimensions ≠ 0 ∧ caps.maxDimensions < dimension then
    .error (.showing (.list [.int dimension, .int caps.maxDimensions]) (.of .validation
      s!"dimension {Number.natText dimension} exceeds maximum of {Number.intText caps.maxDimensions}"
      [("max_dimensions", .int caps.maxDimensions)]))
  if !caps.supportedMetrics.contains m.name then
    .error (.error (.of .notSupported s!"metric '{m.name}' not supported"
      [("supported_metrics", .list (caps.supportedMetrics.map .text))]))

/-- Creates an index. -/
def createIndex (st : Store β) (name dimension metric : Value) (ctx : Option Context) :
    Task (Session β) Failure Unit := do
  let name ← .ofExcept (requireText "name" name)
  let dimension ← .ofExcept (requirePositive "dimension" dimension)
  let m ← .ofExcept (Metric.ofValue metric)
  failIfExpired ctx
  let index : String × Value := ("index", .text name)
  st.measured "create_index" ctx [index] fun began => do
    let caps ← st.capabilities
    .ofExcept (checkIndex caps dimension m)
    byDeadline ctx (st.backend.createIndex name dimension m ctx)
    st.succeed "create_index" began ctx [index, ("metric", .text m.name)]

/-- The shape of an index. -/
def describeIndex (st : Store β) (name : Value) (ctx : Option Context) :
    Task (Session β) Failure Descriptor := do
  let name ← .ofExcept (requireText "name" name)
  failIfExpired ctx
  st.measured "describe_index" ctx [("index", .text name)] fun began => do
    let d ← byDeadline ctx (st.backend.describeIndex name ctx)
    st.succeed "describe_index" began ctx [("index", .text name)]
    return d

/-- The names of all indexes. -/
def listIndexes (st : Store β) (ctx : Option Context) :
    Task (Session β) Failure (List String) := do
  failIfExpired ctx
  st.measured "list_indexes" ctx [] fun began => do
    let names ← byDeadline ctx (st.backend.listIndexes ctx)
    st.succeed "list_indexes" began ctx [("indexes", .int names.length)]
    return names

/-- Drops an index and all its records. -/
def deleteIndex (st : Store β) (name : Value) (ctx : Option Context) :
    Task (Session β) Failure Unit := do
  let name ← .ofExcept (requireText "name" name)
  failIfExpired ctx
  st.measured "delete_index" ctx [("index", .text name)] fun began => do
    byDeadline ctx (st.backend.deleteIndex name ctx)
    st.succeed "delete_index" began ctx [("index", .text name)]

/-- The records of a write; ids are drawn from the session's supply. -/
def takeRecords (vectors metadata ids : Value) : Task (Session β) Failure (List Record) :=
  .read fun s =>
    let (records, drawn) := Record.buildRecords s.drawn vectors metadata ids
    .write { s with drawn := drawn } (.ofExcept records)

/-- The records of one write: as many as the settings say and the backend takes. -/
def batchSize (config : Config) (caps : Capabilities) : Int :=
  match caps.maxBatchSize with
  | some n => min config.batchSize n
  | none => config.batchSize

/-- Writes records under the name of an operation. -/
def runUpsert (st : Store β) (operation : String) (name vectors metadata ids : Value)
    (ctx : Option Context) : Task (Session β) Failure Batch.Outcome := do
  let name ← .ofExcept (requireText "name" name)
  let records ← takeRecords vectors metadata ids
  failIfExpired ctx
  st.measured operation ctx [("index", .text name)] fun began => do
    let caps ← st.capabilities
    let outcome ← withDeadline ctx fun deadline =>
      Batch.upsert Record.id (fun c => Session.ofBackend (st.backend.upsertChunk name c ctx))
        (Session.warn batchLogger) deadline records (.int (batchSize st.config caps))
        (.int st.config.batchMaxConcurrency)
    let failed := outcome.failures.length
    if failed ≠ 0 then
      .modify (Session.warn logger
        (s!"upsert into {Text.quoted name}: backend rejected {Number.natText failed} of " ++
          s!"{Number.natText records.length} record(s)"))
    st.succeed operation began ctx [("index", .text name), ("records", .int records.length),
      ("chunks", .int outcome.chunks), ("failed", .int failed)]
    Session.count st.backend.component "vectors_upserted" (records.length - failed)
    return outcome

/-- Writes records and returns what was refused. -/
def upsertWithReport (st : Store β) (name vectors metadata ids : Value) (ctx : Option Context) :
    Task (Session β) Failure Batch.Outcome :=
  st.runUpsert "upsert_with_report" name vectors metadata ids ctx

/-- Writes records and returns their ids; fails if any was refused. -/
def upsert (st : Store β) (name vectors metadata ids : Value) (ctx : Option Context) :
    Task (Session β) Failure (List String) := do
  let outcome ← st.runUpsert "upsert" name vectors metadata ids ctx
  if outcome.failures.isEmpty then return outcome.ids
  else
    .fail (.error (.partialWrite
      (s!"{Number.natText outcome.failures.length} of {Number.natText outcome.ids.length} " ++
        "record(s) were rejected")
      (outcome.ids.map .text) (outcome.failures.map .object)))

/-- The most results that a query may ask for, if there is a limit. -/
def topKLimit (config : Config) (caps : Capabilities) : Option Int :=
  match caps.maxTopK, config.maxTopK with
  | some n, some m => some (min m n)
  | some n, none => some n
  | none, some m => some m
  | none, none => none

/-- Refuses a query that asks for more than the limit. -/
def checkTopK (config : Config) (caps : Capabilities) (topK : Nat) : Except Failure Unit :=
  match topKLimit config caps with
  | none => .ok ()
  | some limit =>
    if limit < topK then
      .error (.showing (.list [.int topK, .int limit]) (.of .validation
        s!"top_k {Number.natText topK} exceeds maximum of {Number.intText limit}"
        [("max_top_k", .int limit)]))
    else .ok ()

/-- Refuses a filter that would not be enforced, or warns that it is not. -/
def checkFilter (st : Store β) (caps : Capabilities) (name : String) (filter : Option Fields) :
    Task (Session β) Failure Unit :=
  if filter.isNone || caps.enforcesFilters then .ret ()
  else if !st.config.strictFilters.isVoid then
    .fail (.error (.of .notSupported s!"{caps.server} does not enforce metadata filters"
      [("server", .text caps.server), ("filter_dialect", .text caps.filterDialect)]))
  else
    .modify (Session.warn logger
      (s!"{caps.server} does not enforce metadata filters; results for {Text.quoted name} " ++
        "are unfiltered"))

/-- The records most similar to a vector among those that meet a filter. -/
def query (st : Store β) (name vector topK filter includeVector : Value) (ctx : Option Context) :
    Task (Session β) Failure (List Match) := do
  let name ← .ofExcept (requireText "name" name)
  let xs ← .ofExcept (Record.vectorOf "vector" vector)
  let k ← .ofExcept (requirePositive "top_k" topK)
  let filter ← .ofExcept (requireFilter filter)
  let includeVector ← .ofExcept (requireBool "include_vector" includeVector)
  failIfExpired ctx
  let about : Fields := [("index", .text name), ("top_k", .int k)]
  st.measured "query" ctx about fun began => do
    let caps ← st.capabilities
    .ofExcept (checkTopK st.config caps k)
    st.checkFilter caps name filter
    let found ← byDeadline ctx (st.backend.query ⟨name, xs, k, filter, includeVector⟩ ctx)
    let results := topMatches k found
    st.succeed "query" began ctx (about ++ [("matches", .int results.length)])
    Session.count st.backend.component "queries" 1
    return results

end Store

end VectorStore
