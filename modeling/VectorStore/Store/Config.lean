/-
  Settings of a store.

  `Config.ofFields` takes named settings, `Config.ofEnvironment` reads them from environment
  variables; both refuse counts that are not positive integers.
-/
import VectorStore.Batch.Chunk
import VectorStore.Number.Reader
import VectorStore.Text.Search

namespace VectorStore

/-- Settings of a store. -/
structure Config where
  /-- records per write -/
  batchSize : Nat
  /-- writes at a time -/
  batchMaxConcurrency : Nat
  /-- whether filtered queries are refused where filters are not enforced; a document that
      stands for "nothing given" means no -/
  strictFilters : Value
  /-- the most results a query may ask for -/
  maxTopK : Option Nat

namespace Config

/-- The records of a write when nothing is said. -/
def defaultBatchSize : Nat := 256

/-- The settings when nothing is said. -/
def default : Config := ⟨defaultBatchSize, 1, .bool false, none⟩

/-- A count that has to be a positive integer. -/
def count (name : String) (v : Value) : Except Fault Nat :=
  match Batch.positive? v with
  | some n => .ok n
  | none => .error (.badSetting s!"{name} must be a positive integer")

/-- A bound that is null or a positive integer. -/
def bound (name : String) (v : Value) : Except Fault (Option Nat) :=
  if v.isNull then .ok none
  else match Batch.positive? v with
    | some n => .ok (some n)
    | none => .error (.badSetting s!"{name} must be a positive integer when set")

/-- The settings of the given documents. -/
def ofValues (batchSize batchMaxConcurrency strictFilters maxTopK : Value) :
    Except Fault Config := do
  let size ← count "batch_size" batchSize
  let concurrency ← count "batch_max_concurrency" batchMaxConcurrency
  let topK ← bound "max_top_k" maxTopK
  return ⟨size, concurrency, strictFilters, topK⟩

/-- The settings that an object names. -/
def ofFields (fields : Fields) : Except Fault Config :=
  let named (name : String) (fallback : Value) := (Fields.get? fields name).getD fallback
  ofValues (named "batch_size" (.int defaultBatchSize)) (named "batch_max_concurrency" (.int 1))
    (named "strict_filters" (.bool false)) (named "max_top_k" .null)

/-- Environment variables. -/
abbrev Environment := List (String × String)

/-- A variable as a document, null if it is not set. -/
def setting (env : Environment) (name : String) : Value :=
  ((Fields.get? env name).map Value.text).getD .null

/-- The value of a variable that is set and not blank. -/
def lookUp? (env : Environment) (name : String) : Option String :=
  (Fields.get? env name).filter (!Text.allBlank ·)

/-- An integer from a variable. -/
def integerFrom (env : Environment) (name : String) (fallback : Value) : Except Fault Value :=
  match lookUp? env name with
  | none => .ok fallback
  | some raw =>
    match Number.readInt? raw with
    | some n => .ok (.int n)
    | none => .error (.badSetting s!"{name} must be an integer, got {Text.quoted raw}")

/-- A truth value from a variable. -/
def truthFrom (env : Environment) (name : String) : Bool :=
  match lookUp? env name with
  | none => false
  | some raw => ["1", "true", "yes", "on"].contains (Text.asciiLower (Text.trimmed raw))

/-- The settings of the environment. -/
def ofEnvironment (env : Environment) : Except Fault Config := do
  let size ← integerFrom env "VECTORGATE_BATCH_SIZE" (.int defaultBatchSize)
  let concurrency ← integerFrom env "VECTORGATE_BATCH_CONCURRENCY" (.int 1)
  let topK ← integerFrom env "VECTORGATE_MAX_TOP_K" .null
  ofValues size concurrency (.bool (truthFrom env "VECTORGATE_STRICT_FILTERS")) topK

/-- The settings as an object. -/
def toValue (c : Config) : Value :=
  .object [("batch_size", .int c.batchSize), ("batch_max_concurrency", .int c.batchMaxConcurrency),
    ("strict_filters", c.strictFilters), ("max_top_k", (c.maxTopK.map fun n => .int n).getD .null)]

end Config

end VectorStore
