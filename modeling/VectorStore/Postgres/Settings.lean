/-
  Where the database is and how indexes are laid out in it.

  Indexes are tables of one schema.  The connection pool is given, or opened for a data
  source name that the options or the environment bring.
-/
import VectorStore.Filter.Sql
import VectorStore.Store.Config
import VectorStore.Value.Coercion

namespace VectorStore.Postgres

/-- The longest name of a schema or an index. -/
def maxNameLength : Nat := 48

/-- Whether a text is the name of a schema or an index: an identifier that is not too long. -/
def isName (s : String) : Bool :=
  Filter.isIdentifier s && (Filter.withoutFinalFeed s.toList).length ≤ maxNameLength

/-- Where the database is and how indexes are laid out in it. -/
structure Settings where
  schema : String
  dsn : Value
  createExtension : Bool
  minPoolSize : Int
  maxPoolSize : Int
  /-- whether the pool is opened and closed by the store -/
  ownsPool : Bool

/-- The refusal of a schema's name. -/
def badSchema (v : Value) : Failure :=
  .showing v
    (.of .validation "schema must be a plain SQL identifier" [("schema", .text v.quoted)])

/-- The failure to find a data source. -/
def noSource : Failure :=
  .error (.of .validation
    "PgVectorStore needs a pool, a dsn, or PGVECTOR_DSN / DATABASE_URL in the environment")

/-- The settings of the given options. -/
def Settings.ofOptions (options : Fields) (env : Config.Environment) : Except Failure Settings := do
  let option (name : String) (fallback : Value) := (Fields.get? options name).getD fallback
  let schema ← match option "schema" (.text "public") with
    | .text s => if isName s then .ok s else .error (badSchema (.text s))
    | v => .error (badSchema v)
  let given := !(option "pool" .null).isNull
  let source := ((option "dsn" .null).orElse (Config.setting env "PGVECTOR_DSN")).orElse
    (Config.setting env "DATABASE_URL")
  if !given && source.isVoid then .error noSource
  let least ← ((option "min_pool_size" (.int 1)).toInt).mapError .fault
  let most ← ((option "max_pool_size" (.int 10)).toInt).mapError .fault
  return {
    schema
    dsn := if given then option "dsn" .null else source
    createExtension := !(option "create_extension" (.bool true)).isVoid
    minPoolSize := least
    maxPoolSize := most
    ownsPool := !given }

end VectorStore.Postgres
