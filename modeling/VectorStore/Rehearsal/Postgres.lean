/-
  A database that plays a script.

  Every call is noted.  A statement is answered by the first rule that names a part of its
  text and brings a result, and otherwise by what the script says of the catalog and the
  tables.
-/
import VectorStore.Postgres.Store
import VectorStore.Rehearsal.Rule

namespace VectorStore.Rehearsal

open Postgres (Bound Connection)

/-- What happens at a statement that contains a text. -/
structure StatementRule where
  contains : String
  rule : Rule
  result : Option Value

/-- A script for a database. -/
structure PostgresScript where
  acquire : Rule := {}
  openPool : Rule := {}
  rules : List StatementRule := []
  /-- whether tables exist -/
  tableExists : Bool := true
  /-- the definitions of indexes -/
  definitions : List Value := []
  dimension : Value := .int 4
  count : Value := .int 0
  rows : Value := .list []
  tables : List Value := []

/-- A call of the database. -/
inductive PostgresCall where
  | acquire
  | begins
  | commits
  | rollsBack
  | execute (statement : String) (parameters : List Bound)
  | fetchValue (statement : String) (parameters : List Bound)
  | fetchRows (statement : String) (parameters : List Bound)
  | executeMany (statement : String) (rows : List (List Value))
  | openPool (dsn : Value) (least most : Int)
  | closePool

/-- The state of a scripted database. -/
structure PostgresStage where
  script : PostgresScript
  calls : List PostgresCall := []

namespace PostgresStage

/-- The state with a call noted. -/
def noted (call : PostgresCall) (st : PostgresStage) : PostgresStage :=
  { st with calls := st.calls ++ [call] }

/-- Notes a call and plays the rule that the script has for it. -/
def play (call : PostgresCall) (rule : PostgresScript → Rule) : Task PostgresStage Failure Unit :=
  .read fun st => .write (st.noted call) (rule st.script).play

/-- What the script says of the catalog and the tables. -/
def answer (script : PostgresScript) (statement : String) (parameters : List Bound) : Value :=
  let named (name : String) (vs : List Value) := Value.list (vs.map fun v => .object [(name, v)])
  let mentions (part : String) : Bool := Text.occursIn part statement
  if Postgres.selectTable.toList.isPrefixOf statement.toList then
    match script.tableExists, parameters with
    | true, .value v :: _ => v
    | _, _ => .null
  else if mentions "pg_indexes" then named "indexdef" script.definitions
  else if mentions "atttypmod" then script.dimension
  else if mentions "count(*)" then script.count
  else if mentions "ORDER BY distance" then script.rows
  else if mentions "information_schema" then named "table_name" script.tables
  else .null

/-- Plays the rules for a statement: the result of the first that brings one. -/
def applyRules (statement : String) : List StatementRule → Task PostgresStage Failure (Option Value)
  | [] => .ret none
  | r :: rules =>
    if Text.occursIn r.contains statement then
      r.rule.play.andThen fun _ =>
        match r.result with
        | some v => .ret (some v)
        | none => applyRules statement rules
    else applyRules statement rules

/-- Notes a call and answers its statement. -/
def run (call : PostgresCall) (statement : String) (parameters : List Bound) :
    Task PostgresStage Failure Value := do
  .modify (noted call)
  let st ← Task.get
  let result ← applyRules statement st.script.rules
  return result.getD (answer st.script statement parameters)

/-- The connection to the scripted database. -/
def connection : Connection PostgresStage where
  openPool dsn least most := play (.openPool dsn least most) PostgresScript.openPool
  closePool := .modify (noted .closePool)
  acquire := play .acquire PostgresScript.acquire
  release := .ret ()
  begin := .modify (noted .begins)
  commit := .modify (noted .commits)
  rollBack := .modify (noted .rollsBack)
  rollsBack := noted .rollsBack
  releases := id
  execute statement parameters := do
    let _ ← run (.execute statement parameters) statement parameters
  fetchValue statement parameters := run (.fetchValue statement parameters) statement parameters
  fetchRows statement parameters := run (.fetchRows statement parameters) statement parameters
  executeMany statement rows := do
    let _ ← run (.executeMany statement rows) statement []

/-- The stage without its calls. -/
def cleared (st : PostgresStage) : PostgresStage := { st with calls := [] }

end PostgresStage

end VectorStore.Rehearsal
