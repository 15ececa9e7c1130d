/-
  A Vectorize service that plays a script.

  All answers are scripted.  Every call is noted and then plays its rule.
-/
import VectorStore.Rehearsal.Rule
import VectorStore.Vectorize.Store

namespace VectorStore.Rehearsal

/-- A script for the service. -/
structure VectorizeScript where
  config : Vectorize.IndexConfig := ⟨.int 4, .text "cosine"⟩
  info : Vectorize.IndexInfo := ⟨.null, .null⟩
  names : List Value := []
  found : List Vectorize.Found := []
  rules : Rules := []

/-- A call of the service. -/
inductive VectorizeCall where
  | create (name : String) (dimension : Nat) (metric : String)
  | config (name : String)
  | info (name : String)
  | names
  | delete (name : String)
  | upsert (name : String) (body : String)
  | search (s : Vectorize.Search)

/-- The name of a call. -/
def VectorizeCall.name : VectorizeCall → String
  | create .. => "create"
  | config _ => "get"
  | info _ => "info"
  | names => "list"
  | delete _ => "delete"
  | upsert .. => "upsert"
  | search _ => "query"

/-- The state of a scripted service. -/
structure VectorizeStage where
  script : VectorizeScript
  calls : List VectorizeCall := []

namespace VectorizeStage

/-- Notes a call, plays its rule, and gives the script. -/
def play (call : VectorizeCall) : Task VectorizeStage Failure VectorizeScript := do
  .modify fun st => { st with calls := st.calls ++ [call] }
  let st ← Task.get
  (st.script.rules.ruleOf call.name).play
  return st.script

/-- The client of the scripted service. -/
def client : Vectorize.Client VectorizeStage where
  create name dimension metric := do
    let _ ← play (.create name dimension metric)
  config name := do return (← play (.config name)).config
  info name := do return (← play (.info name)).info
  names := do return (← play .names).names
  delete name := do
    let _ ← play (.delete name)
  upsert name body := do
    let _ ← play (.upsert name body)
  search s := do return (← play (.search s)).found

/-- The stage without its calls. -/
def cleared (st : VectorizeStage) : VectorizeStage := { st with calls := [] }

end VectorizeStage

end VectorStore.Rehearsal
