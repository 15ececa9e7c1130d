/-
  A Qdrant service that plays a script.

  The service knows which collections exist; every other answer is scripted.  Every call is
  noted and then plays its rule.
-/
import VectorStore.Qdrant.Store
import VectorStore.Rehearsal.Rule

namespace VectorStore.Rehearsal

/-- A script for the service. -/
structure QdrantScript where
  existing : List String := []
  collection : Qdrant.Collection := ⟨.single ⟨.int 4, .plain (.text "Cosine")⟩, .null⟩
  points : List Qdrant.Found := []
  /-- whether lists are left out of answers -/
  nullLists : Bool := false
  rules : Rules := []

/-- A call of the service. -/
inductive QdrantCall where
  | collectionExists (name : String)
  | createCollection (name : String) (size : Nat) (distance : String)
  | deleteCollection (name : String)
  | collection (name : String)
  | collectionNames
  | upsert (name : String) (points : List Qdrant.Point)
  | search (s : Qdrant.Search)
  | close

/-- The name of a call. -/
def QdrantCall.name : QdrantCall → String
  | collectionExists _ => "collection_exists"
  | createCollection .. => "create_collection"
  | deleteCollection _ => "delete_collection"
  | collection _ => "get_collection"
  | collectionNames => "get_collections"
  | upsert .. => "upsert"
  | search _ => "query_points"
  | close => "close"

/-- The state of a scripted service. -/
structure QdrantStage where
  script : QdrantScript
  calls : List QdrantCall := []

namespace QdrantStage

/-- Notes a call, plays its rule, and gives the state after it. -/
def play (call : QdrantCall) : Task QdrantStage Failure QdrantStage := do
  .modify fun st => { st with calls := st.calls ++ [call] }
  let st ← Task.get
  (st.script.rules.ruleOf call.name).play
  Task.get

/-- Changes the collections. -/
def setExisting (f : List String → List String) : Task QdrantStage Failure Unit :=
  .modify fun st => { st with script := { st.script with existing := f st.script.existing } }

/-- The client of the scripted service. -/
def client : Qdrant.Client QdrantStage where
  collectionExists name := do
    let st ← play (.collectionExists name)
    return st.script.existing.contains name
  createCollection name size distance := do
    let _ ← play (.createCollection name size distance)
    setExisting fun names => if names.contains name then names else names ++ [name]
  deleteCollection name := do
    let _ ← play (.deleteCollection name)
    setExisting fun names => names.filter (· ≠ name)
  collection name := do
    let st ← play (.collection name)
    return st.script.collection
  collectionNames := do
    let st ← play .collectionNames
    let names := st.script.existing.mergeSort fun a b => !(b < a)
    return if st.script.nullLists then [] else names.map .text
  upsert name points := do
    let _ ← play (.upsert name points)
  search s := do
    let st ← play (.search s)
    return if st.script.nullLists then [] else st.script.points
  close := do
    let _ ← play .close

/-- The stage without its calls. -/
def cleared (st : QdrantStage) : QdrantStage := { st with calls := [] }

end QdrantStage

end VectorStore.Rehearsal
