/-
  The store in memory with faults in front of it.

  Each operation of the backend is noted, plays the next rule of its script, and is then
  carried out.  A rule may replace what a query finds or how many records an index reports;
  the rule of a chunk may report items as refused after the chunk was written.
-/
import VectorStore.Memory.Store
import VectorStore.Rehearsal.Writing

namespace VectorStore.Rehearsal

/-- What happens at an operation of the backend. -/
structure Step where
  rule : Rule := {}
  /-- the number of records to report -/
  count : Option Int := none
  /-- what a query is to find -/
  found : Option (List Match) := none

/-- A script for the store in memory. -/
structure MemoryScript where
  /-- the steps of each operation, one for each call -/
  steps : List (String × List Step) := []
  /-- the rules of chunks by their offset -/
  chunks : List (String × ChunkRule) := []
  /-- what the backend says it can do -/
  capabilities : Capabilities → Capabilities := id

/-- An operation of the backend with its arguments. -/
structure MemoryCall where
  operation : String
  arguments : List Value
  ctx : Option Context

/-- The state of a rehearsed store. -/
structure MemoryStage where
  script : MemoryScript
  calls : List MemoryCall := []
  store : Memory.State := []

namespace MemoryStage

/-- Notes a call and takes the step that is next for its operation. -/
def enter (operation : String) (arguments : List Value) (ctx : Option Context) :
    Task MemoryStage Failure Step :=
  .read fun st =>
    let steps := (Fields.get? st.script.steps operation).getD []
    let script := { st.script with steps := Fields.put st.script.steps operation steps.tail }
    .write { st with script, calls := st.calls ++ [⟨operation, arguments, ctx⟩] }
      (.ret (steps.head?.getD {}))

/-- A task of the store. -/
def inner (t : Task Memory.State Failure α) : Task MemoryStage Failure α :=
  t.zoom MemoryStage.store fun s st => { st with store := s }

/-- Notes a call, plays its rule and carries it out. -/
def perform (operation : String) (arguments : List Value) (ctx : Option Context)
    (t : Step → Task Memory.State Failure α) : Task MemoryStage Failure α := do
  let step ← enter operation arguments ctx
  step.rule.play
  inner (t step)

/-- The shape of an index with the number of records that the step reports. -/
def Step.reported (step : Step) (d : Descriptor) : Descriptor :=
  { d with count := step.count.getD d.count }

/-- The backend in memory with its script in front of it. -/
def backend (name : String) : Backend MemoryStage :=
  let plain := Memory.backend name
  { component := plain.component
    capabilities := do
      let caps ← perform "capabilities" [] none fun _ => plain.capabilities
      let st ← Task.get
      return st.script.capabilities caps
    createIndex := fun index dimension m ctx =>
      perform "create_index" [.text index, .int dimension, .text m.name] ctx fun _ =>
        plain.createIndex index dimension m ctx
    describeIndex := fun index ctx =>
      perform "describe_index" [.text index] ctx fun step =>
        (plain.describeIndex index ctx).andThen fun d => .ret (Step.reported step d)
    listIndexes := fun ctx => perform "list_indexes" [] ctx fun _ => plain.listIndexes ctx
    deleteIndex := fun index ctx =>
      perform "delete_index" [.text index] ctx fun _ => plain.deleteIndex index ctx
    upsertChunk := fun index c ctx => do
      let ids := Value.list (c.records.map fun r => .text r.id)
      let step ← enter "upsert_chunk" [.text index, .int c.offset, ids] ctx
      let st ← Task.get
      let rule := (Fields.get? st.script.chunks (Number.natText c.offset)).getD {}
      step.rule.play
      rule.rule.play
      let _ ← inner (plain.upsertChunk index c ctx)
      return rule.failures
    query := fun q ctx =>
      let arguments := [.text q.name, .ofVector q.vector, .int q.topK,
        (q.filter.map Value.object).getD .null, .bool q.includeVector]
      perform "query" arguments ctx fun step =>
        match step.found with
        | some matchs => .ret matchs
        | none => plain.query q ctx }

/-- The stage without its calls. -/
def cleared (st : MemoryStage) : MemoryStage := { st with calls := [] }

end MemoryStage

end VectorStore.Rehearsal
