/-
  Batched writes.

  Records are cut into chunks, each chunk is written, and the outcomes are put together in
  the order of the chunks, whatever the order in which they ended.

  * When a writer fails, no further chunk is started.  If no chunk was written the failure is
    the outcome, otherwise an error that names the first failed chunk and the ids of every
    record written (`failedAt`).
  * A writer may report items that the service refused; `placed` gives them their position
    among all records.
-/
import VectorStore.Batch.Dispatch
import VectorStore.Value.Coercion

namespace VectorStore.Batch

/-- The outcome of a batched write. -/
structure Outcome where
  /-- the ids of all records in their order -/
  ids : List String
  /-- what the service refused -/
  failures : List Fields
  /-- the number of writes -/
  chunks : Nat

/-- What a writer reports: the items that were refused. -/
abbrev Reported := List Fields

/-- A reported item with its position among all records and the number of its chunk. -/
def placed (c : Chunk α) (item : Fields) : Except Fault Fields := do
  let position ← ((Fields.get? item "index").getD (.int 0)).toInt
  let entry := Fields.put item "index" (.int (c.offset + position))
  return if Fields.has entry "chunk_index" then entry
    else Fields.put entry "chunk_index" (.int c.index)

/-- The code under which a failure is reported as a cause. -/
def causeCode (f : Failure) : String :=
  match f.storeError? with
  | some e => if e.code.isEmpty then f.label else e.code
  | none => f.label

/-- The failure of a write at a chunk, when some records were written and when none was. -/
def failedAt (c : Chunk α) (cause : Failure) (committed : List String) : Failure :=
  if committed.isEmpty then cause
  else
    .chained
      (.of .batchUpsert
        (s!"upsert failed at chunk {Number.natText c.index} (offset {Number.natText c.offset}); " ++
          s!"{Number.natText committed.length} record(s) already committed")
        [("chunk_index", .int c.index), ("chunk_offset", .int c.offset),
          ("chunk_size", .int c.records.length), ("committed_ids", .list (committed.map .text)),
          ("cause_code", .text (causeCode cause))])
      cause

/-- The failure of a chunk, if it ended with one. -/
def failureOf (d : Dispatch α (Except Failure Reported)) (c : Chunk α) : Option Failure :=
  match d.outcome? c with
  | some (.error f) => some f
  | _ => none

/-- What a chunk reported, if it was written. -/
def reportOf (d : Dispatch α (Except Failure Reported)) (c : Chunk α) : Option Reported :=
  match d.outcome? c with
  | some (.ok r) => some r
  | _ => none

/-- The ids of the records that were written, in the order of the chunks. -/
def committedIds (idOf : α → String) (d : Dispatch α (Except Failure Reported))
    (chunks : List (Chunk α)) : List String :=
  (chunks.filter fun c => (reportOf d c).isSome).flatMap fun c => c.records.map idOf

/-- The first chunk that failed, with its failure. -/
def firstFailed (d : Dispatch α (Except Failure Reported)) (chunks : List (Chunk α)) :
    Option (Chunk α × Failure) :=
  chunks.findSome? fun c => (failureOf d c).map fun f => (c, f)

/-- The first cancellation among the outcomes. -/
def firstCancelled (d : Dispatch α (Except Failure Reported)) (chunks : List (Chunk α)) :
    Option Failure :=
  chunks.findSome? fun c => (failureOf d c).filter Failure.isCancellation

/-- All reported items, placed, in the order of the chunks. -/
def allPlaced (d : Dispatch α (Except Failure Reported)) (chunks : List (Chunk α)) :
    Except Fault (List Fields) := do
  let perChunk ← chunks.mapM fun c => ((reportOf d c).getD []).mapM (placed c)
  return perChunk.flatten

/-- The outcome of a write whose chunks have all ended or were never started. -/
def conclude (idOf : α → String) (records : List α) (chunks : List (Chunk α))
    (d : Dispatch α (Except Failure Reported)) : Except Failure Outcome :=
  match firstCancelled d chunks with
  | some f => .error f
  | none =>
    match firstFailed d chunks with
    | some (c, f) => .error (failedAt c f (committedIds idOf d chunks))
    | none =>
      match allPlaced d chunks with
      | .error f => .error (.fault f)
      | .ok failures => .ok ⟨records.map idOf, failures, chunks.length⟩

/-- A failure as it leaves chunks that were written side by side: of a cancellation only that
    it happened is known. -/
def gathered (f : Failure) : Failure := if f.isCancellation then .fault .cancelled else f

/-- The refusal of a number of writes at a time. -/
def concurrencyRefusal : StoreError :=
  .of .validation "max_concurrency must be a positive integer"

/-- The warning about refused items. -/
def refusedWarning (n : Nat) : String :=
  s!"batched upsert reported {Number.natText n} per-item failure(s)"

/-- Writes the records in chunks of `size`, at most `concurrency` at a time, within the
    deadline if there is one; `warn` takes the warning about refused items.  One chunk after
    another, any failure stops the write; side by side, a cancellation stops no other chunk. -/
def upsert {σ α : Type} [Clocked σ] (idOf : α → String) (write : Chunk α → Task σ Failure Reported)
    (warn : String → σ → σ) (deadline : Option (Task.Deadline Failure)) (records : List α)
    (size concurrency : Value) : Task σ Failure Outcome :=
  match positive? concurrency, positive? size with
  | none, _ => .fail (.error concurrencyRefusal)
  | _, none => .fail (sizeRefusal size)
  | some limit, some size =>
    let cs := chunks size records
    let alone := limit == 1 || cs.length ≤ 1
    let halts := fun f : Failure => alone || !f.isCancellation
    (writeAll (if alone then 1 else limit) deadline write halts cs).andThen fun d =>
      match conclude idOf records cs d with
      | .error f => .fail (if alone then f else gathered f)
      | .ok outcome =>
        if outcome.failures.isEmpty then .ret outcome
        else (Task.modify (warn (refusedWarning outcome.failures.length))).andThen fun _ =>
          .ret outcome

end VectorStore.Batch
