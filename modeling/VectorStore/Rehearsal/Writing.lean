/-
  A writer of chunks that plays a script.

  The rules are chosen by the offset of the chunk.  What happens is noted with its time: when
  a chunk is started, when it is done, and when it fails.
-/
import VectorStore.Batch.Upsert
import VectorStore.Rehearsal.Rule

namespace VectorStore.Rehearsal

/-- What happens to a chunk. -/
structure ChunkRule where
  rule : Rule := {}
  /-- the items that the writer reports as refused -/
  failures : Batch.Reported := []

/-- Something that happened to the chunk at an offset. -/
inductive Moment where
  | started (offset : Nat) (ids : List String) (time : Time)
  | done (offset : Nat) (time : Time)
  | failed (offset : Nat) (time : Time)

/-- The state of a rehearsed write. -/
structure Writing where
  clock : Time := 0
  moments : List Moment := []
  warnings : List String := []

instance : Clocked Writing where
  clock := Writing.clock
  atTime time w := { w with clock := time }

namespace Writing

/-- Notes something that happens now. -/
def note (moment : Time → Moment) : Task Writing Failure Unit :=
  .modify fun w => { w with moments := w.moments ++ [moment w.clock] }

/-- Takes a warning. -/
def warn (message : String) (w : Writing) : Writing :=
  { w with warnings := w.warnings ++ [message] }

/-- Writes a chunk of ids. -/
def write (rules : List (String × ChunkRule)) (c : Batch.Chunk String) :
    Task Writing Failure Batch.Reported := do
  let r := (Fields.get? rules (Number.natText c.offset)).getD {}
  note (.started c.offset c.records)
  r.rule.play.recover fun f => do
    note (.failed c.offset)
    .fail f
  note (.done c.offset)
  return r.failures

/-- Writes records that are their ids. -/
def upsert (rules : List (String × ChunkRule)) (ids : List String) (size concurrency : Value) :
    Except Failure Batch.Outcome × Writing :=
  (Batch.upsert id (write rules) warn none ids size concurrency).run {}

end Writing

end VectorStore.Rehearsal
