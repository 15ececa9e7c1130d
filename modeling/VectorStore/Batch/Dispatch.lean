/-
  The order in which chunks are written.

  A `Dispatch` holds the chunks that wait, those that are being written and those that are
  done.  Two events change it: `next?` takes the next chunk when a writer is free and
  nothing has failed, `finish` notes how a chunk ended.  Writers (`worker`) drive the one
  `Dispatch` they share: a single one writes chunk after chunk, several go on side by side
  (`writeAll`).
-/
import VectorStore.Batch.Chunk
import VectorStore.Task.SideBySide

namespace VectorStore.Batch

/-- The state of a batched write. -/
structure Dispatch (α ρ : Type) where
  /-- the most chunks that may be written at a time -/
  limit : Nat
  pending : List (Chunk α)
  flying : List (Chunk α)
  /-- the chunks that ended, in the order in which they did -/
  ended : List (Chunk α × ρ)
  /-- whether no further chunk may be started -/
  aborted : Bool

namespace Dispatch

variable {α ρ : Type}

/-- The state before anything is written. -/
def start (limit : Nat) (chunks : List (Chunk α)) : Dispatch α ρ := ⟨limit, chunks, [], [], false⟩

/-- The next chunk, if there is one and it may be started, and the state with it started. -/
def next? (d : Dispatch α ρ) : Option (Chunk α × Dispatch α ρ) :=
  match d.pending with
  | [] => none
  | c :: pending =>
    if d.aborted || d.limit ≤ d.flying.length then none
    else some (c, { d with pending := pending, flying := d.flying ++ [c] })

/-- The state when a chunk has ended; `halts` is whether its outcome stops the write. -/
def finish (d : Dispatch α ρ) (c : Chunk α) (outcome : ρ) (halts : Bool) : Dispatch α ρ :=
  { d with
    flying := d.flying.filter (·.index ≠ c.index)
    ended := d.ended ++ [(c, outcome)]
    aborted := d.aborted || halts }

/-- How a chunk ended, if it did. -/
def outcome? (d : Dispatch α ρ) (c : Chunk α) : Option ρ :=
  (d.ended.find? (·.1.index == c.index)).map (·.2)

end Dispatch

variable {σ ε α ρ : Type}

/-- One writer: takes the next chunk and writes it, until none may be started; at most
    `most` chunks.  After each of them it does `pause`. -/
def worker (write : Chunk α → Task σ ε ρ) (halts : ε → Bool)
    (pause : Task (σ × Dispatch α (Except ε ρ)) Empty Unit) :
    Nat → Task (σ × Dispatch α (Except ε ρ)) Empty Unit
  | 0 => .ret ()
  | most + 1 => .read fun (s, d) =>
    match d.next? with
    | none => .ret ()
    | some (c, d') => .write (s, d') <|
      (write c).onFirst.attempt.andThen fun outcome =>
        let stop := match outcome with
          | .ok _ => false
          | .error e => halts e
        .read fun (s, d) => .write (s, d.finish c outcome stop) <|
          pause.andThen fun _ => worker write halts pause most

/-- Writes the chunks one after another. -/
def writeInOrder [Clocked σ] (deadline : Option (Task.Deadline ε)) (write : Chunk α → Task σ ε ρ)
    (halts : ε → Bool) (chunks : List (Chunk α)) : Task (σ × Dispatch α (Except ε ρ)) ε Unit :=
  (worker write halts (.ret ()) chunks.length).certain.bounded deadline

/-- Writes the chunks with at most `limit` at a time.  A writer that is done with a chunk
    lets those go on that can before it takes another one. -/
def writeSideBySide [Clocked σ] (limit : Nat) (deadline : Option (Task.Deadline ε))
    (write : Chunk α → Task σ ε ρ) (halts : ε → Bool) (chunks : List (Chunk α)) :
    Task (σ × Dispatch α (Except ε ρ)) ε Unit :=
  .sideBySide deadline
    (List.replicate (min limit chunks.length) (worker write halts .turn chunks.length))

/-- Writes the chunks with at most `limit` at a time, within the deadline if there is one. -/
def writeAll [Clocked σ] (limit : Nat) (deadline : Option (Task.Deadline ε))
    (write : Chunk α → Task σ ε ρ) (halts : ε → Bool) (chunks : List (Chunk α)) :
    Task σ ε (Dispatch α (Except ε ρ)) :=
  let work := if limit ≤ 1 then writeInOrder deadline write halts chunks
    else writeSideBySide limit deadline write halts chunks
  (work.withLocal (Dispatch.start limit chunks)).andThen fun r => .ret r.2

end VectorStore.Batch
