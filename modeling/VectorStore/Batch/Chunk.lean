/-
  Chunks: the pieces in which records are written.

  `chunked` cuts a list into contiguous pieces of a given size, the last of which may be
  shorter; `chunks` numbers the pieces and notes where each starts.
-/
import VectorStore.Error

namespace VectorStore.Batch

/-- A piece of the records: its number, where it starts, and what it holds. -/
structure Chunk (α : Type) where
  index : Nat
  offset : Nat
  records : List α

/-- Contiguous pieces of at most `size` items, for a positive size. -/
def pieces (size : Nat) (items : List α) : List (List α) :=
  if _h : items = [] ∨ size = 0 then []
  else items.take size :: pieces size (items.drop size)
termination_by items.length
decreasing_by
  have : 0 < items.length := List.length_pos_iff.2 (by simp_all)
  simp only [List.length_drop]
  omega

theorem flatten_pieces {size : Nat} (hsize : 0 < size) (items : List α) :
    (pieces size items).flatten = items := by
  fun_induction pieces size items with
  | case1 items h =>
    rcases h with rfl | h
    · rfl
    · omega
  | case2 items h ih => simp [ih]

/-- The refusal of a size. -/
def sizeRefusal (size : Value) : Failure :=
  .showing size
    (.of .validation "batch_size must be a positive integer" [("batch_size", .text size.quoted)])

/-- A positive integer. -/
def positive? : Value → Option Nat
  | .int n => if 0 < n then some n.toNat else none
  | _ => none

/-- Contiguous pieces of at most `size` items. -/
def chunked (items : List α) (size : Value) : Except Failure (List (List α)) :=
  match positive? size with
  | some n => .ok (pieces n items)
  | none => .error (sizeRefusal size)

/-- The pieces with their numbers and offsets. -/
def chunks (size : Nat) (items : List α) : List (Chunk α) :=
  (pieces size items).zipIdx.map fun p => ⟨p.2, p.2 * size, p.1⟩

end VectorStore.Batch
