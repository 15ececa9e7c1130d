/-
  Store errors and the failures of operations.

  A `StoreError` has a category, a message, a code, a hint when to try again and details.
  An operation fails with a store error of its own, with one that was caused by an earlier
  failure (`Failure.chained`), or with a fault that is none.
-/
import VectorStore.Error.Category
import VectorStore.Error.Fault
import VectorStore.Json.Writer

namespace VectorStore

/-- An error of a store. -/
structure StoreError where
  category : Category
  message : String
  code : String
  retryAfterMs : Option Int
  details : Fields
  /-- the ids of all records of a partly refused write -/
  ids : List Value
  /-- the refusals of a partly refused write -/
  failures : List Value

namespace StoreError

/-- An error with the code of its category. -/
def of (category : Category) (message : String) (details : Fields := []) : StoreError :=
  ⟨category, message, category.code, none, details, [], []⟩

/-- A write of which the service refused some records. -/
def partialWrite (message : String) (ids failures : List Value) : StoreError :=
  { of .partialUpsert message [("failed_count", .int failures.length)] with
    ids := ids, failures := failures }

/-- The error with another code, if one is given. -/
def withCode (e : StoreError) (code : Option String) : StoreError :=
  match code with
  | some c => if c.isEmpty then e else { e with code := c }
  | none => e

/-- The details in ascending order of their names. -/
def sortedDetails (e : StoreError) : Fields := Json.sortByName e.details

end StoreError

/-- Why an operation failed. -/
inductive Failure where
  | error (e : StoreError)
  /-- an error with the failure that caused it -/
  | chained (e : StoreError) (cause : Failure)
  | fault (f : Fault)

namespace Failure

/-- The failure that reports an error in whose wording a value is shown: if there is no text of
    the value, it is the fault of making one. -/
def showing (v : Value) (e : StoreError) : Failure :=
  if v.isWritable then .error e else .fault .intTooLong

/-- The store error, if the failure is one. -/
def storeError? : Failure → Option StoreError
  | error e | chained e _ => some e
  | fault _ => none

/-- The kind of the failure. -/
def label : Failure → String
  | error e | chained e _ => e.category.name
  | fault f => f.label

/-- The wording of the failure. -/
def message : Failure → String
  | error e | chained e _ => e.message
  | fault f => f.message

/-- Whether the failure is a cancellation, which no handler of failures catches. -/
def isCancellation : Failure → Bool
  | fault f => f.isCancellation
  | _ => false

/-- The code under which metrics count the failure. -/
def code (f : Failure) : String :=
  match f.storeError? with
  | some e => e.code
  | none => Category.unavailable.code

end Failure

end VectorStore
