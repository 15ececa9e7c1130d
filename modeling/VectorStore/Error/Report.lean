/-
  Failures of a service, seen from an adapter.

  An adapter states whatever its service's driver raises as a store error.  A `Report`
  holds what that starts from in every adapter: the operation, the index if the operation names
  one, and the failure with the attributes of its driver.
-/
import VectorStore.Error
import VectorStore.Text.Search

namespace VectorStore

/-- A failure of a service during an operation. -/
structure Report where
  operation : String
  index : Option String
  failure : Failure

namespace Report

/-- The driver's error, if the failure is one. -/
def driver? (r : Report) : Option DriverError :=
  match r.failure with
  | .fault (.driver e) => some e
  | _ => none

/-- Whether the failure is a driver's error of the given kind. -/
def isKind (r : Report) (kind : DriverKind) : Bool := r.driver?.any (·.kind == kind)

/-- Whether the failure is one of the operating system. -/
def isSystem (r : Report) : Bool := r.driver?.any (·.kind.isSystem)

/-- The wording of the failure, or a general one if it has none. -/
def message (r : Report) (service : String) : String :=
  let m := r.failure.message
  if m.isEmpty then s!"{service} error during {r.operation}" else m

/-- The details of every such error: the operation and the index. -/
def details (r : Report) : Fields :=
  ("op", .text r.operation) :: (r.index.map fun name => ("index", Value.text name)).toList

/-- The index in messages. -/
def indexName (r : Report) : String := r.index.getD "None"

/-- The error that the index does not exist. -/
def missing (r : Report) (details : Fields) : StoreError :=
  .of .notFound s!"index '{r.indexName}' does not exist" details

/-- The error that the index exists already. -/
def existing (r : Report) (details : Fields) : StoreError :=
  .of .conflict s!"index '{r.indexName}' already exists" details

/-- The status code of the driver's error. -/
def status (r : Report) : Value := (r.driver?.bind (·.statusCode)).getD .null

/-- The failure as it leaves an adapter: a fault becomes a store error and stays the cause,
    unless it is a cancellation or is read as another fault; a store error is passed on. -/
def diagnosed (errorOf : Report → Except Fault StoreError) (r : Report) : Failure :=
  match r.failure with
  | .fault f =>
    if f.isCancellation then r.failure
    else match errorOf r with
      | .ok e => .chained e r.failure
      | .error g => .fault g
  | f => f

end Report

/-- An integer, a truth value counting as zero or one. -/
def Value.wholeNumber? : Value → Option Int
  | .int n => some n
  | .bool b => some (if b then 1 else 0)
  | _ => none

end VectorStore
