/-
  The categories of store errors.

  Every category has a name, a code and at most one wider category: a `notSupported` error
  is also a `validation` error, and everything that went wrong at a service is also a
  `remoteService` error.  `Category.lineage` lists a category with all wider ones.
-/

namespace VectorStore

/-- What kind of error a store reports. -/
inductive Category where
  | store
  | validation
  | notSupported
  | conflict
  | notFound
  | remoteService
  | auth
  | transientNetwork
  | unavailable
  | deadlineExceeded
  | batchUpsert
  | partialUpsert
deriving DecidableEq, Repr

namespace Category

/-- The category's name. -/
def name : Category → String
  | store => "VectorStoreError"
  | validation => "ValidationError"
  | notSupported => "NotSupported"
  | conflict => "ConflictError"
  | notFound => "NotFoundError"
  | remoteService => "RemoteServiceError"
  | auth => "AuthError"
  | transientNetwork => "TransientNetwork"
  | unavailable => "Unavailable"
  | deadlineExceeded => "DeadlineExceeded"
  | batchUpsert => "BatchUpsertError"
  | partialUpsert => "PartialUpsertError"

/-- The code of errors that bring no code of their own. -/
def code : Category → String
  | store => "VECTOR_STORE_ERROR"
  | validation => "VALIDATION_ERROR"
  | notSupported => "NOT_SUPPORTED"
  | conflict => "CONFLICT"
  | notFound => "NOT_FOUND"
  | remoteService => "REMOTE_SERVICE_ERROR"
  | auth => "AUTH_ERROR"
  | transientNetwork => "TRANSIENT_NETWORK"
  | unavailable => "UNAVAILABLE"
  | deadlineExceeded => "DEADLINE_EXCEEDED"
  | batchUpsert => "BATCH_UPSERT_FAILED"
  | partialUpsert => "PARTIAL_UPSERT"

/-- All categories. -/
def all : List Category :=
  [store, validation, notSupported, conflict, notFound, remoteService, auth, transientNetwork,
    unavailable, deadlineExceeded, batchUpsert, partialUpsert]

/-- The category of the given name. -/
def ofName? (name : String) : Option Category := all.find? (·.name == name)

/-- The category with all wider ones, the widest last. -/
def lineage : Category → List Category
  | store => [store]
  | validation => [validation, store]
  | notSupported => [notSupported, validation, store]
  | conflict => [conflict, store]
  | notFound => [notFound, store]
  | remoteService => [remoteService, store]
  | auth => [auth, remoteService, store]
  | transientNetwork => [transientNetwork, remoteService, store]
  | unavailable => [unavailable, remoteService, store]
  | deadlineExceeded => [deadlineExceeded, remoteService, store]
  | batchUpsert => [batchUpsert, remoteService, store]
  | partialUpsert => [partialUpsert, remoteService, store]

theorem ofName?_name (c : Category) : ofName? c.name = some c := by
  cases c <;> decide

end Category

end VectorStore
