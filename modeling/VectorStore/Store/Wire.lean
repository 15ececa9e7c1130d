/-
  Requests from outside.

  A request names an operation and brings a context and arguments, all as documents; the
  reply is what the operation returns or how it failed.  Arguments that are left out take
  the defaults of the operation.
-/
import VectorStore.Store.Operations

namespace VectorStore.Wire

/-- The reply to a request. -/
inductive Reply where
  | success (result : Value)
  | failure (f : Failure)

/-- The reply to a failure as an object. -/
def failureValue (f : Failure) : Value :=
  let message := match f.storeError? with
    | some e => e.message
    | none => if f.message.isEmpty then "internal error" else f.message
  let (retry, details) := match f.storeError? with
    | some e => (Value.ofInt? e.retryAfterMs,
        if e.details.isEmpty then .null else .object e.sortedDetails)
    | none => (.null, .null)
  .object [("ok", .bool false), ("code", .text f.code), ("error", .text f.label),
    ("message", .text message), ("retry_after_ms", retry), ("details", details)]

/-- The reply as an object. -/
def Reply.toValue : Reply → Value
  | success result => .object [("ok", .bool true), ("code", .text "OK"), ("result", result)]
  | failure f => failureValue f

/-- An argument that must be there. -/
def required (args : Fields) (name : String) : Except Failure Value :=
  match Fields.get? args name with
  | none | some .null =>
    .error (Store.invalid s!"missing required argument '{name}'" [("arg", .text name)])
  | some v => .ok v

/-- The outcome of a batched write as an object. -/
def outcomeValue (o : Batch.Outcome) : Value :=
  .object [("ids", .list (o.ids.map .text)), ("failures", .list (o.failures.map .object)),
    ("chunks", .int o.chunks)]

/-- A named value as an object. -/
def named (name : String) (v : Value) : Value := .object [(name, v)]

variable {β : Type}

/-- The result of an operation on a store. -/
def call (st : Store β) (operation : String) (args : Fields) (ctx : Context) :
    Task (Session β) Failure Value := do
  let argument (name : String) : Value := Fields.orNull args name
  match operation with
  | "vector.capabilities" => return (← st.capabilities).toValue
  | "vector.create_index" =>
    let name ← .ofExcept (required args "name")
    let dimension ← .ofExcept (required args "dimension")
    st.createIndex name dimension ((argument "metric").orElse (.text "cosine")) ctx
    return named "name" name
  | "vector.upsert" =>
    let name ← .ofExcept (required args "name")
    let vectors ← .ofExcept (required args "vectors")
    let outcome ← st.upsertWithReport name vectors (argument "metadata") (argument "ids") ctx
    return outcomeValue outcome
  | "vector.query" =>
    let name ← .ofExcept (required args "name")
    let vector ← .ofExcept (required args "vector")
    let topK := (Fields.get? args "top_k").getD (.int 10)
    let includeVector := (Fields.get? args "include_vector").getD (.bool false)
    let found ← st.query name vector topK (argument "filter") includeVector ctx
    return named "matches" (.list (found.map Match.toValue))
  | "vector.describe_index" =>
    let name ← .ofExcept (required args "name")
    return (← st.describeIndex name ctx).toValue
  | "vector.list_indexes" => return named "indexes" (.list ((← st.listIndexes ctx).map .text))
  | "vector.delete_index" =>
    let name ← .ofExcept (required args "name")
    st.deleteIndex name ctx
    return named "name" name
  | _ => .fail (.error (.of .notSupported s!"unknown operation '{operation}'"))

/-- The parts of a request: operation, context and arguments. -/
def parts (envelope : Value) : Except Failure (String × Context × Fields) := do
  match envelope with
  | .object fields =>
    match Fields.orNull fields "op" with
    | .text operation =>
      let ctx ← (Context.ofRequest (Fields.orNull fields "ctx")).mapError .fault
      match (Fields.orNull fields "args").orElse (.object []) with
      | .object args => return (operation, ctx, args)
      | _ => .error (Store.invalid "'args' must be an object")
    | _ => .error (Store.invalid "missing or invalid 'op'")
  | v => .error (.fault (.missingAttribute v.typeName "get"))

/-- The reply of a store to a request.  Only a cancellation goes past the reply. -/
def handle (st : Store β) (envelope : Value) : Task (Session β) Failure Reply :=
  let result := (Task.ofExcept (parts envelope)).andThen fun p => call st p.1 p.2.2 p.2.1
  result.attempt.andThen fun
    | .ok v => .ret (.success v)
    | .error f => if f.isCancellation then .fail f else .ret (.failure f)

end VectorStore.Wire
