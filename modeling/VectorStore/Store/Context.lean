/-
  The context of an operation: correlation and deadline.

  Requests from outside bring contexts of any shape, so the fields are documents; only the
  deadline is interpreted, and only when the time that remains is asked for.
-/
import VectorStore.Value.Coercion

namespace VectorStore

/-- What goes with an operation. -/
structure Context where
  requestId : Value
  /-- the time, in milliseconds since the epoch, when the operation must have ended -/
  deadline : Value
  traceparent : Value
  attrs : Value

namespace Context

/-- The context of an object's fields; without attributes it has none of them. -/
def ofFields (fields : Fields) : Context :=
  let attrs := Fields.orNull fields "attrs"
  ⟨Fields.orNull fields "request_id", Fields.orNull fields "deadline_ms",
    Fields.orNull fields "traceparent", if attrs.isNull then .object [] else attrs⟩

/-- The context that a request brings. -/
def ofRequest (v : Value) : Except Fault Context :=
  if v.isVoid then .ok (ofFields [])
  else match v with
    | .object fields =>
      let attrs := (Fields.orNull fields "attrs").orElse (.object [])
      .ok (ofFields (Fields.put fields "attrs" attrs))
    | v => .error (.missingAttribute v.typeName "get")

/-- The context as an object. -/
def toValue (c : Context) : Value :=
  .object [("request_id", c.requestId), ("deadline_ms", c.deadline),
    ("traceparent", c.traceparent), ("attrs", c.attrs)]

/-- The milliseconds from `now` to a deadline, negative once it has passed; null without one. -/
def left (deadline : Value) (now : Int) : Except Fault Value :=
  match deadline with
  | .null => .ok .null
  | .int n => .ok (.int (n - now))
  | .bool b => .ok (.int ((if b then 1 else 0) - now))
  | .float x => .ok (.float (x - (Number.ofInt? now).getD 0.0))
  | v => .error (.badOperand "-" v.typeName "int")

/-- The milliseconds from `now` to a deadline, zero once it has passed; null without one. -/
def remainingTo (deadline : Value) (now : Int) : Except Fault Value := do
  match ← left deadline now with
  | .int n => return .int (max 0 n)
  | .float x => return if 0.0 < x then .float x else .int 0
  | v => return v

/-- The milliseconds that remain at the time `now`. -/
def remaining (c : Context) (now : Int) : Except Fault Value := remainingTo c.deadline now

end Context

end VectorStore
