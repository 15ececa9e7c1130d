/-
  Contexts with generated correlation.

  A context is made from options; a request id and a trace that are left out are drawn from
  the supply of ids.  A deadline is given as such or as a time-out from now, not as both.
-/
import VectorStore.Store.Context
import VectorStore.Uuid

namespace VectorStore.Context

/-- The number of digits of short ids. -/
def shortLength : Nat := 16

/-- A request id with the digits of the `n`-th id. -/
def requestIdOf (n : Nat) : String :=
  String.ofList ("req_".toList ++ (generatedDigits n).take shortLength)

/-- A trace with the digits of the `n`-th id and a span with those of the next one. -/
def traceOf (n : Nat) : String :=
  String.ofList ("00-".toList ++ (generatedDigits n ++ ('-' ::
    ((generatedDigits (n + 1)).take shortLength ++ "-01".toList))))

/-- The deadline that the options give. -/
def deadlineOf (options : Fields) (now : Int) : Except Fault Value := do
  let deadline := Fields.orNull options "deadline_ms"
  let timeout := Fields.orNull options "timeout_ms"
  if timeout.isNull then return deadline
  if !deadline.isNull then
    .error (.badSetting "Cannot specify both deadline_ms and timeout_ms")
  match timeout.aboveInt? 0 with
  | none => .error (.notOrdered "<=" timeout.typeName "int")
  | some false => .error (.badSetting "timeout_ms must be positive")
  | some true => return .int (now + (← timeout.toInt))

/-- The context of the options when some ids were drawn, and how many were drawn after it. -/
def generate (options : Fields) (now : Int) (drawn : Nat) : Except Fault (Context × Nat) := do
  let deadline ← deadlineOf options now
  let option (name : String) := Fields.orNull options name
  let (requestId, drawn) :=
    if (option "request_id").isVoid then (.text (requestIdOf (drawn + 1)), drawn + 1)
    else (option "request_id", drawn)
  let (trace, drawn) :=
    if (option "traceparent").isVoid then (.text (traceOf (drawn + 1)), drawn + 2)
    else (option "traceparent", drawn)
  let attrs ← ((option "attrs").orElse (.object [])).toFields
  return (⟨requestId, deadline, trace, .object attrs⟩, drawn)

/-- The whole milliseconds that remain, zero at least; null without a deadline. -/
def budget (c : Context) (now : Int) : Except Fault Value := do
  match ← left c.deadline now with
  | .null => return .null
  | v => return .int (max 0 (← v.toInt))

end VectorStore.Context
