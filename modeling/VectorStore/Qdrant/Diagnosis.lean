/-
  Failures of the service as store errors.

  A time-out comes first, then the status code, then the wording.  Under a rate limit the
  service may say when to try again; a wait that is no finite number is a fault.
-/
import VectorStore.Error.Report
import VectorStore.Value.Coercion

namespace VectorStore.Qdrant

/-- A wait in seconds as milliseconds. -/
def retryAfterMs (v : Value) : Except Fault (Option Int) :=
  match v with
  | .int n => .ok (some (n * 1000))
  | .bool b => .ok (some (if b then 1000 else 0))
  | .float x => do return some (← (Value.float (x * 1000.0)).toInt)
  | _ => .ok none

/-- The store error of a status code. -/
def statusError (r : Report) (status : Int) (details : Fields) : Except Fault StoreError := do
  let message := r.message "Qdrant"
  if status = 404 then return r.missing details
  else if status = 409 then return r.existing details
  else if status = 401 ∨ status = 403 then
    return .of .auth "Qdrant authentication/authorization error" details
  else if status = 400 ∨ status = 422 then return .of .validation message details
  else if status = 429 then
    let retry := (r.driver?.bind (·.retryAfter)).getD .null
    return { StoreError.of .unavailable "Qdrant rate limit exceeded" details with
      retryAfterMs := ← retryAfterMs retry }
  else if 500 ≤ status then return .of .unavailable message details
  else return .of .remoteService message details

/-- The store error of a failure without a status code. -/
def plainError (r : Report) : StoreError :=
  let message := r.message "Qdrant"
  let lowered := Text.asciiLower message
  let details := r.details
  if r.isKind .responseHandling then
    if Text.occursIn "timed out" lowered || Text.occursIn "timeout" lowered then
      .of .deadlineExceeded "Qdrant request timed out" details
    else .of .transientNetwork "Qdrant connection error" details
  else if r.isSystem || Text.occursIn "connection" lowered then
    .of .transientNetwork "Qdrant connection error" details
  else if Text.occursIn "not found" lowered then r.missing details
  else .of .unavailable message details

/-- The store error of a failure. -/
def errorOf (r : Report) : Except Fault StoreError :=
  if r.isKind .timeout then
    .ok (.of .deadlineExceeded "Qdrant operation timed out" r.details)
  else match r.status.wholeNumber? with
    | some status => statusError r status (r.details ++ [("status_code", r.status)])
    | none => .ok (plainError r)

end VectorStore.Qdrant
