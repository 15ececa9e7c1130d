/-
  Failures of the service as store errors.

  A time-out comes first, then failures of the connection, then the status code together
  with the wording.  A status code is compared as a number, but only an integer goes into
  the details.
-/
import VectorStore.Error.Report

namespace VectorStore.Vectorize

/-- Whether a status code is one of the numbers. -/
def isStatus (status : Value) (ns : List Int) : Bool := ns.any (status.isNumber ·)

/-- The store error of a failure that is none of the connection. -/
def statusError (r : Report) : StoreError :=
  let message := r.message "Vectorize"
  let lowered := Text.asciiLower message
  let status := r.status
  let details := r.details ++
    (status.wholeNumber?.map fun _ => ("status_code", status)).toList
  if isStatus status [404] || Text.occursIn "not_found" lowered
      || Text.occursIn "not found" lowered then r.missing details
  else if isStatus status [409] || Text.occursIn "duplicate" lowered
      || Text.occursIn "already exists" lowered then r.existing details
  else if isStatus status [401, 403] then
    .of .auth "Vectorize authentication/authorization error" details
  else if isStatus status [400, 422] then .of .validation message details
  else if isStatus status [429] then .of .unavailable "Vectorize rate limit exceeded" details
  else match status.wholeNumber? with
    | some n => .of (if 500 ≤ n then .unavailable else .remoteService) message details
    | none => .of .unavailable message details

/-- The store error of a failure. -/
def errorOf (r : Report) : StoreError :=
  if r.isKind .timeout then .of .deadlineExceeded "Vectorize operation timed out" r.details
  else if r.isKind .apiTimeout then
    .of .deadlineExceeded "Vectorize request timed out" r.details
  else if r.isKind .apiConnection then
    .of .transientNetwork "Vectorize connection error" r.details
  else statusError r

end VectorStore.Vectorize
