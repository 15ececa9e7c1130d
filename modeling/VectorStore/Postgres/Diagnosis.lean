/-
  Failures of the database as store errors.

  A time-out comes first, then the class of the SQLSTATE, then failures of the connection.
-/
import VectorStore.Error.Report

namespace VectorStore.Postgres

/-- The category of an SQLSTATE other than a missing or an existing table. -/
def stateCategory (state : String) : Category :=
  let inClass (code : String) : Bool := code.toList.isPrefixOf state.toList
  if ["28P01", "28000", "42501"].contains state then .auth
  else if inClass "22" then .validation
  else if inClass "08" || ["57P01", "57P02"].contains state then .transientNetwork
  else if inClass "53" || state == "57P03" then .unavailable
  else if state == "57014" then .deadlineExceeded
  else .remoteService

/-- The SQLSTATE of a failure. -/
def sqlstate? (r : Report) : Option String :=
  match r.driver?.bind (·.sqlstate) with
  | some (.text s) => if s.isEmpty then none else some s
  | _ => none

/-- The store error of a failure. -/
def errorOf (r : Report) : StoreError :=
  let message := r.message "PostgreSQL"
  if r.isKind .timeout then .of .deadlineExceeded "PostgreSQL operation timed out" r.details
  else match sqlstate? r with
    | some state =>
      let details := r.details ++ [("sqlstate", .text state)]
      if state == "42P01" then r.missing details
      else if state == "42P07" then r.existing details
      else .of (stateCategory state) message details
    | none =>
      if r.isSystem || r.isKind .interface then .of .transientNetwork message r.details
      else .of .unavailable message r.details

end VectorStore.Postgres
