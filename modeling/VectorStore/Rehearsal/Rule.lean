/-
  Rules of a rehearsal.

  A rehearsal runs a store against a service that plays a script.  A rule of the script says
  what happens at a call: first some time passes, then the call fails, if it is to.
-/
import VectorStore.Error
import VectorStore.Task

namespace VectorStore.Rehearsal

/-- What happens at a call. -/
structure Rule where
  /-- how long the call takes, if it takes any time -/
  delay : Option Time := none
  failure : Option Failure := none

/-- Rules by the name of the call. -/
abbrev Rules := List (String × Rule)

/-- Plays a rule. -/
def Rule.play {σ : Type} (r : Rule) : Task σ Failure Unit :=
  let outcome : Task σ Failure Unit :=
    match r.failure with
    | none => .ret ()
    | some f => .fail f
  match r.delay with
  | none => outcome
  | some span => (Task.sleep span).andThen fun _ => outcome

/-- The rule of a call: nothing happens if there is none. -/
def Rules.ruleOf (rules : Rules) (call : String) : Rule := (Fields.get? rules call).getD {}

end VectorStore.Rehearsal
