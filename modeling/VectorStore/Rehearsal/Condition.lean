/-
  A condition that plays a script.

  The outcomes of the polls are given in their order, the last one for all further polls.
-/
import VectorStore.Rehearsal.Rule
import VectorStore.Store.Polling

namespace VectorStore.Rehearsal

/-- The state of a rehearsed poll. -/
structure Polls where
  clock : Time := 0
  /-- when the condition was polled -/
  times : List Time := []
  /-- the outcomes still to come -/
  outcomes : List (Except Failure Value)

instance : Clocked Polls where
  clock := Polls.clock
  atTime time s := { s with clock := time }

namespace Polls

/-- The outcome of the next poll and the state after it. -/
def next (s : Polls) : Except Failure Value × Polls :=
  let s' := { s with times := s.times ++ [s.clock] }
  match s.outcomes with
  | [] => (.ok .null, s')
  | [o] => (o, s')
  | o :: outcomes => (o, { s' with outcomes := outcomes })

/-- Polls the condition. -/
def check : Task Polls Failure Bool :=
  .read fun s => .write s.next.2 (.ofExcept (s.next.1.map fun v => !v.isVoid))

/-- Waits for the condition. -/
def wait (outcomes : List (Except Failure Value)) (timeout interval : Value) :
    Except Failure Bool × Polls :=
  (Polling.waitFor outcomes.length timeout interval check).run { outcomes }

end Polls

end VectorStore.Rehearsal
