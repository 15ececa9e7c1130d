/-
  Waiting for a condition.

  A condition is polled, and polled again after each pause, until it holds or the time is
  over; the last poll is made when the time is over.  The pause is the interval, or what is
  left of the time if that is less (`pause?`).  The polling is stated for any type of
  numbers and any clock (`pollUntil`, `waitBy`); `waitFor` polls by the clock of a state.

  `waitForCount` waits until an index reports enough records.  That it never does is no
  failure but a warning, since the write itself was accepted.  What it does beside the waiting
  is stated for any way to wait (`watchCount`).
-/
import VectorStore.Store.Operations

namespace VectorStore.Polling

section

variable {N : Type} [Sub N] [LT N] [DecidableRel (α := N) (· < ·)] [LE N]
  [DecidableRel (α := N) (· ≤ ·)] [OfNat N 0]

/-- The pause before the next poll, if there is time for one. -/
def pause? (deadline interval now : N) : Option N :=
  let left := deadline - now
  if left ≤ 0 then none else some (if left < interval then left else interval)

/-- Polls until the condition holds or the time is over, at most `polls` times: whether the
    condition held. -/
def pollUntil {σ ε : Type} (now : σ → N) (sleep : N → Task σ ε Unit) (check : Task σ ε Bool)
    (deadline interval : N) : Nat → Task σ ε Bool
  | 0 => .ret false
  | polls + 1 => check.andThen fun holds =>
    if holds then .ret true
    else .read fun s =>
      match pause? deadline interval (now s) with
      | none => .ret false
      | some time => (sleep time).andThen fun _ => pollUntil now sleep check deadline interval polls

/-- Polls until the condition holds or the timeout is over, at most `polls` times: whether the
    condition held. -/
def waitBy [Add N] {σ ε : Type} (now : σ → N) (sleep : N → Task σ ε Unit) (check : Task σ ε Bool)
    (timeout interval : N) (polls : Nat) : Task σ ε Bool :=
  .read fun s => pollUntil now sleep check (now s + timeout) interval polls

end

/-- The most polls for a positive interval: one for each interval that begins within the
    time, one at its end, and one to spare. -/
def mostPolls (timeout interval : Rat) : Nat :=
  if 0 < timeout ∧ 0 < interval then (timeout / interval).ceil.toNat + 2 else 2

/-- The most polls by a clock of doubles, whose rounding may add some. -/
def mostRoundedPolls (timeout interval : Time) : Nat :=
  2 * mostPolls ((Number.toRat? timeout).getD 0) ((Number.toRat? interval).getD 0)

/-- A timeout, which has to be a number of seconds. -/
def timeoutOf (v : Value) : Except Fault Time :=
  match v with
  | .int _ | .bool _ | .float _ => v.toFloat
  | v => .error (.badOperand "+" "float" v.typeName)

/-- An interval, which has to be a number of seconds; it may be beyond the doubles. -/
def intervalOf (v : Value) : Except Fault Time :=
  match v with
  | .int n => .ok ((Number.ofInt? n).getD (Number.signedInfinity (decide (n < 0))))
  | .bool _ | .float _ => v.toFloat
  | v => .error (.notOrdered "<" "float" v.typeName)

/-- Waits until a condition holds, with a timeout and an interval in seconds: whether it held.
    An interval that is no number shows at the first pause.  `spare` bounds the polls beyond
    those that the timeout and the interval account for. -/
def waitFor {σ : Type} [Clocked σ] (spare : Nat) (timeout interval : Value)
    (check : Task σ Failure Bool) : Task σ Failure Bool := do
  let timeout ← .ofExcept ((timeoutOf timeout).mapError .fault)
  let interval := (intervalOf interval).mapError Failure.fault
  let span := interval.toOption.getD 0
  let pause (time : Time) : Task σ Failure Unit :=
    (Task.ofExcept interval).andThen fun _ => .sleep time
  waitBy Clocked.clock pause check timeout span (mostRoundedPolls timeout span + spare)

/-- Whether a count has reached what is expected. -/
def reached (count : Int) (expected : Value) : Except Fault Bool :=
  match expected.aboveInt? count with
  | some above => .ok !above
  | none => .error (.notOrdered ">=" "int" expected.typeName)

/-- The warning that an index has not caught up. -/
def notCaughtUp (name timeout expected : Value) (count : Int) : Except Fault Notice := do
  let count ← (Value.int count).toText
  let timeout ← timeout.toText
  let expected ← expected.toText
  return ⟨"ConsistencyWarning",
    s!"index {name.quoted} reports {count} record(s) after {timeout}s, expected {expected}"⟩

/-- Whether the described index reports the expected number of records; its shape is kept. -/
def showsCount {σ : Type} (describe : Task σ Failure Descriptor) (expected : Value) :
    Task (σ × Option Descriptor) Failure Bool := do
  let d ← describe.onFirst
  .modify fun s => (s.1, some d)
  .ofExcept ((reached d.count expected).mapError .fault)

/-- Waits in the given way until the described index reports the expected number of records, or
    else warns; the result is the shape seen last. -/
def watchCount {σ : Type} (describe : Task σ Failure Descriptor)
    (wait : Task (σ × Option Descriptor) Failure Bool → Task (σ × Option Descriptor) Failure Bool)
    (expected : Value) (warn : Descriptor → Except Fault (σ → σ)) : Task σ Failure Descriptor := do
  let (held, latest) ← (wait (showsCount describe expected)).withLocal none
  match latest with
  | none => .fail (.fault .notImplemented)
  | some d =>
    if !held then .modify (← .ofExcept ((warn d).mapError .fault))
    return d

/-- Waits until an index reports the expected number of records; the result is the shape
    seen last. -/
def waitForCount {β : Type} (st : Store β) (spare : Nat) (name expected timeout interval : Value)
    (ctx : Option Context) : Task (Session β) Failure Descriptor :=
  watchCount (st.describeIndex name ctx) (waitFor spare timeout interval) expected fun d => do
    let notice ← notCaughtUp name timeout expected d.count
    return fun s => { s with notices := s.notices ++ [notice] }

end VectorStore.Polling
