/-
  Sessions: the state around a backend.

  A session has a clock, the supply of ids, what was logged and warned of, and the metrics
  that were taken by the sink.  A sink may refuse an event with a fault: a refused
  observation is dropped without a trace, a refused count is a failure of the operation.
  What it does depends on the event and on those it has taken; a sink that is changed by what it
  refuses, such as one that refuses every other event, is none of these.
-/
import VectorStore.Error
import VectorStore.Store.Context
import VectorStore.Task

namespace VectorStore

/-- A measurement of an operation. -/
inductive Event where
  /-- an operation has ended -/
  | observe (component operation : String) (time : Time) (ok : Bool) (code : String)
      (extra : Fields)
  /-- something was counted -/
  | counter (component name : String) (value : Int)

/-- Whether the event is a count. -/
def Event.isCounter : Event → Bool
  | observe .. => false
  | counter .. => true

/-- A receiver of metrics: given what it has taken so far, an event is refused or taken. -/
abbrev Sink := List Event → Event → Option Fault

/-- A line of the log. -/
structure LogLine where
  logger : String
  level : String
  message : String

/-- A warning to the caller. -/
structure Notice where
  category : String
  message : String

/-- The state around a backend. -/
structure Session (β : Type) where
  /-- the time since the session began -/
  clock : Time
  /-- how many ids were drawn -/
  drawn : Nat
  logs : List LogLine
  notices : List Notice
  events : List Event
  sink : Sink
  backend : β

namespace Session

variable {β : Type}

/-- The time at which sessions begin, in milliseconds since the epoch. -/
def epoch : Int := 1700000000000

/-- A sink that takes everything. -/
def takesAll : Sink := fun _ _ => none

/-- The session at its beginning. -/
def start (backend : β) (sink : Sink) : Session β := ⟨0, 0, [], [], [], sink, backend⟩

/-- What the clock on the wall shows, in seconds since the epoch; it counts whole milliseconds. -/
def wallTime (s : Session β) : Time :=
  .ofMilliseconds ((Number.ofInt? (epoch + s.clock.wholeMilliseconds)).getD 0)

/-- The time in whole milliseconds since the epoch. -/
def now (s : Session β) : Int := (Number.truncate? s.wallTime.milliseconds).getD epoch

/-- The session without what was logged, warned of and measured so far. -/
def cleared (s : Session β) : Session β := { s with logs := [], notices := [], events := [] }

instance : Clocked (Session β) where
  clock := Session.clock
  atTime time s := { s with clock := time }

/-- The session with a warning in its log. -/
def warn (logger message : String) (s : Session β) : Session β :=
  { s with logs := s.logs ++ [⟨logger, "WARNING", message⟩] }

/-- A task of the backend as one of the session. -/
def ofBackend (t : Task β ε α) : Task (Session β) ε α :=
  t.zoom Session.backend fun b s => { s with backend := b }

/-- How much time remains, in metrics. -/
def bucket (remaining : Value) : Option String :=
  let below (n : Int) : Bool := match remaining with
    | .int m => m < n
    | .float x => Number.floatLtInt x n
    | _ => false
  if remaining.isNull then none
  else if below 1000 then some "<1s"
  else if below 5000 then some "<5s"
  else if below 15000 then some "<15s"
  else some ">=15s"

/-- What metrics say about the time that remains. -/
def bucketFields (ctx : Option Context) (now : Int) : Except Fault Fields :=
  match ctx with
  | none => .ok []
  | some c => do
    let remaining ← c.remaining now
    return ((bucket remaining).map fun b => ("deadline_bucket", Value.text b)).toList

/-- The session after an operation that began at `began` was measured; nothing happens if
    that is not possible. -/
def observe (component operation : String) (began : Time) (ok : Bool) (code : String)
    (ctx : Option Context) (extra : Fields) (s : Session β) : Session β :=
  match bucketFields ctx s.now with
  | .error _ => s
  | .ok more =>
    let event := Event.observe component operation (s.clock - began) ok code (extra ++ more)
    match s.sink s.events event with
    | some _ => s
    | none => { s with events := s.events ++ [event] }

/-- Counts something. -/
def count (component name : String) (value : Int) : Task (Session β) Failure Unit :=
  .read fun s =>
    let event := Event.counter component name value
    match s.sink s.events event with
    | some f => .fail (.fault f)
    | none => .write { s with events := s.events ++ [event] } (.ret ())

end Session

end VectorStore
