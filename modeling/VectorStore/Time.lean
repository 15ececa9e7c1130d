/-
  Time.

  Points in time and spans of time are doubles that count seconds.  A span is added to a
  point as doubles are added, so waiting three times for 0.1 seconds ends a little later
  than waiting once for 0.3.
-/
import VectorStore.Number.Layout

namespace VectorStore

/-- A point in time or a span of time, in seconds. -/
abbrev Time := Float

namespace Time

/-- A number of milliseconds as a time. -/
def ofMilliseconds (ms : Float) : Time := ms / 1000.0

/-- The time in milliseconds. -/
def milliseconds (t : Time) : Float := t * 1000.0

/-- The time in whole milliseconds, the nearest number of them. -/
@[irreducible]
def wholeMilliseconds (t : Time) : Int :=
  (Number.truncate? (Number.roundTo 0 t.milliseconds)).getD 0

/-- The span within which two points in time are taken for the same moment. -/
def moment : Time := 1.0e-9

end Time

end VectorStore
