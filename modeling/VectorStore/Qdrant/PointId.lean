/-
  Ids of points.

  The service takes unsigned 64-bit integers and UUIDs only.  A record's id is kept when it
  is the canonical text of one of them; any other id is mapped to a UUID, its own if it
  spells one, the one of its name within a fixed namespace if not.
-/
import VectorStore.Error.Fault
import VectorStore.Number.Layout
import VectorStore.Uuid

namespace VectorStore.Qdrant

/-- An id that the service takes. -/
inductive PointId where
  | number (n : Nat)
  | uuid (text : String)
deriving DecidableEq, Repr

/-- The namespace of ids that the service cannot store as they are. -/
def namespaceId : Uuid := ⟨0x6f1c2a8e3d4b5e6f8a9b0c1d2e3f4a5b⟩

/-- The number below `2^64` whose canonical text is the given one; digits are a fault if there
    are too many of them to be read. -/
def canonicalNumber? (id : String) : Except Fault (Option Nat) :=
  let cs := id.toList
  if cs.isEmpty || !cs.all Number.isDecimal then .ok none
  else if Number.maxIntDigits < cs.length then .error (.intTextTooLong cs.length)
  else
    let n := Number.ofDigits cs
    .ok (if Number.natDigits n = cs ∧ n < Nat.pow 2 64 then some n else none)

/-- The point's id for a record's id. -/
def pointId (id : String) : Except Fault PointId := do
  match ← canonicalNumber? id with
  | some n => return .number n
  | none => match Uuid.read? id with
    | some u => return .uuid u.text
    | none => return .uuid (Uuid.named namespaceId id).text

/-- Whether the point's id is another one than the record's. -/
def PointId.isRemapped (p : PointId) (id : String) : Bool :=
  match p with
  | number _ => false
  | uuid text => text ≠ id

end VectorStore.Qdrant
