/-
  Containment of documents.

  A document contains a pattern when it has everything the pattern has: an object every
  field of the pattern with a value that contains the pattern's, a list for every item of
  the pattern an item that contains it, and a scalar the same scalar.
-/
import VectorStore.Value

namespace VectorStore.Memory

mutual

/-- Whether the pattern is contained in the document. -/
def within : (pattern : Value) → (doc : Value) → Bool
  | .object wanted, .object fields => fieldsWithin wanted fields
  | .object _, _ => false
  | .list wanted, .list items => itemsWithin wanted items
  | .list _, _ => false
  | _, .object _ => false
  | _, .list _ => false
  | scalar, doc => doc.sameScalar scalar

/-- Whether every wanted field is contained in the field of its name. -/
def fieldsWithin : (wanted : List (String × Value)) → (fields : List (String × Value)) → Bool
  | [], _ => true
  | (name, v) :: wanted, fields =>
    (match Fields.get? fields name with
    | some w => within v w
    | none => false) && fieldsWithin wanted fields

/-- Whether every wanted item is contained in one of the items. -/
def itemsWithin : (wanted : List Value) → (items : List Value) → Bool
  | [], _ => true
  | v :: wanted, items => items.any (within v ·) && itemsWithin wanted items

end

/-- Whether a document contains a pattern. -/
def contains (doc pattern : Value) : Bool := within pattern doc

end VectorStore.Memory
