/-
  Filters evaluated on a metadata document.

  A condition compares texts or numbers, matches a pattern, asks for containment, or for
  presence alone; a field that is absent meets none of them.  `matchFilter` evaluates the
  parts of a filter in order and stops at the first that decides, so a flaw behind it is
  never met.
-/
import VectorStore.Filter
import VectorStore.Json.Reader
import VectorStore.Memory.Containment
import VectorStore.Memory.Document
import VectorStore.Memory.Like

namespace VectorStore.Memory

open VectorStore.Filter (Condition)

/-- A fault as the failure of an evaluation. -/
def faulty (r : Except Fault α) : Except Failure α := r.mapError .fault

/-- Whether a comparison of numbers holds. -/
def compareNumbers (op : Operator) (left right : Float) : Bool :=
  match op with
  | .gt => right < left
  | .gte => right ≤ left
  | .lt => left < right
  | .lte => left ≤ right
  | _ => false

/-- The pattern that a text is matched with: the value between wildcards. -/
def wildcards (v : Value) : Except Fault String := do return "%" ++ (← v.toText) ++ "%"

/-- The document that a folded value is read back as: it is compared as it would be bound. -/
def patternOf (folded : Value) : Except Fault Value := do
  Json.decode (← Json.encode Json.spaced folded)

/-- Whether a document meets a condition. -/
def matchCondition (doc : Value) (c : Condition) : Except Failure Bool := do
  match c.operator with
  | .present => return (← faulty (extract c.path doc)).isSome
  | .contains => return contains doc (← faulty (patternOf (c.path.fold c.value)))
  | op =>
    let stored ← faulty (extract c.path doc)
    let text ← faulty (asText stored)
    match op with
    | .eq =>
      match text with
      | none => return false
      | some s => return some s == (← faulty (asText (some c.value)))
    | .neq =>
      match text with
      | none => return false
      | some s => return some s != (← faulty (asText (some c.value)))
    | .like =>
      let pattern ← faulty (wildcards c.value)
      return text.any fun s => isLike s pattern
    | .ilike =>
      let pattern ← faulty (wildcards c.value)
      return text.any fun s => isLikeFolded s pattern
    | .oneOf =>
      match text with
      | none => return false
      | some s =>
        let choices ← (Filter.choices c.value).mapError Filter.Refusal.failure
        let texts ← faulty (choices.mapM fun v => asText (some v))
        return texts.contains (some s)
    | _ =>
      let left ← faulty (asNumber stored)
      let right ← faulty c.value.toFloat
      match left with
      | none => return false
      | some left => return compareNumbers op left right

/-- The fault of using a document as a filter that has no entries to go through. -/
def foreignFilter (v : Value) : Except Failure Bool :=
  if v.isVoid then .ok true else .error (.fault (.missingAttribute v.typeName "items"))

mutual

/-- Whether a document meets a filter. -/
def matchFilter (doc : Value) : Filter → Except Failure Bool
  | .entries parts => matchAll doc parts
  | .group .and children => matchAll doc children
  | .group .or children => matchAny doc children
  | .leaf c => matchCondition doc c
  | .refused r => .error r.failure
  | .foreign v => foreignFilter v

/-- Whether a document meets all filters. -/
def matchAll (doc : Value) : List Filter → Except Failure Bool
  | [] => .ok true
  | f :: filters => do if ← matchFilter doc f then matchAll doc filters else return false

/-- Whether a document meets one of the filters. -/
def matchAny (doc : Value) : List Filter → Except Failure Bool
  | [] => .ok false
  | f :: filters => do if ← matchFilter doc f then return true else matchAny doc filters

end

end VectorStore.Memory
