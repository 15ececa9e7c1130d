/-
  Filters over metadata.

  A filter document is an object: each entry is a condition on a field or a combinator over
  further filters, and all entries must hold.  `Filter.ofValue` reads any document; what is
  malformed stays in its place as `refused` or `foreign`, so that each use of a filter meets
  the flaws in its own order: compiling and validating in document order, evaluating only
  when it comes to them.
-/
import VectorStore.Filter.Condition

namespace VectorStore

/-- A filter with its flaws in place. -/
inductive Filter where
  /-- an object: all entries hold -/
  | entries (parts : List Filter)
  /-- a combinator over filters -/
  | group (combinator : Combinator) (children : List Filter)
  | leaf (condition : Filter.Condition)
  /-- an entry that is refused -/
  | refused (reason : Filter.Refusal)
  /-- a document that is no object where a filter should stand -/
  | foreign (v : Value)

namespace Filter

/-- The entry of an object that is no combinator. -/
def ofCondition (key : String) (raw : Value) : Filter :=
  match Condition.ofValue key raw with
  | .ok c => .leaf c
  | .error r => .refused r

/-- The entry of an object that is a combinator over the filters that its operands write. -/
def ofCombinator (c : Combinator) (raw : Value) (children : List Filter) : Filter :=
  match operands c raw with
  | .ok _ => .group c children
  | .error r => .refused r

mutual

/-- The filter that a document writes. -/
def ofValue : Value → Filter
  | .object fields => .entries (ofFields fields)
  | v => .foreign v

/-- The entries of an object. -/
def ofFields : List (String × Value) → List Filter
  | [] => []
  | (key, .list items) :: fields =>
    (match Combinator.ofName? key with
    | none => ofCondition key (.list items)
    | some c => ofCombinator c (.list items) (ofItems items)) :: ofFields fields
  | (key, raw) :: fields =>
    (match Combinator.ofName? key with
    | none => ofCondition key raw
    | some c => ofCombinator c raw []) :: ofFields fields

/-- The filters of a list. -/
def ofItems : List Value → List Filter
  | [] => []
  | v :: items => ofValue v :: ofItems items

end

end Filter

end VectorStore
