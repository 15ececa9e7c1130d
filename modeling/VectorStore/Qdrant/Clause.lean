/-
  Native filters of Qdrant.

  A `Clause` is a test on a payload field, a test for an empty field, or a filter over
  clauses: all must hold, one should hold, or none may hold.  `Clause.ofFilter` turns a
  filter into such a clause and keeps its structure; what the service cannot express is refused.
-/
import VectorStore.Filter
import VectorStore.Value.Coercion

namespace VectorStore.Qdrant

/-- Bounds on a number. -/
structure Range where
  gt : Option Float := none
  gte : Option Float := none
  lt : Option Float := none
  lte : Option Float := none

/-- A test on the value of a field. -/
inductive Test where
  /-- the field has the value -/
  | value (v : Value)
  /-- the field has one of the values -/
  | any (vs : List Value)
  /-- the field contains the text -/
  | text (s : String)
  | range (r : Range)

/-- A condition on a point's payload. -/
inductive Clause where
  | field (key : String) (test : Test)
  | isEmpty (key : String)
  | must (clauses : List Clause)
  | should (clauses : List Clause)
  | mustNot (clauses : List Clause)

open VectorStore.Filter (Condition)

/-- Whether a clause is a filter over clauses. -/
def Clause.isFilter : Clause → Bool
  | field .. | isEmpty _ => false
  | must _ | should _ | mustNot _ => true

/-- The refusal to compare a field with a value that the service cannot match. -/
def cannotCompare (key : String) (v : Value) : Failure :=
  .error (.of .notSupported s!"qdrant cannot compare {Text.quoted key} against a {v.typeName}"
    [("key", .text key)])

/-- The clause that a field equals a value: doubles are matched by a range. -/
def equals (key : String) (v : Value) : Except Failure Clause :=
  match v with
  | .bool _ | .int _ | .text _ => .ok (.field key (.value v))
  | .float x => .ok (.field key (.range { gte := some x, lte := some x }))
  | v => .error (cannotCompare key v)

mutual

/-- The scalars of a document with the dotted names that lead to them. -/
def flatten (stem : String) : Value → List (String × Value)
  | .object fields => flattenFields stem fields
  | .list items => flattenItems stem items
  | v => [(stem, v)]

/-- The scalars of an object's fields. -/
def flattenFields (stem : String) : List (String × Value) → List (String × Value)
  | [] => []
  | (name, v) :: fields =>
    flatten (if stem.isEmpty then name else stem ++ "." ++ name) v ++ flattenFields stem fields

/-- The scalars of a list's items. -/
def flattenItems (stem : String) : List Value → List (String × Value)
  | [] => []
  | v :: items => flatten stem v ++ flattenItems stem items

end

/-- Whether the values are all texts or all integers. -/
def areUniform (vs : List Value) : Bool :=
  vs.all (fun v => match v with | .text _ => true | _ => false) ||
    vs.all (fun v => match v with | .int _ => true | _ => false)

/-- The range that a comparison asks for. -/
def rangeOf (op : Operator) (x : Float) : Range :=
  match op with
  | .gt => { gt := some x }
  | .gte => { gte := some x }
  | .lt => { lt := some x }
  | .lte => { lte := some x }
  | _ => {}

/-- The clause of a condition. -/
def Clause.ofCondition (c : Condition) : Except Failure Clause :=
  let key := c.path.text
  match c.operator with
  | .eq => equals key c.value
  | .neq => do return .mustNot [← equals key c.value, .isEmpty key]
  | .gt | .gte | .lt | .lte => do
    let x ← c.value.toFloat.mapError .fault
    return .field key (.range (rangeOf c.operator x))
  | .like | .ilike => do return .field key (.text (← c.value.toText.mapError .fault))
  | .oneOf => do
    let vs ← (Filter.choices c.value).mapError Filter.Refusal.failure
    if areUniform vs then return .field key (.any vs) else .error (.fault .badModel)
  | .contains => do
    let leaves := flatten "" (c.path.fold c.value)
    return .must (← leaves.mapM fun leaf => equals leaf.1 leaf.2)
  | .present => return .mustNot [.isEmpty key]

/-- The refusal of an expression without entries. -/
def notExpression : Failure :=
  .error (.of .validation "filter expression must be a non-empty mapping")

/-- All of the clauses: a single filter stands for itself. -/
def allOf : List Clause → Clause
  | [c] => if c.isFilter then c else .must [c]
  | clauses => .must clauses

mutual

/-- The native filter of a filter. -/
def Clause.ofFilter : Filter → Except Failure Clause
  | .entries parts =>
    if parts.isEmpty then .error notExpression else do return allOf (← Clause.ofFilters parts)
  | .group .and children => do return .must (← Clause.ofFilters children)
  | .group .or children => do return .should (← Clause.ofFilters children)
  | .leaf c => Clause.ofCondition c
  | .refused r => .error r.failure
  | .foreign _ => .error notExpression

/-- The native filters of several filters. -/
def Clause.ofFilters : List Filter → Except Failure (List Clause)
  | [] => .ok []
  | f :: filters => do
    let c ← Clause.ofFilter f
    let cs ← Clause.ofFilters filters
    return c :: cs

end

end VectorStore.Qdrant
