/-
  The closed set of filter operators and the two combinators.

  Every operator but `present` takes a value.  `Operator.ofName?` and `Combinator.ofName?`
  read the names that filters use; no name belongs to both.
-/

namespace VectorStore

/-- How a condition compares a field with its value. -/
inductive Operator where
  | eq
  | neq
  | gt
  | gte
  | lt
  | lte
  | like
  | ilike
  | oneOf
  | contains
  | present
deriving DecidableEq, Repr

namespace Operator

/-- The name that filters use. -/
def name : Operator → String
  | eq => "eq"
  | neq => "neq"
  | gt => "gt"
  | gte => "gte"
  | lt => "lt"
  | lte => "lte"
  | like => "like"
  | ilike => "ilike"
  | oneOf => "in"
  | contains => "contains"
  | present => "exists"

/-- All operators. -/
def all : List Operator := [eq, neq, gt, gte, lt, lte, like, ilike, oneOf, contains, present]

/-- The operator of the given name. -/
def ofName? (name : String) : Option Operator := all.find? (·.name == name)

/-- Whether a condition with the operator needs a value. -/
def needsValue : Operator → Bool
  | present => false
  | _ => true

theorem ofName?_name (op : Operator) : ofName? op.name = some op := by cases op <;> decide

end Operator

/-- How sub-expressions are put together. -/
inductive Combinator where
  | and
  | or
deriving DecidableEq, Repr

namespace Combinator

/-- The name that filters use. -/
def name : Combinator → String
  | and => "$and"
  | or => "$or"

/-- The combinator of the given name. -/
def ofName? (name : String) : Option Combinator := [and, or].find? (·.name == name)

theorem ofName?_name (c : Combinator) : ofName? c.name = some c := by cases c <;> decide

end Combinator

end VectorStore
