/-
  Why a filter is refused.

  Every refusal is a validation error, but for the fault of a value that no text can be made of;
  `Refusal.failure` gives the wording and the details.
-/
import VectorStore.Error
import VectorStore.Filter.Operator

namespace VectorStore.Filter

/-- Why a filter, or the place it is compiled for, is refused. -/
inductive Refusal where
  | notObject (typeName : String)
  | empty
  | badKey (key : Value)
  | badSegment (segment key : String)
  | unknownKeyword (key : String)
  | noOperator (key : String)
  | unknownOperator (key : String) (operator : Value)
  | noValue (key : String) (operator : Operator)
  | noChildren (combinator : Combinator)
  /-- the value of `in` is neither a list nor a text -/
  | notChoices (typeName : String)
  | notNumber (path typeName : String)
  | notNumeral (path text : String)
  | badColumn (column : Value)
  | badStart
  /-- there is no text of the value of a condition -/
  | unwritable

/-- The failure that reports a refusal. -/
def Refusal.failure : Refusal → Failure
  | notObject t =>
    .error (.of .validation "filter expression must be a mapping" [("type", .text t)])
  | empty => .error (.of .validation "filter expression must not be empty")
  | badKey key =>
    .showing key
      (.of .validation "filter field path must be a non-empty string" [("key", .text key.quoted)])
  | badSegment segment key =>
    .error (.of .validation
      s!"invalid segment {Text.quoted segment} in filter field path {Text.quoted key}"
      [("key", .text key)])
  | unknownKeyword key =>
    .error (.of .validation s!"unrecognized operator {Text.quoted key}"
      [("key", .text key), ("operator", .text key)])
  | noOperator key =>
    .error (.of .validation
      s!"filter condition for {Text.quoted key} must be a literal or an object with an 'operator'"
      [("key", .text key)])
  | unknownOperator key operator =>
    .showing operator
      (.of .validation s!"unrecognized operator {operator.quoted} for key {Text.quoted key}"
        [("key", .text key), ("operator", .text operator.quoted)])
  | noValue key operator =>
    .error (.of .validation
      s!"operator {Text.quoted operator.name} for key {Text.quoted key} requires a 'value'"
      [("key", .text key), ("operator", .text operator.name)])
  | noChildren combinator =>
    .error (.of .validation s!"{combinator.name} requires a non-empty list of filter expressions"
      [("operator", .text combinator.name)])
  | notChoices t =>
    .error (.of .validation "'in' requires a list or a comma-separated string"
      [("value_type", .text t)])
  | notNumber path t =>
    .error (.of .validation "numeric comparison requires a number"
      [("key", .text path), ("value_type", .text t)])
  | notNumeral path text =>
    .error (.of .validation s!"numeric comparison requires a number, got {Text.quoted text}"
      [("key", .text path)])
  | badColumn column =>
    .showing column
      (.of .validation "column must be a plain SQL identifier" [("column", .text column.quoted)])
  | badStart => .error (.of .validation "start_index must be a positive integer")
  | unwritable => .fault .intTooLong

end VectorStore.Filter
