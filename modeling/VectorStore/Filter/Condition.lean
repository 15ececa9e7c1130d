/-
  Conditions: the leaves of a filter.

  A condition compares the field at a path.  It is written as a literal, which means
  equality, or as an object with an `operator` and a `value`.
-/
import VectorStore.Filter.Path
import VectorStore.Value.Coercion

namespace VectorStore.Filter

/-- A field, an operator and the value it takes. -/
structure Condition where
  key : String
  path : Path
  operator : Operator
  value : Value

/-- The operator that a document names. -/
def operatorOf? : Value → Option Operator
  | .text name => Operator.ofName? name
  | _ => none

/-- The condition that an object with an operator states of a field. -/
def Condition.ofFields (key : String) (path : Path) (fields : Fields) : Except Refusal Condition :=
  match Fields.get? fields "operator" with
  | none => .error (.noOperator key)
  | some name =>
    match operatorOf? name with
    | none => .error (.unknownOperator key name)
    | some operator =>
      if operator.needsValue && !Fields.has fields "value" then .error (.noValue key operator)
      else .ok ⟨key, path, operator, Fields.orNull fields "value"⟩

/-- The condition that a document states of a field. -/
def Condition.ofValue (key : String) (raw : Value) : Except Refusal Condition :=
  if key.toList.head? = some '$' then .error (.unknownKeyword key)
  else do
    let path ← Path.ofText key
    match raw with
    | .object fields => ofFields key path fields
    | v => .ok ⟨key, path, .eq, v⟩

/-- The condition on the field that a document names; only a text names one. -/
def Condition.ofEntry (key raw : Value) : Except Refusal Condition :=
  match key with
  | .text s => ofValue s raw
  | v => .error (.badKey v)

/-- The list of values that `in` takes: a list as it is, a text cut at its commas. -/
def choices : Value → Except Refusal (List Value)
  | .list items => .ok items
  | .text s => .ok ((Text.pieces ',' s).map .text)
  | v => .error (.notChoices v.typeName)

/-- Refuses a value that is no number and no text of one. -/
def requireNumber (path : Path) : Value → Except Refusal Unit
  | .int _ | .float _ => .ok ()
  | .text s =>
    match Number.readFloat? s with
    | some _ => .ok ()
    | none => .error (.notNumeral path.text s)
  | v => .error (.notNumber path.text v.typeName)

/-- The pattern that `like` and `ilike` match: the value between wildcards. -/
def likePattern (v : Value) : Except Fault String := do return "%" ++ (← v.toText) ++ "%"

/-- The operands of a combinator. -/
def operands (combinator : Combinator) : Value → Except Refusal (List Value)
  | .list (item :: items) => .ok (item :: items)
  | _ => .error (.noChildren combinator)

end VectorStore.Filter
