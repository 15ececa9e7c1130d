/-
  Parameters as they are bound.

  A numeric parameter becomes an exact decimal, an array of texts takes the text of each item
  (`asText`), JSON text is bound as it is, and anything else by its text.
-/
import VectorStore.Filter.Sql
import VectorStore.Number.Decimal
import VectorStore.Value.Coercion

namespace VectorStore.Postgres

/-- A parameter as the driver takes it. -/
inductive Bound where
  | value (v : Value)
  | decimal (d : Number.Decimal)

/-- The text by which a value is bound: null has none, a text is itself, and anything else is
    written as JSON. -/
def asText : Value → Except Fault (Option String)
  | .null => .ok none
  | .text s => .ok (some s)
  | v => do return some (← Json.encode Json.spaced v)

/-- The text by which a value is bound, as a document. -/
def textValue (v : Value) : Except Fault Value := do return ((← asText v).map .text).getD .null

/-- The parameter that a value is bound as under a type, or under none. -/
def bind (type : Option Filter.ParamType) (v : Value) : Except Fault Bound :=
  match type with
  | some .numeric => do
    let text ← v.toText
    match Number.Decimal.read? text with
    | some d => return .decimal d
    | none => .error (.badDecimal text)
  | some .textArray => do return .value (.list (← (← v.toItems).mapM textValue))
  | some .jsonb => .ok (.value v)
  | some .text | none => do return .value (← textValue v)

end VectorStore.Postgres
