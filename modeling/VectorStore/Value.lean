/-
  Documents: the values of JSON, with integers of any size apart from doubles.

  Requests, metadata and filters are documents.  An object keeps its fields in the order
  in which their names first came.

  * `Value.isVoid` holds of the values that stand for "nothing given": null, false, zero and
    whatever is empty;
  * `Fields.get?`, `Fields.put` and `Fields.erase` treat a list of fields as a map in
    insertion order (`get?_put_self`, `get?_put_of_ne`).
-/
import VectorStore.Number.Binary

namespace VectorStore

/-- A JSON document. -/
inductive Value where
  | null
  | bool (b : Bool)
  | int (n : Int)
  | float (x : Float)
  | text (s : String)
  | list (items : List Value)
  | object (fields : List (String × Value))
deriving Inhabited

/-- The fields of an object. -/
abbrev Fields := List (String × Value)

namespace Fields

/-- The value of the field with the given name. -/
def get? (fields : List (String × α)) (name : String) : Option α :=
  match fields with
  | [] => none
  | (n, v) :: rest => if n = name then some v else get? rest name

/-- Whether there is a field with the given name. -/
def has (fields : List (String × α)) (name : String) : Bool := (get? fields name).isSome

/-- The fields with one set: in its place if the name is there, at the end if not. -/
def put (fields : List (String × α)) (name : String) (value : α) : List (String × α) :=
  match fields with
  | [] => [(name, value)]
  | (n, v) :: rest => if n = name then (n, value) :: rest else (n, v) :: put rest name value

/-- The fields without those of the given name. -/
def erase (fields : List (String × α)) (name : String) : List (String × α) :=
  fields.filter (·.1 ≠ name)

/-- The fields with more of them put in, one after another. -/
def putAll (fields : List (String × α)) (more : List (String × α)) : List (String × α) :=
  more.foldl (fun acc f => put acc f.1 f.2) fields

theorem get?_put_self (fields : List (String × α)) (name : String) (value : α) :
    get? (put fields name value) name = some value := by
  fun_induction put fields name value <;> simp_all [get?]

theorem get?_put_of_ne (fields : List (String × α)) {name other : String} (value : α)
    (h : other ≠ name) : get? (put fields name value) other = get? fields other := by
  fun_induction put fields name value <;> simp_all [get?, Ne.symm h]

theorem get?_erase_self (fields : List (String × α)) (name : String) :
    get? (erase fields name) name = none := by
  induction fields with
  | nil => rfl
  | cons f fields ih =>
    by_cases h : f.1 = name
    · simpa [erase, h] using ih
    · simpa [erase, h, get?] using ih

theorem get?_erase_of_ne (fields : List (String × α)) {name other : String} (h : other ≠ name) :
    get? (erase fields name) other = get? fields other := by
  induction fields with
  | nil => rfl
  | cons f fields ih =>
    by_cases hf : f.1 = name
    · simpa [erase, hf, get?, Ne.symm h] using ih
    · by_cases ho : f.1 = other
      · simp [erase, get?, ho, h]
      · simpa [erase, hf, get?, ho] using ih

/-- The field's value, null if there is no such field. -/
def orNull (fields : Fields) (name : String) : Value := (get? fields name).getD .null

end Fields

namespace Value

/-- Whether the value stands for "nothing given". -/
def isVoid : Value → Bool
  | .null => true
  | .bool b => !b
  | .int n => n == 0
  | .float x => x == 0.0
  | .text s => s.isEmpty
  | .list items => items.isEmpty
  | .object fields => fields.isEmpty

/-- The value, or another one if it stands for "nothing given". -/
def orElse (v fallback : Value) : Value := if v.isVoid then fallback else v

/-- The name of a value's type in diagnostics. -/
def typeName : Value → String
  | .null => "NoneType"
  | .bool _ => "bool"
  | .int _ => "int"
  | .float _ => "float"
  | .text _ => "str"
  | .list _ => "list"
  | .object _ => "dict"

/-- Whether the value is null. -/
def isNull : Value → Bool
  | .null => true
  | _ => false

/-- An object's fields. -/
def fields? : Value → Option Fields
  | .object fields => some fields
  | _ => none

/-- A list's items. -/
def items? : Value → Option (List Value)
  | .list items => some items
  | _ => none

/-- A text. -/
def text? : Value → Option String
  | .text s => some s
  | _ => none

/-- Whether the value is the number `n`; true counts as one and false as zero. -/
def isNumber (v : Value) (n : Int) : Bool :=
  match v with
  | .int m => m == n
  | .bool b => (if b then 1 else 0) == n
  | .float x => Number.intEqFloat n x
  | _ => false

/-- Whether an integer is below the value, if the value is a number. -/
def aboveInt? (v : Value) (n : Int) : Option Bool :=
  match v with
  | .int m => some (n < m)
  | .bool b => some (n < if b then 1 else 0)
  | .float x => some (Number.intLtFloat n x)
  | _ => none

/-- Equality of two values neither of which is a list or an object; numbers are compared
    by value, a truth value equals only itself. -/
def sameScalar : Value → Value → Bool
  | .null, .null => true
  | .bool a, .bool b => a == b
  | .int a, .int b => a == b
  | .int a, .float b => Number.intEqFloat a b
  | .float a, .int b => Number.intEqFloat b a
  | .float a, .float b => a == b
  | .text a, .text b => a == b
  | _, _ => false

end Value

end VectorStore
