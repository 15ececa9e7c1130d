/-
  Filters as parameterised SQL.

  A filter compiles to a `Predicate` over a JSONB column with positional placeholders and to
  the parameters they stand for.

  * `Fragment.chars` is the text of one condition: the path stands in it, the value never
    does, only its placeholder;
  * `Condition.binding` is the parameter a condition binds, if it binds one;
  * `compileAt` numbers the placeholders in document order, starting at a given index;
  * `Predicate.chars` puts every group between parentheses, so that the text reads back as
    the tree.
-/
import VectorStore.Filter
import VectorStore.Json.Writer

namespace VectorStore.Filter

/-- The SQL type of a parameter. -/
inductive ParamType where
  | text
  | numeric
  | textArray
  | jsonb
deriving DecidableEq, Repr

/-- The SQL name of a parameter's type. -/
def ParamType.name : ParamType → String
  | text => "text"
  | numeric => "numeric"
  | textArray => "text[]"
  | jsonb => "jsonb"

/-- The type of the given SQL name. -/
def ParamType.ofName? (name : String) : Option ParamType :=
  [text, numeric, textArray, jsonb].find? (·.name == name)

/-- A parameter: its value and its type. -/
structure Binding where
  value : Value
  type : ParamType

/-- The parameter that a condition binds; `present` binds none. -/
def Condition.binding (c : Condition) : Except Refusal (Option Binding) :=
  match c.operator with
  | .eq | .neq => .ok (some ⟨c.value, .text⟩)
  | .gt | .gte | .lt | .lte => do
    requireNumber c.path c.value
    .ok (some ⟨c.value, .numeric⟩)
  | .like | .ilike => do
    let pattern ← (likePattern c.value).mapError fun _ => .unwritable
    .ok (some ⟨.text pattern, .text⟩)
  | .oneOf => do .ok (some ⟨.list (← choices c.value), .textArray⟩)
  | .contains => do
    let text ← (Json.encode Json.spaced (c.path.fold c.value)).mapError fun _ => .unwritable
    .ok (some ⟨.text text, .jsonb⟩)
  | .present => .ok none

/-- A condition's place in the predicate: the column, the path, the operator and the index
    of its placeholder. -/
structure Fragment where
  column : String
  path : Path
  operator : Operator
  index : Nat
deriving DecidableEq, Repr

/-- A path as an array literal. -/
def pathLiteral (path : Path) : List Char :=
  '\x27' :: '\x7b' :: (Text.join ',' (path.map String.toList) ++ ['\x7d', '\x27'])

/-- The field's value as text. -/
def extraction (column : String) (path : Path) : List Char :=
  column.toList ++ '#' :: '>' :: '>' :: pathLiteral path

/-- A placeholder. -/
def placeholder (index : Nat) : List Char := '$' :: Number.natDigits index

/-- The text of a fragment. -/
def Fragment.chars (f : Fragment) : List Char :=
  let compare (symbol : String) : List Char :=
    extraction f.column f.path ++ ' ' :: (symbol.toList ++ ' ' :: placeholder f.index)
  let compareNumber (symbol : String) : List Char :=
    '(' :: (extraction f.column f.path ++
      (")::numeric ".toList ++ (symbol.toList ++ ' ' :: placeholder f.index)))
  match f.operator with
  | .eq => compare "="
  | .neq => compare "!="
  | .gt => compareNumber ">"
  | .gte => compareNumber ">="
  | .lt => compareNumber "<"
  | .lte => compareNumber "<="
  | .like => compare "LIKE"
  | .ilike => compare "ILIKE"
  | .oneOf =>
    extraction f.column f.path ++
      (" = ANY(".toList ++ (placeholder f.index ++ "::text[])".toList))
  | .contains =>
    f.column.toList ++ (" @> ".toList ++ (placeholder f.index ++ "::jsonb".toList))
  | .present =>
    match f.path with
    | [segment] => f.column.toList ++ (" ? '".toList ++ (segment.toList ++ ['\x27']))
    | path => f.column.toList ++ (" #> ".toList ++ (pathLiteral path ++ " IS NOT NULL".toList))

/-- A predicate: fragments put together by connectives. -/
inductive Predicate where
  | atom (f : Fragment)
  | group (combinator : Combinator) (parts : List Predicate)

/-- The connective between the parts of a group. -/
def connective : Combinator → List Char
  | .and => " AND ".toList
  | .or => " OR ".toList

mutual

/-- The text of a predicate. -/
def Predicate.chars : Predicate → List Char
  | .atom f => f.chars
  | .group c parts => '(' :: (partsChars c parts ++ [')'])

/-- The texts of the parts, with the connective between them. -/
def partsChars (c : Combinator) : List Predicate → List Char
  | [] => []
  | [p] => p.chars
  | p :: parts => p.chars ++ (connective c ++ partsChars c parts)

end

/-- The text of a predicate. -/
def Predicate.text (p : Predicate) : String := String.ofList p.chars

/-- All of the parts: one part alone stands for itself. -/
def conjunction : List Predicate → Predicate
  | [p] => p
  | parts => .group .and parts

mutual

/-- The predicate of a filter whose first placeholder has the given index, and its
    parameters in the order of their placeholders. -/
def compileAt (column : String) : Nat → Filter → Except Refusal (Predicate × List Binding)
  | index, .entries parts => do
    if parts.isEmpty then .error .empty
    else
      let (ps, bs) ← compileParts column index parts
      .ok (conjunction ps, bs)
  | index, .group c children => do
    let (ps, bs) ← compileParts column index children
    .ok (.group c ps, bs)
  | index, .leaf c => do
    let b ← c.binding
    .ok (.atom ⟨column, c.path, c.operator, index⟩, b.toList)
  | _, .refused r => .error r
  | _, .foreign v => .error (.notObject v.typeName)

/-- The predicates of several filters; each numbers its placeholders where the one before
    it stops. -/
def compileParts (column : String) :
    Nat → List Filter → Except Refusal (List Predicate × List Binding)
  | _, [] => .ok ([], [])
  | index, part :: parts => do
    let (p, bs) ← compileAt column index part
    let (ps, more) ← compileParts column (index + bs.length) parts
    .ok (p :: ps, bs ++ more)

end

/-- A compiled filter. -/
structure Compiled where
  predicate : Predicate
  bindings : List Binding
  startIndex : Nat

/-- The text of a compiled filter. -/
def Compiled.sql (c : Compiled) : String := c.predicate.text

/-- The first index that the filter leaves free. -/
def Compiled.nextIndex (c : Compiled) : Nat := c.startIndex + c.bindings.length

/-- An ASCII letter or underscore, then ASCII letters, digits and underscores; a line feed
    at the very end is let through. -/
def isIdentifier (s : String) : Bool :=
  match withoutFinalFeed s.toList with
  | [] => false
  | c :: cs => (c.isAlpha || c == '_') && cs.all Text.isAsciiWord

/-- The name of a column. -/
def columnOf : Value → Except Refusal String
  | .text s => if isIdentifier s then .ok s else .error (.badColumn (.text s))
  | v => .error (.badColumn v)

/-- The index of the first placeholder. -/
def startOf : Value → Except Refusal Nat
  | .int n => if 1 ≤ n then .ok n.toNat else .error .badStart
  | _ => .error .badStart

/-- The filter that a document writes, compiled for a column and a first index. -/
def compile (expression : Value) (start : Nat := 1) (column : String := documentName) :
    Except Refusal Compiled := do
  let (p, bs) ← compileAt column start (ofValue expression)
  .ok ⟨p, bs, start⟩

/-- Refuses a malformed filter. -/
def validate (expression : Value) : Except Refusal Unit := do
  let _ ← compile expression
  .ok ()

end VectorStore.Filter
