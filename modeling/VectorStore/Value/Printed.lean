/-
  Values in messages.

  `Value.quoted` shows a value with its texts between quotes, `Value.plain` a text as it is
  and any other value as `quoted` does.  The words for null and the truth values, the
  brackets and the separators are those of all messages of the library.

  A value with an integer of too many digits has no text at all (`Value.isWritable`).
-/
import VectorStore.Value
import VectorStore.Number.Layout
import VectorStore.Number.Reader
import VectorStore.Text.Quoted

namespace VectorStore.Value

mutual

/-- The value with its texts between quotes. -/
def quotedChars : Value → List Char
  | .null => "None".toList
  | .bool b => (if b then "True" else "False").toList
  | .int n => Number.intDigits n
  | .float x => Number.diagnostic.writeChars x
  | .text s => Text.quotedChars s.toList
  | .list items => '[' :: (quotedItems items ++ [']'])
  | .object fields => '\x7b' :: (quotedFields fields ++ ['\x7d'])

/-- The items of a list, separated. -/
def quotedItems : List Value → List Char
  | [] => []
  | [v] => quotedChars v
  | v :: items => quotedChars v ++ ',' :: ' ' :: quotedItems items

/-- The fields of an object, separated. -/
def quotedFields : List (String × Value) → List Char
  | [] => []
  | [(name, v)] => Text.quotedChars name.toList ++ ':' :: ' ' :: quotedChars v
  | (name, v) :: fields =>
    Text.quotedChars name.toList ++
      ':' :: ' ' :: (quotedChars v ++ ',' :: ' ' :: quotedFields fields)

end

/-- The value with its texts between quotes. -/
def quoted (v : Value) : String := String.ofList v.quotedChars

/-- The value, a text as it is. -/
def plain : Value → String
  | .text s => s
  | v => v.quoted

/-! ## Values without a text -/

mutual

/-- Whether a text can be made of the value: none of its integers has more digits than an
    integer's text may have. -/
def isWritable : Value → Bool
  | .int n => decide ((Number.natDigits n.natAbs).length ≤ Number.maxIntDigits)
  | .list items => areWritable items
  | .object fields => areWritableFields fields
  | _ => true

/-- Whether a text can be made of each item. -/
def areWritable : List Value → Bool
  | [] => true
  | v :: items => isWritable v && areWritable items

/-- Whether a text can be made of the value of each field. -/
def areWritableFields : List (String × Value) → Bool
  | [] => true
  | (_, v) :: fields => isWritable v && areWritableFields fields

end

theorem areWritable_eq_all (items : List Value) : areWritable items = items.all isWritable := by
  induction items with
  | nil => rfl
  | cons v items ih => rw [areWritable, List.all_cons, ih]

end VectorStore.Value
