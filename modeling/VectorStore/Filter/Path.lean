/-
  Paths to metadata fields.

  A path is written with dots.  Its segments hold word characters and `-` only
  (`isSegment`); a line feed at the very end of a segment is let through.  A leading
  `metadata` names the document itself and is dropped unless it stands alone.
-/
import VectorStore.Filter.Refusal
import VectorStore.Text.Search
import VectorStore.Text.Word

namespace VectorStore.Filter

/-- The segments of a path, outermost first. -/
abbrev Path := List String

/-- The text without one line feed at its end. -/
def withoutFinalFeed (cs : List Char) : List Char :=
  if cs.getLast? = some '\n' then cs.dropLast else cs

/-- A character that a segment may hold. -/
def isSegmentChar (c : Char) : Bool := Text.isWord c || c == '-'

/-- Whether a text is a segment of a path. -/
def isSegment (s : String) : Bool :=
  let cs := withoutFinalFeed s.toList
  !cs.isEmpty && cs.all isSegmentChar

/-- The name of the document itself. -/
def documentName : String := "metadata"

namespace Path

/-- The segments without a leading name of the document. -/
def withoutDocument : List String → Path
  | first :: second :: rest =>
    if first = documentName then second :: rest else first :: second :: rest
  | segments => segments

/-- The path that a text writes. -/
def ofText (key : String) : Except Refusal Path :=
  if key.isEmpty then .error (.badKey (.text key))
  else
    let segments := Text.pieces '.' key
    match segments.find? (!isSegment ·) with
    | some segment => .error (.badSegment segment key)
    | none => .ok (withoutDocument segments)

/-- The path that a document writes. -/
def ofValue : Value → Except Refusal Path
  | .text key => ofText key
  | v => .error (.badKey v)

/-- The path as it is written. -/
def text (path : Path) : String := ".".intercalate path

/-- The document that holds `value` at the path and nothing else. -/
def fold (path : Path) (value : Value) : Value :=
  path.foldr (fun segment inner => .object [(segment, inner)]) value

theorem fold_cons (segment : String) (path : Path) (value : Value) :
    fold (segment :: path) value = .object [(segment, fold path value)] := rfl

end Path

end VectorStore.Filter
