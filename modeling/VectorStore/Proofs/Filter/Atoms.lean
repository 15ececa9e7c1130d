/-
  What the atoms of a statement's condition test.

  * `Test.read?` reads an atom over a column: a comparison of the text at a path with a
    parameter or with the elements of one, or a question for presence;
  * `Fragment.test?` is the test that a fragment writes;
  * `Fragment.read?_chars`: the text of a fragment reads back as its test.
-/
import VectorStore.Proofs.Filter.Relocation

namespace VectorStore.Filter

/-- What an atom tests of the document in its column. -/
inductive Test where
  /-- the text at the path equals the parameter -/
  | equal (path : Path) (index : Nat)
  /-- the text at the path differs from the parameter -/
  | unequal (path : Path) (index : Nat)
  /-- the text at the path equals an element of the parameter -/
  | among (path : Path) (index : Nat)
  /-- the path leads somewhere -/
  | present (path : Path)

/-! ## The reader -/

/-- A text up to a character, and what follows that character. -/
def upTo? (stop : Char) : List Char → Option (List Char × List Char)
  | [] => none
  | c :: cs => if c = stop then some ([], cs) else (upTo? stop cs).map fun r => (c :: r.1, r.2)

/-- The text between quotes at the start of a text, and what follows. -/
def quotedAt? : List Char → Option (List Char × List Char)
  | '\x27' :: cs => upTo? '\x27' cs
  | _ => none

/-- The path that an array literal writes, its items taken as they stand. -/
def pathOf? : List Char → Option Path
  | '\x7b' :: cs =>
    match upTo? '\x7d' cs with
    | some (items, []) => some ((Text.split ',' items).map String.ofList)
    | _ => none
  | _ => none

/-- The path between quotes at the start of a text, and what follows. -/
def pathAt? (cs : List Char) : Option (Path × List Char) := do
  let (literal, rest) ← quotedAt? cs
  return (← pathOf? literal, rest)

/-- The index of the placeholder at the start of a text, and what follows. -/
def slotAt? : List Char → Option (Nat × List Char)
  | '$' :: cs =>
    let digits := cs.takeWhile Char.isDigit
    if digits = [] then none else some (Number.ofDigits digits, cs.drop digits.length)
  | _ => none

/-- The index of the placeholder before a text. -/
def slotBefore? (after cs : List Char) : Option Nat := do
  let (index, rest) ← slotAt? cs
  if rest = after then some index else none

/-- What is tested of the text at a path. -/
def Test.readComparison? (path : Path) : List Char → Option Test
  | ' ' :: '=' :: ' ' :: 'A' :: 'N' :: 'Y' :: '(' :: cs =>
    (slotBefore? "::text[])".toList cs).map (among path)
  | ' ' :: '=' :: ' ' :: cs => (slotBefore? [] cs).map (equal path)
  | ' ' :: '!' :: '=' :: ' ' :: cs => (slotBefore? [] cs).map (unequal path)
  | _ => none

/-- What is tested of a column. -/
def Test.readTest? : List Char → Option Test
  | '#' :: '>' :: '>' :: cs => do
    let (path, rest) ← pathAt? cs
    readComparison? path rest
  | ' ' :: '?' :: ' ' :: cs => do
    let (name, rest) ← quotedAt? cs
    if rest = [] then some (present [String.ofList name]) else none
  | ' ' :: '#' :: '>' :: ' ' :: cs => do
    let (path, rest) ← pathAt? cs
    if rest = " IS NOT NULL".toList then some (present path) else none
  | _ => none

/-- The test that an atom over the column writes. -/
def Test.read? (column : String) (atom : List Char) : Option Test := do
  readTest? (← atom.dropPrefix? column.toList)

/-! ## Parts of fragments -/

theorem upTo?_append {stop : Char} {cs : List Char} (h : stop ∉ cs) (rest : List Char) :
    upTo? stop (cs ++ stop :: rest) = some (cs, rest) := by
  induction cs with
  | nil => simp [upTo?]
  | cons c cs ih =>
    obtain ⟨hc, hcs⟩ : stop ≠ c ∧ stop ∉ cs := by simpa using h
    rw [List.cons_append, upTo?, if_neg hc.symm, ih hcs]
    rfl

/-- A path with segments, none of which has a character that array literals use. -/
def Path.Writable (path : Path) : Prop :=
  path ≠ [] ∧ ∀ s ∈ path, ∀ c ∈ [',', '\x7d', '\x27'], c ∉ s.toList

theorem withoutDocument_ne_nil : ∀ {segments : List String}, segments ≠ [] →
    Path.withoutDocument segments ≠ []
  | [], h => absurd rfl h
  | [_], h => h
  | first :: second :: rest, _ => by
    rw [Path.withoutDocument]
    split <;> exact List.cons_ne_nil _ _

theorem ofText_ne_nil {key : String} {path : Path} (h : Path.ofText key = .ok path) :
    path ≠ [] := by
  have hp : Text.pieces '.' key ≠ [] := by simpa [Text.pieces] using Text.split_ne_nil '.' _
  rw [(of_ofText_eq_ok h).1]
  exact withoutDocument_ne_nil hp

theorem notMem_of_isSegment {s : String} (h : isSegment s = true) {c : Char}
    (hc : isSegmentChar c = false) (hn : c ≠ '\n') : c ∉ s.toList := by
  intro hm
  simp only [isSegment, Bool.and_eq_true, List.all_eq_true] at h
  rcases mem_withoutFinalFeed hm with hm | rfl
  · rw [h.2 c hm] at hc; cases hc
  · exact hn rfl

/-- **The paths of an accepted filter can be written as array literals.** -/
theorem writable_of_mem_leaves {v : Value} {bs : List Binding}
    (h : parameters (ofValue v) = .ok bs) {c : Condition} (hc : c ∈ leaves (ofValue v)) :
    c.path.Writable := by
  refine ⟨ofText_ne_nil (ofText_of_mem_leaves h hc), fun s hs d hd => ?_⟩
  have hseg : isSegment s = true := isSegment_of_mem_leaves h hc s hs
  simp only [List.mem_cons, List.not_mem_nil, or_false] at hd
  rcases hd with rfl | rfl | rfl <;> exact notMem_of_isSegment hseg (by decide) (by decide)

theorem notMem_join {path : Path} (h : path.Writable) {c : Char} (hc : c ∈ ['\x7d', '\x27']) :
    c ∉ Text.join ',' (path.map String.toList) := by
  intro hj
  rcases mem_join hj with rfl | ⟨_, hp, hm⟩
  · revert hc; decide
  · obtain ⟨s, hs, rfl⟩ := List.mem_map.1 hp
    exact h.2 s hs c (List.mem_cons_of_mem _ hc) hm

theorem pathOf?_literal {path : Path} (h : path.Writable) :
    pathOf? ('\x7b' :: (Text.join ',' (path.map String.toList) ++ ['\x7d'])) = some path := by
  have hs : Text.split ',' (Text.join ',' (path.map String.toList)) = path.map String.toList := by
    refine Text.split_join (by simpa using h.1) fun piece hp => ?_
    obtain ⟨s, hs, rfl⟩ := List.mem_map.1 hp
    exact h.2 s hs ',' (by simp)
  rw [pathOf?, upTo?_append (notMem_join h (by simp))]
  dsimp only
  rw [hs]
  simp

theorem pathAt?_pathLiteral {path : Path} (h : path.Writable) (rest : List Char) :
    pathAt? (pathLiteral path ++ rest) = some (path, rest) := by
  have hq : '\x27' ∉ '\x7b' :: (Text.join ',' (path.map String.toList) ++ ['\x7d']) := by
    simpa using notMem_join h (by simp)
  have hl : pathLiteral path ++ rest =
      '\x27' :: ('\x7b' :: (Text.join ',' (path.map String.toList) ++ ['\x7d']) ++
        '\x27' :: rest) := by
    simp [pathLiteral]
  rw [hl, pathAt?, quotedAt?, upTo?_append hq, Option.bind_eq_bind, Option.bind_some]
  dsimp only
  rw [pathOf?_literal h]
  rfl

theorem slotBefore?_placeholder (index : Nat) {after : List Char} (h : Stops after) :
    slotBefore? after (placeholder index ++ after) = some index := by
  have hd : Number.natDigits index ≠ [] := Nat.toDigits_ne_nil
  rw [slotBefore?, placeholder, List.cons_append, slotAt?, takeWhile_natDigits index h,
    if_neg hd, List.drop_left, Number.ofDigits_natDigits]
  exact if_pos rfl

/-! ## Fragments -/

/-- The test that a fragment writes, if its operator is one of those that compare texts or
    ask for presence. -/
def Fragment.test? (f : Fragment) : Option Test :=
  match f.operator with
  | .eq => some (.equal f.path f.index)
  | .neq => some (.unequal f.path f.index)
  | .oneOf => some (.among f.path f.index)
  | .present => some (.present f.path)
  | _ => none

namespace Test

variable {path : Path}

theorem readComparison?_equal (path : Path) (index : Nat) :
    readComparison? path (" = ".toList ++ placeholder index) = some (equal path index) := by
  have hs : slotBefore? [] (placeholder index ++ []) = some index :=
    slotBefore?_placeholder index (by simp [Stops])
  rw [List.append_nil] at hs
  exact congrArg (Option.map (equal path)) hs

theorem readComparison?_unequal (path : Path) (index : Nat) :
    readComparison? path (" != ".toList ++ placeholder index) = some (unequal path index) := by
  have hs : slotBefore? [] (placeholder index ++ []) = some index :=
    slotBefore?_placeholder index (by simp [Stops])
  rw [List.append_nil] at hs
  exact congrArg (Option.map (unequal path)) hs

theorem readComparison?_among (path : Path) (index : Nat) :
    readComparison? path (" = ANY(".toList ++ (placeholder index ++ "::text[])".toList)) =
      some (among path index) :=
  congrArg (Option.map (among path)) (slotBefore?_placeholder index (by simp [Stops]))

theorem readTest?_name {name : String} (h : '\x27' ∉ name.toList) :
    readTest? (" ? '".toList ++ (name.toList ++ ['\x27'])) = some (present [name]) := by
  show (quotedAt? ('\x27' :: (name.toList ++ ['\x27'])) >>= _) = _
  rw [quotedAt?, upTo?_append h, Option.bind_eq_bind, Option.bind_some]
  dsimp only
  rw [if_pos rfl, String.ofList_toList]

theorem readTest?_path (h : path.Writable) :
    readTest? (" #> ".toList ++ (pathLiteral path ++ " IS NOT NULL".toList)) =
      some (present path) := by
  show (pathAt? (pathLiteral path ++ " IS NOT NULL".toList) >>= _) = _
  rw [pathAt?_pathLiteral h, Option.bind_eq_bind, Option.bind_some]
  exact if_pos rfl

theorem read?_append (column : String) (cs : List Char) :
    read? column (column.toList ++ cs) = readTest? cs := by
  rw [read?, List.dropPrefix?_append_of_beq _ (by simp)]
  rfl

theorem read?_extraction (column : String) (h : path.Writable) (cs : List Char) :
    read? column (extraction column path ++ cs) = readComparison? path cs := by
  rw [extraction, List.append_assoc, read?_append]
  show (pathAt? (pathLiteral path ++ cs) >>= _) = _
  rw [pathAt?_pathLiteral h]
  rfl

end Test

/-- **The text of a fragment reads back as its test.** -/
theorem Fragment.read?_chars {f : Fragment} {t : Test} (h : f.path.Writable)
    (ht : f.test? = some t) : Test.read? f.column f.chars = some t := by
  obtain ⟨column, path, op, index⟩ := f
  cases op <;> cases ht
  case eq => exact (Test.read?_extraction column h _).trans (Test.readComparison?_equal path index)
  case neq =>
    exact (Test.read?_extraction column h _).trans (Test.readComparison?_unequal path index)
  case oneOf =>
    exact (Test.read?_extraction column h _).trans (Test.readComparison?_among path index)
  case present =>
    rw [chars]
    dsimp only
    split
    · next segment =>
      have hq : '\x27' ∉ segment.toList := h.2 segment (by simp) _ (by simp)
      rw [Test.read?_append, Test.readTest?_name hq]
    · rw [Test.read?_append, Test.readTest?_path h]

example : Test.read? "metadata" "metadata#>>'{origin,city}' = ANY($3::text[])".toList =
    some (.among ["origin", "city"] 3) := by rfl

end VectorStore.Filter
