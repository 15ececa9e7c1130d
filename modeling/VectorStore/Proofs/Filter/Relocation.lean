/-
  Filters compiled for another place.

  A filter is compiled for a column and a first index.  Neither has a part in whether it is
  accepted, nor in its parameters; they only show in its text.

  * `Predicate.moved` puts another column into every fragment of a predicate and moves its
    placeholders on; `predicateAt_moved`: so does compiling for another place;
  * `relocate` does the same to a text: outside of quotes it writes the column for the name of
    the document and counts every placeholder on;
  * `relocate_chars`: on the text of a predicate over the document's own column the two agree.
-/
import VectorStore.Proofs.Filter.Placeholders
import VectorStore.Proofs.Numbers

namespace VectorStore.Filter

/-! ## Moved predicates -/

/-- The fragment over another column, its placeholder moved on. -/
def Fragment.moved (column : String) (shift : Nat) (f : Fragment) : Fragment :=
  { f with column := column, index := f.index + shift }

mutual

/-- The predicate over another column, its placeholders moved on. -/
def Predicate.moved (column : String) (shift : Nat) : Predicate → Predicate
  | .atom f => .atom (f.moved column shift)
  | .group c parts => .group c (allMoved column shift parts)

/-- The predicates over another column, their placeholders moved on. -/
def allMoved (column : String) (shift : Nat) : List Predicate → List Predicate
  | [] => []
  | p :: parts => p.moved column shift :: allMoved column shift parts

end

variable (column : String) (shift : Nat)

theorem moved_conjunction : ∀ parts : List Predicate,
    (conjunction parts).moved column shift = conjunction (allMoved column shift parts)
  | [] => by simp only [conjunction, Predicate.moved, allMoved]
  | [p] => by simp only [conjunction, allMoved]
  | p :: q :: parts => by simp only [conjunction, Predicate.moved, allMoved]

mutual

/-- **A filter compiled for another place is the moved predicate.** -/
theorem predicateAt_moved (other : String) : ∀ (index : Nat) (f : Filter),
    predicateAt column (index + shift) f = (predicateAt other index f).moved column shift
  | index, .entries parts => by
    rw [predicateAt, predicateAt, moved_conjunction, predicatesAt_moved other index parts]
  | index, .group c children => by
    rw [predicateAt, predicateAt, Predicate.moved, predicatesAt_moved other index children]
  | index, .leaf c => rfl
  | index, .refused r => rfl
  | index, .foreign v => rfl

theorem predicatesAt_moved (other : String) : ∀ (index : Nat) (filters : List Filter),
    predicatesAt column (index + shift) filters =
      allMoved column shift (predicatesAt other index filters)
  | index, [] => rfl
  | index, f :: filters => by
    rw [predicatesAt, predicatesAt, allMoved, predicateAt_moved other index f,
      Nat.add_right_comm index shift, predicatesAt_moved other _ filters]

end

/-! ## Relocated texts -/

/-- The text behind `skip` characters, relocated; `quoted` is whether it begins inside of
    quotes. -/
def relocateFrom : (skip : Nat) → (quoted : Bool) → List Char → List Char
  | _, _, [] => []
  | skip + 1, quoted, _ :: cs => relocateFrom skip quoted cs
  | 0, true, c :: cs => c :: relocateFrom 0 (c != '\x27') cs
  | 0, false, c :: cs =>
    let digits := cs.takeWhile Char.isDigit
    if c = '$' ∧ digits ≠ [] then
      placeholder (Number.ofDigits digits + shift) ++ relocateFrom digits.length false cs
    else if documentName.toList.isPrefixOf (c :: cs) then
      column.toList ++ relocateFrom (documentName.length - 1) false cs
    else c :: relocateFrom 0 (c == '\x27') cs

/-- The text with the column in place of the name of the document and every placeholder
    counted on by `shift`; what stands between quotes stays as it is. -/
def relocate (cs : List Char) : List Char := relocateFrom column shift 0 false cs

example : relocate "doc" 3 "metadata#>>'{metadata}' = $1".toList =
    "doc#>>'{metadata}' = $4".toList := by decide

variable {column shift}

theorem relocateFrom_length (quoted : Bool) (cs rest : List Char) :
    relocateFrom column shift cs.length quoted (cs ++ rest) =
      relocateFrom column shift 0 quoted rest := by
  induction cs with
  | nil => rfl
  | cons c cs ih => exact ih

theorem relocateFrom_quoted {cs : List Char} (h : '\x27' ∉ cs) (rest : List Char) :
    relocateFrom column shift 0 true (cs ++ '\x27' :: rest) =
      cs ++ '\x27' :: relocate column shift rest := by
  induction cs with
  | nil => rfl
  | cons c cs ih =>
    obtain ⟨hc, hcs⟩ : '\x27' ≠ c ∧ '\x27' ∉ cs := by simpa using h
    rw [List.cons_append, relocateFrom, bne_iff_ne.2 hc.symm, ih hcs, List.cons_append]

/-- A text becomes another one, whatever follows. -/
def Becomes (column : String) (shift : Nat) (cs ds : List Char) : Prop :=
  ∀ rest, relocate column shift (cs ++ rest) = ds ++ relocate column shift rest

theorem Becomes.append {cs ds cs' ds' : List Char} (h : Becomes column shift cs ds)
    (h' : Becomes column shift cs' ds') : Becomes column shift (cs ++ cs') (ds ++ ds') := by
  intro rest
  rw [List.append_assoc, h, h', List.append_assoc]

/-- Whether relocating may do something at a character. -/
def isPlace (c : Char) : Bool := c == '$' || c == '\x27' || c == 'm'

theorem isPrefixOf_documentName {c : Char} (hc : c ≠ 'm') (cs : List Char) :
    documentName.toList.isPrefixOf (c :: cs) = false := by
  have hd : documentName.toList = 'm' :: "etadata".toList := by decide
  rw [hd, List.isPrefixOf, beq_eq_false_iff_ne.2 hc.symm, Bool.false_and]

theorem becomes_cons {c : Char} (hc : isPlace c = false) {cs ds : List Char}
    (h : Becomes column shift cs ds) : Becomes column shift (c :: cs) (c :: ds) := by
  intro rest
  simp only [isPlace, Bool.or_eq_false_iff, beq_eq_false_iff_ne] at hc
  obtain ⟨⟨hdollar, hquote⟩, hm⟩ := hc
  have hd := isPrefixOf_documentName hm (cs ++ rest)
  have hr : relocateFrom column shift 0 false (cs ++ rest) = _ := h rest
  rw [List.cons_append, relocate, relocateFrom, if_neg fun hp => hdollar hp.1, hd,
    beq_eq_false_iff_ne.2 hquote, hr]
  rfl

theorem becomes_nil : Becomes column shift [] [] := fun _ => rfl

/-- A text without places stays. -/
theorem becomes_self (cs : List Char) (h : cs.any isPlace = false) :
    Becomes column shift cs cs := by
  induction cs with
  | nil => exact becomes_nil
  | cons c cs ih =>
    rw [List.any_cons, Bool.or_eq_false_iff] at h
    exact becomes_cons h.1 (ih h.2)

theorem becomes_document : Becomes column shift documentName.toList column.toList :=
  fun rest => congrArg _ (relocateFrom_length false documentName.toList.tail rest)

/-- A text without quotes, between quotes. -/
theorem becomes_quoted {cs : List Char} (h : '\x27' ∉ cs) :
    Becomes column shift ('\x27' :: (cs ++ ['\x27'])) ('\x27' :: (cs ++ ['\x27'])) := by
  intro rest
  rw [List.cons_append, List.append_assoc, List.singleton_append, List.cons_append,
    List.append_assoc, List.singleton_append]
  exact congrArg _ (relocateFrom_quoted h rest)

theorem relocate_placeholder (index : Nat) {rest : List Char} (hr : Stops rest) :
    relocate column shift (placeholder index ++ rest) =
      placeholder (index + shift) ++ relocate column shift rest := by
  rw [placeholder, List.cons_append, relocate, relocateFrom, takeWhile_natDigits index hr,
    if_pos ⟨rfl, Nat.toDigits_ne_nil⟩, Number.ofDigits_natDigits, relocateFrom_length]
  rfl

/-! ## Fragments -/

theorem becomes_pathLiteral {path : Path} (h : ∀ s ∈ path, Unmarked s) :
    Becomes column shift (pathLiteral path) (pathLiteral path) := by
  have hq : '\x27' ∉ '\x7b' :: (Text.join ',' (path.map String.toList) ++ ['\x7d']) := by
    intro hq
    simp only [List.mem_cons, List.mem_append, List.not_mem_nil, or_false] at hq
    rcases hq with hq | hq | hq
    · exact absurd hq (by decide)
    · exact notMem_marks_of_mem_join h hq (by decide)
    · exact absurd hq (by decide)
  have he : pathLiteral path =
      '\x27' :: ('\x7b' :: (Text.join ',' (path.map String.toList) ++ ['\x7d']) ++ ['\x27']) := by
    simp [pathLiteral]
  rw [he]
  exact becomes_quoted hq

theorem becomes_extraction {path : Path} (h : ∀ s ∈ path, Unmarked s) :
    Becomes column shift (extraction documentName path) (extraction column path) :=
  becomes_document.append ((becomes_self ['#', '>', '>'] (by decide)).append
    (becomes_pathLiteral h))

/-- A text becomes another one if no digit follows. -/
def Ends (column : String) (shift : Nat) (cs ds : List Char) : Prop :=
  ∀ rest, Stops rest → relocate column shift (cs ++ rest) = ds ++ relocate column shift rest

theorem Becomes.ends {cs ds : List Char} (h : Becomes column shift cs ds) :
    Ends column shift cs ds := fun rest _ => h rest

theorem Becomes.append_ends {cs ds cs' ds' : List Char} (h : Becomes column shift cs ds)
    (h' : Ends column shift cs' ds') : Ends column shift (cs ++ cs') (ds ++ ds') := by
  intro rest hr
  rw [List.append_assoc, h, h' rest hr, List.append_assoc]

theorem ends_placeholder (index : Nat) :
    Ends column shift (placeholder index) (placeholder (index + shift)) :=
  fun _ hr => relocate_placeholder index hr

/-- A placeholder before a colon. -/
theorem ends_colon (index : Nat) (after : List Char) (h : (':' :: after).any isPlace = false) :
    Ends column shift (placeholder index ++ ':' :: after)
      (placeholder (index + shift) ++ ':' :: after) := by
  intro rest hr
  have hs : Stops (':' :: after ++ rest) := stops_of_not_isDigit (by decide) _
  rw [List.append_assoc, relocate_placeholder index hs, becomes_self _ h, List.append_assoc]

/-- **The text of a fragment over the document's column becomes that of the moved one.** -/
theorem Fragment.ends_chars {f : Fragment} (hc : f.column = documentName)
    (hp : ∀ s ∈ f.path, Unmarked s) :
    Ends column shift f.chars (f.moved column shift).chars := by
  obtain ⟨_, path, op, index⟩ := f
  cases hc
  have he : Becomes column shift (extraction documentName path) (extraction column path) :=
    becomes_extraction hp
  have compared (symbol : List Char) (h : symbol.any isPlace = false) :
      Ends column shift (symbol ++ ' ' :: placeholder index)
        (symbol ++ ' ' :: placeholder (index + shift)) :=
    (becomes_self _ h).append_ends
      ((becomes_self [' '] (by decide)).append_ends (ends_placeholder index))
  have compare (symbol : List Char) (h : symbol.any isPlace = false) :
      Ends column shift
        (extraction documentName path ++ ' ' :: (symbol ++ ' ' :: placeholder index))
        (extraction column path ++ ' ' :: (symbol ++ ' ' :: placeholder (index + shift))) :=
    he.append_ends ((becomes_self [' '] (by decide)).append_ends (compared symbol h))
  -- the `m` of `numeric` does not begin the name of the document
  have numeric : Becomes column shift ")::numeric ".toList ")::numeric ".toList := by
    have hm : Becomes column shift ['m', 'e', 'r'] ['m', 'e', 'r'] := fun rest => rfl
    exact ((becomes_self ")::nu".toList (by decide)).append hm).append
      (becomes_self "ic ".toList (by decide))
  have compareNumber (symbol : List Char) (h : symbol.any isPlace = false) :
      Ends column shift
        ('(' :: (extraction documentName path ++
          (")::numeric ".toList ++ (symbol ++ ' ' :: placeholder index))))
        ('(' :: (extraction column path ++
          (")::numeric ".toList ++ (symbol ++ ' ' :: placeholder (index + shift))))) :=
    (becomes_self ['('] (by decide)).append_ends
      (he.append_ends (numeric.append_ends (compared symbol h)))
  cases op
  case eq | neq | like | ilike => exact compare _ (by decide)
  case gt | gte | lt | lte => exact compareNumber _ (by decide)
  case oneOf =>
    exact he.append_ends ((becomes_self _ (by decide)).append_ends
      (ends_colon index ":text[])".toList (by decide)))
  case contains =>
    exact becomes_document.append_ends ((becomes_self _ (by decide)).append_ends
      (ends_colon index ":jsonb".toList (by decide)))
  case present =>
    rcases path with _ | ⟨segment, _ | ⟨second, path⟩⟩
    · exact (becomes_document.append ((becomes_self _ (by decide)).append
        ((becomes_pathLiteral hp).append (becomes_self _ (by decide))))).ends
    · have hq : '\x27' ∉ segment.toList := fun hq =>
        hp _ (List.mem_singleton_self _) _ hq (by decide)
      exact (becomes_document.append ((becomes_self " ? ".toList (by decide)).append
        (becomes_quoted hq))).ends
    · exact (becomes_document.append ((becomes_self _ (by decide)).append
        ((becomes_pathLiteral hp).append (becomes_self _ (by decide))))).ends

/-! ## Predicates -/

/-- A fragment over the document's own column whose path has no marks. -/
def Fragment.Native (f : Fragment) : Prop := f.column = documentName ∧ ∀ s ∈ f.path, Unmarked s

theorem becomes_connective (c : Combinator) :
    Becomes column shift (connective c) (connective c) := by
  cases c <;> exact becomes_self _ (by decide)

theorem partsChars_cons (c : Combinator) (p : Predicate) : ∀ {parts : List Predicate},
    parts ≠ [] → partsChars c (p :: parts) = p.chars ++ (connective c ++ partsChars c parts)
  | [], h => absurd rfl h
  | q :: parts, _ => by rw [partsChars]; simp

mutual

/-- **The text of a predicate over the document's column becomes that of the moved one.** -/
theorem relocate_chars : ∀ {p : Predicate}, (∀ f ∈ p.fragments, f.Native) →
    Ends column shift p.chars (p.moved column shift).chars
  | .atom f, hs => by
    obtain ⟨hc, hp⟩ := hs f (List.mem_singleton_self f)
    exact Fragment.ends_chars hc hp
  | .group c parts, hs => by
    intro rest hr
    have hp : Stops (')' :: rest) := stops_of_not_isDigit (by decide) rest
    have hopen : Becomes column shift ['('] ['('] := becomes_self _ (by decide)
    have hclose : Becomes column shift [')'] [')'] := becomes_self _ (by decide)
    calc relocate column shift ((Predicate.group c parts).chars ++ rest)
        = relocate column shift (['('] ++ (partsChars c parts ++ ([')'] ++ rest))) := by
          simp [Predicate.chars]
      _ = ['('] ++ (partsChars c (allMoved column shift parts) ++
            ([')'] ++ relocate column shift rest)) := by
          rw [hopen, relocate_partsChars c hs ([')'] ++ rest) hp, hclose]
      _ = ((Predicate.group c parts).moved column shift).chars ++ relocate column shift rest := by
          simp [Predicate.chars, Predicate.moved]

theorem relocate_partsChars (c : Combinator) : ∀ {parts : List Predicate},
    (∀ f ∈ allFragments parts, f.Native) →
      Ends column shift (partsChars c parts) (partsChars c (allMoved column shift parts))
  | [], _ => becomes_nil.ends
  | [p], hs => by
    rw [allFragments, allFragments, List.append_nil] at hs
    exact relocate_chars hs
  | p :: q :: parts, hs => by
    rw [allFragments, List.forall_mem_append] at hs
    have hq := relocate_partsChars c hs.2
    intro rest hr
    have hne : allMoved column shift (q :: parts) ≠ [] := nofun
    rw [partsChars_cons c p (List.cons_ne_nil q parts), allMoved, partsChars_cons c _ hne,
      List.append_assoc, List.append_assoc, relocate_chars hs.1 _ (stops_connective c _),
      becomes_connective, hq rest hr, List.append_assoc, List.append_assoc]

end

end VectorStore.Filter
