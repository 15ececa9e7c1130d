/-
  Paths as the database reads them.

  A path stands in a statement as an array literal without quotes.

  * `elements?` reads such a literal: white space around an element is dropped, and the word null
    stands for a null element, whatever its case;
  * `Fragment.literal?` is the literal in the text of a fragment;
  * `denoted`: what a segment stands for; it is the segment itself if it is `Plain`
    (`denoted_eq_self_iff`);
  * `elements?_literal`: so a path is read as itself just if all its segments are plain.
-/
import Mathlib.Data.List.TakeWhile
import VectorStore.Proofs.Filter.Atoms

namespace VectorStore.Filter

/-! ## The reader -/

/-- The characters that an element without quotes cannot hold. -/
def delimiters : List Char := [',', '\x7b', '\x7d', '\x22', '\\']

/-- Whether a word spells null. -/
def spellsNull (word : List Char) : Bool := word.map Char.toLower == "null".toList

/-- The element that stands between commas, `none` being null. -/
def element? (cs : List Char) : Option (Option String) :=
  let word := Text.trim Text.isAsciiBlank cs
  if word.isEmpty || word.any (delimiters.contains ·) then none
  else if spellsNull word then some none
  else some (some (String.ofList word))

/-- The elements of an array literal without quotes. -/
def elements? (cs : List Char) : Option (List (Option String)) :=
  match Text.trim Text.isAsciiBlank cs with
  | '\x7b' :: cs =>
    match upTo? '\x7d' cs with
    | some (items, []) =>
      if (Text.trim Text.isAsciiBlank items).isEmpty then some []
      else (Text.split ',' items).mapM element?
    | _ => none
  | _ => none

/-- The text between the first two quotes. -/
def quoted? (cs : List Char) : Option (List Char) :=
  (quotedAt? (cs.dropWhile (· ≠ '\x27'))).map Prod.fst

/-- The array literal in the text of a fragment: all but a containment and a question for one name
    have one. -/
def Fragment.literal? (f : Fragment) : Option (List Char) :=
  match f.operator, f.path with
  | .contains, _ | .present, [_] => none
  | _, _ => quoted? f.chars

/-! ## Segments -/

/-- What the database takes a segment for. -/
def denoted (s : String) : Option String :=
  let word := withoutFinalFeed s.toList
  if spellsNull word then none else some (String.ofList word)

/-- A segment that does not spell null, and does not end with a line feed. -/
def Plain (s : String) : Prop := spellsNull s.toList = false ∧ s.toList.getLast? ≠ some '\n'

theorem withoutFinalFeed_of_ne {cs : List Char} (h : cs.getLast? ≠ some '\n') :
    withoutFinalFeed cs = cs := if_neg h

theorem withoutFinalFeed_feed (cs : List Char) : withoutFinalFeed (cs ++ ['\n']) = cs := by
  rw [withoutFinalFeed, if_pos List.getLast?_concat, List.dropLast_concat]

/-- A segment is its word, or its word and a line feed. -/
theorem toList_eq_word (s : String) :
    s.toList = withoutFinalFeed s.toList ∨ s.toList = withoutFinalFeed s.toList ++ ['\n'] := by
  by_cases h : s.toList.getLast? = some '\n'
  · right
    obtain ⟨cs, hcs⟩ := List.getLast?_eq_some_iff.1 h
    rw [hcs, withoutFinalFeed_feed]
  · exact .inl (withoutFinalFeed_of_ne h).symm

/-- **A segment stands for itself just if it is plain.** -/
theorem denoted_eq_self_iff {s : String} : denoted s = some s ↔ Plain s := by
  unfold denoted Plain
  by_cases hfeed : s.toList.getLast? = some '\n'
  · refine iff_of_false (fun h => ?_) (fun h => h.2 hfeed)
    obtain ⟨cs, hcs⟩ := List.getLast?_eq_some_iff.1 hfeed
    dsimp only at h
    rw [hcs, withoutFinalFeed_feed] at h
    split at h
    · cases h
    · have hlist := congrArg String.toList (Option.some.inj h)
      rw [String.toList_ofList, hcs] at hlist
      exact absurd (congrArg List.length hlist) (by simp)
  · dsimp only
    rw [withoutFinalFeed_of_ne hfeed, String.ofList_toList]
    cases spellsNull s.toList <;> simp [hfeed]

theorem not_isAsciiBlank_of_isSegmentChar {c : Char} (h : isSegmentChar c = true) :
    Text.isAsciiBlank c = false := by
  by_contra hb
  have hblanks : [' ', '\t', '\n', '\x0b', '\x0c', '\r'].any isSegmentChar = false := by decide
  have hmem : c ∈ [' ', '\t', '\n', '\x0b', '\x0c', '\r'] := by
    simp only [Text.isAsciiBlank, Bool.not_eq_false, Bool.or_eq_true, Bool.and_eq_true,
      decide_eq_true_eq, beq_iff_eq] at hb
    rcases hb with ⟨hlow, hhigh⟩ | rfl
    · have hchar : c = Char.ofNat c.toNat := (Char.ofNat_toNat c).symm
      generalize c.toNat = n at hlow hhigh hchar
      obtain rfl | rfl | rfl | rfl | rfl : n = 9 ∨ n = 10 ∨ n = 11 ∨ n = 12 ∨ n = 13 := by omega
      all_goals
        rw [hchar]
        decide
    · decide
  exact List.any_eq_false.1 hblanks c hmem h

/-- Trimming a segment leaves its word. -/
theorem trim_segment {s : String} (h : isSegment s = true) :
    Text.trim Text.isAsciiBlank s.toList = withoutFinalFeed s.toList := by
  simp only [isSegment, Bool.and_eq_true, List.all_eq_true] at h
  have hword : ∀ c ∈ withoutFinalFeed s.toList, Text.isAsciiBlank c = false := fun c hc =>
    not_isAsciiBlank_of_isSegmentChar (h.2 c hc)
  have htrim : Text.trim Text.isAsciiBlank (withoutFinalFeed s.toList) =
      withoutFinalFeed s.toList :=
    Text.trim_eq_self (fun c hc => hword c (List.mem_of_mem_head? hc))
      fun c hc => hword c (List.mem_of_getLast? hc)
  rcases toList_eq_word s with hs | hs
  · exact (congrArg (Text.trim Text.isAsciiBlank) hs).trans htrim
  · generalize withoutFinalFeed s.toList = word at h hword htrim hs
    obtain ⟨c, cs, rfl⟩ : ∃ c cs, word = c :: cs :=
      List.exists_cons_of_ne_nil (by simpa using h.1)
    have hfirst := hword c (List.mem_cons_self ..)
    rw [Text.trim, List.dropWhile_cons_of_neg (by simp [hfirst])] at htrim
    rw [hs, Text.trim, List.cons_append, List.dropWhile_cons_of_neg (by simp [hfirst]),
      ← List.cons_append, List.reverse_append, List.reverse_singleton, List.singleton_append,
      List.dropWhile_cons_of_pos (by decide)]
    exact htrim

/-- **A segment is read as what it denotes.** -/
theorem element?_segment {s : String} (h : isSegment s = true) :
    element? s.toList = some (denoted s) := by
  have htrim := trim_segment h
  simp only [isSegment, Bool.and_eq_true, List.all_eq_true] at h
  have hempty : (withoutFinalFeed s.toList).isEmpty = false := by simpa using h.1
  have hdelimited : (withoutFinalFeed s.toList).any (delimiters.contains ·) = false := by
    refine List.any_eq_false.2 fun c hc hd => ?_
    have hnone : delimiters.any isSegmentChar = false := by decide
    exact List.any_eq_false.1 hnone c (List.contains_iff_mem.1 hd) (h.2 c hc)
  unfold element? denoted
  dsimp only
  rw [htrim, hempty, hdelimited, Bool.or_self, if_neg Bool.false_ne_true]
  split <;> rfl

/-! ## Paths -/

/-- The literal between the quotes. -/
def literal (path : Path) : List Char :=
  '\x7b' :: (Text.join ',' (path.map String.toList) ++ ['\x7d'])

theorem mapM_element? {path : Path} (h : ∀ s ∈ path, isSegment s = true) :
    (path.map String.toList).mapM element? = some (path.map denoted) := by
  induction path with
  | nil => rfl
  | cons s path ih =>
    rw [List.forall_mem_cons] at h
    rw [List.map_cons, List.mapM_cons, element?_segment h.1, ih h.2]
    rfl

/-- What is joined has more than white space. -/
theorem trim_join_ne_nil {path : Path} (hne : path ≠ []) (h : ∀ s ∈ path, isSegment s = true) :
    Text.trim Text.isAsciiBlank (Text.join ',' (path.map String.toList)) ≠ [] := by
  obtain ⟨s, path, rfl⟩ := List.exists_cons_of_ne_nil hne
  have hs := h s (List.mem_cons_self ..)
  simp only [isSegment, Bool.and_eq_true, List.all_eq_true] at hs
  obtain ⟨c, cs, hword⟩ : ∃ c cs, withoutFinalFeed s.toList = c :: cs :=
    List.exists_cons_of_ne_nil (by simpa using hs.1)
  have hfirst : Text.isAsciiBlank c = false :=
    not_isAsciiBlank_of_isSegmentChar (hs.2 c (hword ▸ List.mem_cons_self ..))
  obtain ⟨more, hmore⟩ : ∃ more, Text.join ',' ((s :: path).map String.toList) = c :: more := by
    have hlist : ∃ more, s.toList = c :: more := by
      rcases toList_eq_word s with h | h <;> rw [hword] at h
      · exact ⟨cs, h⟩
      · exact ⟨cs ++ ['\n'], h⟩
    obtain ⟨more, hlist⟩ := hlist
    cases path with
    | nil => exact ⟨more, hlist⟩
    | cons s' path => exact ⟨_, by rw [List.map_cons, List.map_cons, Text.join, hlist]; rfl; simp⟩
  rw [hmore, Text.trim, List.dropWhile_cons_of_neg (by simp [hfirst]), Ne,
    List.reverse_eq_nil_iff, List.dropWhile_eq_nil_iff]
  intro hall
  rw [hall c (by simp)] at hfirst
  cases hfirst

/-- **The literal of a path is read as what its segments denote.** -/
theorem elements?_path {path : Path} (hne : path ≠ []) (h : ∀ s ∈ path, isSegment s = true) :
    elements? (literal path) = some (path.map denoted) := by
  have hclear (c : Char) (hc : isSegmentChar c = false) (hfeed : c ≠ '\n') (s : String)
      (hs : s ∈ path) : c ∉ s.toList := notMem_of_isSegment (h s hs) hc hfeed
  have hclosed : '\x7d' ∉ Text.join ',' (path.map String.toList) := by
    intro hm
    rcases mem_join hm with hcomma | ⟨_, hp, hm⟩
    · cases hcomma
    · obtain ⟨s, hs, rfl⟩ := List.mem_map.1 hp
      exact hclear '\x7d' (by decide) (by decide) s hs hm
  have hsplit : Text.split ',' (Text.join ',' (path.map String.toList)) =
      path.map String.toList := by
    refine Text.split_join (by simpa using hne) fun piece hp => ?_
    obtain ⟨s, hs, rfl⟩ := List.mem_map.1 hp
    exact hclear ',' (by decide) (by decide) s hs
  have htrim : Text.trim Text.isAsciiBlank (literal path) = literal path := by
    refine Text.trim_eq_self ?_ ?_
    · rintro c ⟨⟩
      decide
    · have hlast : (literal path).getLast? = some '\x7d' := by
        rw [literal, ← List.cons_append, List.getLast?_concat]
      rw [hlast]
      rintro c ⟨⟩
      decide
  have hitems : (Text.trim Text.isAsciiBlank
      (Text.join ',' (path.map String.toList))).isEmpty = false := by
    simpa using trim_join_ne_nil hne h
  simp only [elements?, htrim]
  simp only [literal, upTo?_append hclosed, hitems, hsplit, mapM_element? h, Bool.false_eq_true,
    if_false]

/-- The first quotes of a text around a path are those of its literal. -/
theorem quoted?_pathLiteral {path : Path} (h : ∀ s ∈ path, isSegment s = true) {before : List Char}
    (hbefore : '\x27' ∉ before) (rest : List Char) :
    quoted? (before ++ (pathLiteral path ++ rest)) = some (literal path) := by
  have hq : '\x27' ∉ literal path := by
    have hjoin := notMem_marks_of_mem_join (fun s hs => unmarked_of_isSegment (h s hs))
      (c := '\x27')
    have hm : '\x27' ∈ marks := by decide
    simpa [literal] using fun hin => hjoin hin hm
  have hl : pathLiteral path ++ rest = '\x27' :: (literal path ++ '\x27' :: rest) := by
    simp [pathLiteral, literal]
  have hdrop : ∀ c ∈ before, decide (c ≠ '\x27') = true := fun c hc => by
    simpa using fun he : c = '\x27' => hbefore (he ▸ hc)
  rw [quoted?, List.dropWhile_append_of_pos hdrop, hl,
    List.dropWhile_cons_of_neg (by simp), quotedAt?, upTo?_append hq]
  rfl

/-- **The literal in the text of a fragment is that of its path.** -/
theorem literal?_eq {f : Fragment} (hcolumn : isIdentifier f.column = true)
    (h : ∀ s ∈ f.path, isSegment s = true) (hliteral : f.literal?.isSome = true) :
    f.literal? = some (literal f.path) := by
  obtain ⟨column, path, op, index⟩ := f
  have hclear : '\x27' ∉ column.toList := fun hin =>
    unmarked_of_isIdentifier hcolumn _ hin (by decide)
  have hextraction (rest : List Char) :
      quoted? (extraction column path ++ rest) = some (literal path) := by
    have hbefore : '\x27' ∉ column.toList ++ ['#', '>', '>'] := by simpa using hclear
    have hcut : extraction column path ++ rest =
        (column.toList ++ ['#', '>', '>']) ++ (pathLiteral path ++ rest) := by simp [extraction]
    rw [hcut, quoted?_pathLiteral h hbefore]
  have hnumber (rest : List Char) :
      quoted? ('(' :: (extraction column path ++ rest)) = some (literal path) := by
    have hbefore : '\x27' ∉ '(' :: (column.toList ++ ['#', '>', '>']) := by simpa using hclear
    have hcut : '(' :: (extraction column path ++ rest) =
        ('(' :: (column.toList ++ ['#', '>', '>'])) ++ (pathLiteral path ++ rest) := by
      simp [extraction]
    rw [hcut, quoted?_pathLiteral h hbefore]
  cases op
  case contains => simp [Fragment.literal?] at hliteral
  case eq | neq | like | ilike | oneOf => exact hextraction _
  case gt | gte | lt | lte => exact hnumber _
  case present =>
    rcases path with _ | ⟨segment, _ | ⟨next, rest⟩⟩
    case cons.nil => simp [Fragment.literal?] at hliteral
    all_goals
      have hbefore : '\x27' ∉ column.toList ++ " #> ".toList := by simpa using hclear
      rw [Fragment.literal?, Fragment.chars]
      dsimp only
      rw [← List.append_assoc, quoted?_pathLiteral h hbefore]

/-- **How the database reads a path.**  The literal in the text of a fragment is read as what the
    segments of its path denote, and as the segments themselves just if all of them are plain. -/
theorem elements?_literal {key : String} {path : Path} (hkey : Path.ofText key = .ok path)
    {f : Fragment} (hpath : f.path = path) (hcolumn : isIdentifier f.column = true)
    (hliteral : f.literal?.isSome = true) :
    f.literal?.bind elements? = some (path.map denoted) ∧
      (f.literal?.bind elements? = some (path.map some) ↔ ∀ s ∈ path, Plain s) := by
  have hsegments := isSegment_of_ofText hkey
  have hread : f.literal?.bind elements? = some (path.map denoted) := by
    rw [literal?_eq hcolumn (hpath ▸ hsegments) hliteral, hpath, Option.bind_some,
      elements?_path (ofText_ne_nil hkey) hsegments]
  refine ⟨hread, ?_⟩
  rw [hread, Option.some.injEq, List.map_inj_left]
  exact forall₂_congr fun s _ => denoted_eq_self_iff

/-- The fragment that compares the price of a brand. -/
def priced : Fragment := ⟨"metadata", ["brand", "price"], .lte, 1⟩

theorem elements?_priced : Path.ofText "metadata.brand.price" = .ok ["brand", "price"] ∧
    priced.literal?.bind elements? = some [some "brand", some "price"] := by
  have hkey : Path.ofText "metadata.brand.price" = .ok ["brand", "price"] := rfl
  have hplain : ∀ s ∈ ["brand", "price"], Plain s := by
    intro s hs
    simp only [List.mem_cons, List.not_mem_nil, or_false] at hs
    rcases hs with rfl | rfl <;> exact ⟨rfl, by decide⟩
  obtain ⟨-, hself⟩ := elements?_literal hkey (f := priced) rfl rfl rfl
  exact ⟨hkey, hself.2 hplain⟩

/-- A path may be read as null, or as another one: where a segment spells null, where it ends with
    a line feed. -/
theorem elements?_null : Path.ofText "null" = .ok ["null"] ∧
    (⟨"metadata", ["null"], .eq, 1⟩ : Fragment).chars = "metadata#>>'\x7bnull\x7d' = $1".toList ∧
    (⟨"metadata", ["null"], .eq, 1⟩ : Fragment).literal?.bind elements? = some [none] ∧
    Path.ofText "size\n" = .ok ["size\n"] ∧
    (⟨"metadata", ["size\n"], .eq, 1⟩ : Fragment).literal?.bind elements? = some [some "size"] :=
  ⟨rfl, rfl, rfl, rfl, rfl⟩

end VectorStore.Filter
