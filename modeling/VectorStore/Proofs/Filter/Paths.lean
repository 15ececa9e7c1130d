/-
  Paths and the texts that write them.

  * `PartsOf key parts`: the parts of a text between its dots, which `Text.pieces` finds
    (`partsOf_iff`);
  * `ofText_eq_ok_iff`: a text writes a path just if all of its parts are admissible, and the path
    is made of these parts; so joining segments and reading them gives them back (`ofText_text`),
    with the name of the document before them also where they begin with it themselves
    (`ofText_document`);
  * `ofValue_joined`: every path of well spelled segments is written, and what is rejected writes
    none (`rejects_iff`); but not all that writes none is rejected (`not_rejects_feed`), and what
    cannot be shown fails in another way.
-/
import VectorStore.Proofs.Filter.Spelling

namespace VectorStore.Filter

/-! ## Parts -/

/-- The parts of a text between its dots. -/
structure PartsOf (key : String) (parts : List String) : Prop where
  ne_nil : parts ≠ []
  dotless : ∀ s ∈ parts, '.' ∉ s.toList
  joined : Path.text parts = key

theorem notMem_of_mem_split {sep : Char} {cs piece : List Char} (h : piece ∈ Text.split sep cs) :
    sep ∉ piece := by
  induction cs generalizing piece with
  | nil =>
    obtain rfl := List.mem_singleton.1 h
    exact List.not_mem_nil
  | cons c cs ih =>
    rw [Text.split] at h
    split at h
    · rcases List.mem_cons.1 h with rfl | h
      · exact List.not_mem_nil
      · exact ih h
    · next hc =>
      cases hsplit : Text.split sep cs with
      | nil => exact absurd hsplit (Text.split_ne_nil sep cs)
      | cons first rest =>
        rw [hsplit] at h ih
        rcases List.mem_cons.1 h with rfl | h
        · rw [List.mem_cons, not_or]
          exact ⟨Ne.symm hc, ih (List.mem_cons_self ..)⟩
        · exact ih (List.mem_cons_of_mem _ h)

/-- The parts of a text are its pieces. -/
theorem partsOf_iff {key : String} {parts : List String} :
    PartsOf key parts ↔ parts = Text.pieces '.' key := by
  constructor
  · rintro ⟨hne, hdotless, rfl⟩
    exact (Text.pieces_joined hne hdotless).symm
  · rintro rfl
    refine ⟨by simpa [Text.pieces] using Text.split_ne_nil '.' key.toList, fun s hs => ?_, ?_⟩
    · obtain ⟨piece, hpiece, rfl⟩ := List.mem_map.1 hs
      rw [String.toList_ofList]
      exact notMem_of_mem_split hpiece
    · have htext : (Path.text (Text.pieces '.' key)).toList = key.toList := by
        show (Text.joined (String.singleton '.') _).toList = _
        have hlists : String.toList ∘ String.ofList = id := funext fun _ => String.toList_ofList
        rw [Text.toList_joined, Text.pieces, List.map_map, hlists, List.map_id, Text.join_split]
      exact String.toList_inj.1 htext

/-! ## Reading paths -/

/-- **A text writes a path just if all of its parts are admissible.** -/
theorem ofText_eq_ok_iff {key : String} {path : Path} : Path.ofText key = .ok path ↔
    (∀ s ∈ Text.pieces '.' key, isSegment s = true) ∧
      path = Path.withoutDocument (Text.pieces '.' key) := by
  constructor
  · intro h
    exact (of_ofText_eq_ok h).symm
  · rintro ⟨hsegments, rfl⟩
    have hkey : key.isEmpty = false := by
      rw [Bool.eq_false_iff, Ne, String.isEmpty_iff]
      rintro rfl
      exact absurd (hsegments "" (List.mem_singleton_self _)) (by decide)
    have hfind : (Text.pieces '.' key).find? (!isSegment ·) = none :=
      List.find?_eq_none.2 fun s hs => by rw [hsegments s hs]; decide
    rw [Path.ofText, hkey, if_neg Bool.false_ne_true]
    simp only [hfind]

/-- Every refusal of a document as a path is one of its segments, or of the whole. -/
theorem ofValue_eq_error {v : Value} {r : Refusal} (h : Path.ofValue v = .error r) :
    r = .badKey v ∨ ∃ segment key, v = .text key ∧ r = .badSegment segment key := by
  cases v with
  | text key =>
    rw [Path.ofValue, Path.ofText] at h
    split at h
    · cases h
      exact .inl rfl
    · simp only at h
      split at h <;> cases h
      exact .inr ⟨_, key, rfl, rfl⟩
  | _ =>
    cases h
    exact .inl rfl

theorem pieces_text {path : Path} (hne : path ≠ []) (h : ∀ s ∈ path, isSegment s = true) :
    Text.pieces '.' path.text = path :=
  Text.pieces_joined hne fun s hs => notMem_of_isSegment (h s hs) (by decide) (by decide)

/-- **Reading undoes joining**, up to a leading name of the document. -/
theorem ofText_text {path : Path} (hne : path ≠ []) (h : ∀ s ∈ path, isSegment s = true) :
    Path.ofText path.text = .ok (Path.withoutDocument path) := by
  rw [ofText_eq_ok_iff, pieces_text hne h]
  exact ⟨h, rfl⟩

/-- **With the name of the document before them, all segments are read back.** -/
theorem ofText_document {path : Path} (hne : path ≠ []) (h : ∀ s ∈ path, isSegment s = true) :
    Path.ofText ("metadata." ++ path.text) = .ok path := by
  obtain ⟨first, rest, rfl⟩ := List.exists_cons_of_ne_nil hne
  have htext : "metadata." ++ Path.text (first :: rest) =
      Path.text (documentName :: first :: rest) := by
    rw [Path.text, Path.text, String.intercalate_cons_cons]
    rfl
  have hsegments : ∀ s ∈ documentName :: first :: rest, isSegment s = true :=
    List.forall_mem_cons.2 ⟨by decide, h⟩
  rw [htext, ofText_text (List.cons_ne_nil _ _) hsegments, Path.withoutDocument, if_pos rfl]

/-- Only of two segments or more is a leading name of the document dropped. -/
theorem withoutDocument_eq (path : Path) : Path.withoutDocument path =
    if 2 ≤ path.length ∧ path.head? = some "metadata" then path.tail else path := by
  match path with
  | [] | [_] => rfl
  | first :: second :: rest =>
    by_cases hfirst : first = "metadata" <;> simp [Path.withoutDocument, documentName, hfirst]

/-! ## Documents that write paths -/

/-- The document is refused as a path, as not valid. -/
def Rejects (v : Value) : Prop :=
  ∃ r e, Path.ofValue v = .error r ∧ r.failure = .error e ∧ e.category = .validation

/-- The document writes no path: it is not a text, is empty, or has a part that is no segment. -/
def NoPath (segment : String → Prop) (v : Value) : Prop :=
  (∀ key, v ≠ .text key) ∨ v = .text "" ∨
    ∃ key parts, v = .text key ∧ PartsOf key parts ∧ ∃ s ∈ parts, ¬segment s

/-- No part of the document ends with a line feed. -/
def WithoutFeeds (v : Value) : Prop :=
  ∀ key parts, v = .text key → PartsOf key parts → ∀ s ∈ parts, ¬EndsWithFeed s

/-- A text is rejected just if one of its parts is not admissible. -/
theorem rejects_text_iff {key : String} :
    Rejects (.text key) ↔ ∃ s ∈ Text.pieces '.' key, ¬SpellsSegment (stem s) := by
  constructor
  · rintro ⟨r, -, hr, -⟩
    by_contra hall
    have hsegments : ∀ s ∈ Text.pieces '.' key, isSegment s = true := fun s hs => by
      by_contra hs'
      exact hall ⟨s, hs, fun hspelled => hs' (isSegment_iff.2 hspelled)⟩
    rw [Path.ofValue, ofText_eq_ok_iff.2 ⟨hsegments, rfl⟩] at hr
    cases hr
  · rintro ⟨s, hs, hspelled⟩
    rcases hr : Path.ofValue (.text key) with r | path
    · rcases ofValue_eq_error hr with rfl | ⟨_, _, -, rfl⟩
      · exact ⟨_, _, hr, rfl, rfl⟩
      · exact ⟨_, _, hr, rfl, rfl⟩
    · exact absurd (isSegment_iff.1 ((ofText_eq_ok_iff.1 hr).1 s hs)) hspelled

/-- What is no text is rejected just if it can be shown. -/
theorem rejects_other_iff {v : Value} (h : ∀ key, v ≠ .text key) :
    Path.ofValue v = .error (.badKey v) ∧ (Rejects v ↔ v.isWritable = true) := by
  have hr : Path.ofValue v = .error (.badKey v) := by
    cases v with
    | text key => exact absurd rfl (h key)
    | _ => rfl
  refine ⟨hr, ?_⟩
  constructor
  · rintro ⟨r, e, hr', he, -⟩
    rw [hr, Except.error.injEq] at hr'
    subst hr'
    by_contra hv
    rw [Refusal.failure, Failure.showing, if_neg hv] at he
    cases he
  · intro hv
    exact ⟨_, _, hr, if_pos hv, rfl⟩

/-- **A document is rejected just if it writes no path of stems that are well spelled**, and can be
    shown. -/
theorem rejects_iff {v : Value} :
    Rejects v ↔ NoPath (fun s => SpellsSegment (stem s)) v ∧ v.isWritable = true := by
  by_cases htext : ∃ key, v = .text key
  · obtain ⟨key, rfl⟩ := htext
    rw [rejects_text_iff, and_iff_left (show Value.isWritable (.text key) = true from rfl)]
    constructor
    · intro hs
      exact .inr (.inr ⟨key, _, rfl, partsOf_iff.2 rfl, hs⟩)
    · rintro (hv | hv | ⟨key', parts, hv, hparts, hs⟩)
      · exact absurd rfl (hv key)
      · cases hv
        exact ⟨"", by decide, fun h => h.nonempty rfl⟩
      · cases hv
        rwa [partsOf_iff.1 hparts] at hs
  · have hother : ∀ key, v ≠ .text key := fun key hkey => htext ⟨key, hkey⟩
    rw [(rejects_other_iff hother).2]
    exact ⟨fun hv => ⟨.inl hother, hv⟩, And.right⟩

/-- Without line feeds the stems are the parts themselves. -/
theorem noPath_stem_iff {v : Value} (h : WithoutFeeds v) :
    NoPath (fun s => SpellsSegment (stem s)) v ↔ NoPath SpellsSegment v := by
  refine or_congr_right (or_congr_right (exists₂_congr fun key parts => ?_))
  refine and_congr_right fun hkey => and_congr_right fun hparts => exists_congr fun s => ?_
  refine and_congr_right fun hs => ?_
  show ¬SpellsSegment (stem s) ↔ ¬SpellsSegment s
  rw [stem_eq_self (h key parts hkey hparts s hs)]

/-- A segment that is well spelled is its own stem. -/
theorem SpellsSegment.spells_stem {s : String} (h : SpellsSegment s) : SpellsSegment (stem s) := by
  rwa [stem_eq_self (not_endsWithFeed h.feed_notMem)]

/-- **Every path of well spelled segments is written**: by its segments with dots between them and
    the name of the document before them, and also without this name, unless there are two
    segments or more of which the first is this name, which is then dropped.  So are those of which
    only the stems are well spelled.  Of the documents without line feeds at the end of their parts
    those are rejected that write no path of well spelled segments; of all documents, those that
    write none of well spelled stems.  The rejection shows what is no text, so that there is none
    for what cannot be shown. -/
theorem ofValue_joined (path : Path) (v : Value) :
    (∀ s, SpellsSegment s → SpellsSegment (stem s)) ∧
    (path ≠ [] → (∀ s ∈ path, SpellsSegment (stem s)) →
      Path.ofValue (.text ("metadata." ++ ".".intercalate path)) = .ok path ∧
      Path.ofValue (.text (".".intercalate path)) =
        .ok (if 2 ≤ path.length ∧ path.head? = some "metadata" then path.tail else path)) ∧
    (WithoutFeeds v → (Rejects v ↔ NoPath SpellsSegment v ∧ v.isWritable = true)) ∧
    (Rejects v ↔ NoPath (fun s => SpellsSegment (stem s)) v ∧ v.isWritable = true) ∧
    ((∀ key, v ≠ .text key) → ∃ r, Path.ofValue v = .error r) := by
  refine ⟨fun s hs => hs.spells_stem, fun hne hspelled => ?_, fun hv => ?_, rejects_iff,
    fun hv => ⟨_, (rejects_other_iff hv).1⟩⟩
  · have hsegments : ∀ s ∈ path, isSegment s = true := fun s hs => isSegment_iff.2 (hspelled s hs)
    rw [← withoutDocument_eq]
    exact ⟨ofText_document hne hsegments, ofText_text hne hsegments⟩
  · exact rejects_iff.trans (and_congr_left' (noPath_stem_iff hv))

/-- A field `metadata` of the document has its own fields, which are written with the name twice. -/
theorem ofValue_joined_twice :
    (∀ s ∈ ["metadata", "größe"], SpellsSegment s) ∧
      Path.ofValue (.text "metadata.metadata.größe") = .ok ["metadata", "größe"] ∧
      Path.ofValue (.text "metadata.größe") = .ok ["größe"] ∧
      WithoutFeeds (.text "a..b") ∧ Rejects (.text "a..b") := by
  have hspelled : ∀ s ∈ ["metadata", "größe"], SpellsSegment s := by
    intro s hs
    have hsegment : isSegment s = true ∧ ¬EndsWithFeed s := by
      simp only [List.mem_cons, List.not_mem_nil, or_false] at hs
      rcases hs with rfl | rfl <;> decide
    have hstem := isSegment_iff.1 hsegment.1
    rwa [stem_eq_self hsegment.2] at hstem
  have hparts : PartsOf "a..b" ["a", "", "b"] := partsOf_iff.2 rfl
  have hfeeds : WithoutFeeds (.text "a..b") := by
    rintro key parts hkey hp s hs
    cases hkey
    rw [partsOf_iff.1 hp, ← partsOf_iff.1 hparts] at hs
    simp only [List.mem_cons, List.not_mem_nil, or_false] at hs
    rcases hs with rfl | rfl | rfl <;> decide
  obtain ⟨hstem, hwritten, hrejects, -⟩ := ofValue_joined ["metadata", "größe"] (.text "a..b")
  obtain ⟨hnamed, hplain⟩ := hwritten (by decide) fun s hs => hstem s (hspelled s hs)
  refine ⟨hspelled, hnamed, hplain, hfeeds, (hrejects hfeeds).2 ⟨.inr (.inr ?_), rfl⟩⟩
  exact ⟨_, _, rfl, hparts, "", by decide, fun h => h.nonempty rfl⟩

/-- A text is not rejected though its only part is not spelled as a segment: it ends with a line
    feed. -/
theorem not_rejects_feed :
    NoPath SpellsSegment (.text "size\n") ∧ ¬Rejects (.text "size\n") := by
  have hparts : PartsOf "size\n" ["size\n"] := partsOf_iff.2 rfl
  have hok : Path.ofValue (.text "size\n") = .ok ["size\n"] := rfl
  constructor
  · exact .inr (.inr ⟨_, _, rfl, hparts, _, List.mem_singleton_self _,
      fun h => h.feed_notMem (by decide)⟩)
  · rintro ⟨r, -, hr, -⟩
    rw [hok] at hr
    cases hr

end VectorStore.Filter
