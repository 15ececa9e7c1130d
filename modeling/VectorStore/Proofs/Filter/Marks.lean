/-
  What texts of fragments are made of.

  * `Unmarked` texts have no character with a meaning of its own in SQL;
  * names of columns and segments of paths are such texts (`unmarked_of_isIdentifier`,
    `unmarked_of_isSegment`), and so is what writes a path (`unmarked_of_ofText`); the paths of
    an accepted filter have no other segments (`isSegment_of_mem_leaves`);
  * `sound_of_compile`: so the fragments of a compiled filter are `Sound`, which is all that
    its text needs to be read back.
-/
import VectorStore.Proofs.Filter.Document

namespace VectorStore.Filter

/-! ## Segments and identifiers -/

theorem mem_withoutDocument : ∀ {segments : List String} {s : String},
    s ∈ Path.withoutDocument segments → s ∈ segments
  | [], _, h => h
  | [_], _, h => h
  | first :: second :: rest, _, h => by
    rw [Path.withoutDocument] at h
    split at h
    · exact List.mem_cons_of_mem _ h
    · exact h

/-- A text writes a path if all of its pieces are admissible segments. -/
theorem of_ofText_eq_ok {key : String} {path : Path} (h : Path.ofText key = .ok path) :
    path = Path.withoutDocument (Text.pieces '.' key) ∧
      ∀ s ∈ Text.pieces '.' key, isSegment s = true := by
  unfold Path.ofText at h
  split at h
  · cases h
  · simp only at h
    split at h
    · cases h
    · next hn =>
      cases h
      exact ⟨rfl, by simpa using List.find?_eq_none.1 hn⟩

/-- The segments of a path are admissible. -/
theorem isSegment_of_ofText {key : String} {path : Path} (h : Path.ofText key = .ok path) :
    ∀ s ∈ path, isSegment s = true := by
  obtain ⟨rfl, hsegments⟩ := of_ofText_eq_ok h
  exact fun s hs => hsegments s (mem_withoutDocument hs)

/-- The path of a condition of an accepted filter is the one that its key writes. -/
theorem ofText_of_mem_leaves {v : Value} {bs : List Binding}
    (h : parameters (ofValue v) = .ok bs) {c : Condition} (hc : c ∈ leaves (ofValue v)) :
    Path.ofText c.key = .ok c.path := by
  obtain ⟨i, hi, rfl⟩ := List.mem_iff_getElem.1 hc
  have hr := (writes_ofValue h).leaves
  obtain ⟨path, op, hp, -, he⟩ := (hr.get (hr.length_eq ▸ hi) hi).spec
  rw [List.get_eq_getElem] at he
  rw [he]
  exact hp

/-- **The paths of an accepted filter have admissible segments only.** -/
theorem isSegment_of_mem_leaves {v : Value} {bs : List Binding}
    (h : parameters (ofValue v) = .ok bs) {c : Condition} (hc : c ∈ leaves (ofValue v)) :
    ∀ s ∈ c.path, isSegment s = true :=
  isSegment_of_ofText (ofText_of_mem_leaves h hc)

/-! ## Unmarked texts -/

theorem isDigit_of_mem_natDigits {n : Nat} {c : Char} (h : c ∈ Number.natDigits n) :
    c.isDigit = true :=
  Nat.isDigit_of_mem_toDigits (by decide) (by decide) h

/-- The characters with a meaning of their own in a statement. -/
def marks : List Char := ['$', '\x27', '\x22', '(', ')', ' ']

/-- A text without marks. -/
def Unmarked (s : String) : Prop := ∀ c ∈ s.toList, c ∉ marks

theorem mem_withoutFinalFeed {cs : List Char} {c : Char} (h : c ∈ cs) :
    c ∈ withoutFinalFeed cs ∨ c = '\n' := by
  unfold withoutFinalFeed
  split
  · next hl =>
    have hc : c ∈ cs.dropLast ++ ['\n'] := by rw [List.dropLast_append_getLast? _ hl]; exact h
    simpa using hc
  · exact Or.inl h

theorem notMem_marks {p : Char → Bool} (hp : marks.any p = false) {c : Char} (h : p c = true) :
    c ∉ marks := fun hc => List.any_eq_false.1 hp c hc h

theorem unmarked_of_isSegment {s : String} (h : isSegment s = true) : Unmarked s := by
  intro c hc
  simp only [isSegment, Bool.and_eq_true, List.all_eq_true] at h
  rcases mem_withoutFinalFeed hc with hc | rfl
  · exact notMem_marks (by decide) (h.2 c hc)
  · decide

/-- An identifier consists of ASCII word characters, a line feed at its end apart. -/
theorem isAsciiWord_of_isIdentifier {s : String} (h : isIdentifier s = true) :
    ∀ c ∈ withoutFinalFeed s.toList, Text.isAsciiWord c = true := by
  unfold isIdentifier at h
  split at h
  · cases h
  · next d ds hd =>
    rw [hd]
    simp only [Bool.and_eq_true, Bool.or_eq_true, List.all_eq_true] at h
    rintro c hc
    rcases List.mem_cons.1 hc with rfl | hc
    · simp only [Text.isAsciiWord, Char.isAlphanum, Bool.or_eq_true]
      exact h.1.imp_left Or.inl
    · exact h.2 c hc

theorem unmarked_of_isIdentifier {s : String} (h : isIdentifier s = true) : Unmarked s := by
  intro c hc
  rcases mem_withoutFinalFeed hc with hc | rfl
  · exact notMem_marks (by decide) (isAsciiWord_of_isIdentifier h c hc)
  · decide

theorem mem_join {sep c : Char} : ∀ {pieces : List (List Char)}, c ∈ Text.join sep pieces →
    c = sep ∨ ∃ piece ∈ pieces, c ∈ piece
  | [], h => by simp [Text.join] at h
  | [piece], h => Or.inr ⟨piece, by simp, h⟩
  | piece :: next :: pieces, h => by
    rw [Text.join, List.mem_append, List.mem_cons] at h
    · rcases h with h | h | h
      · exact Or.inr ⟨piece, by simp, h⟩
      · exact Or.inl h
      · obtain h | ⟨p, hp, hc⟩ := mem_join h
        · exact Or.inl h
        · exact Or.inr ⟨p, List.mem_cons_of_mem _ hp, hc⟩
    · simp

/-- The text of a path has no marks. -/
theorem unmarked_of_ofText {key : String} {path : Path} (h : Path.ofText key = .ok path) :
    Unmarked key := by
  intro c hc
  rw [← Text.join_split '.' key.toList] at hc
  rcases mem_join hc with rfl | ⟨piece, hpiece, hc⟩
  · decide
  · have hsegment : isSegment (String.ofList piece) = true :=
      (of_ofText_eq_ok h).2 _ (List.mem_map_of_mem hpiece)
    exact unmarked_of_isSegment hsegment c (by simpa using hc)

theorem notMem_marks_of_mem_join {path : Path} (h : ∀ s ∈ path, Unmarked s) {c : Char}
    (hc : c ∈ Text.join ',' (path.map String.toList)) : c ∉ marks := by
  rcases mem_join hc with rfl | ⟨_, hp, hc⟩
  · decide
  · obtain ⟨s, hs, rfl⟩ := List.mem_map.1 hp
    exact h s hs c hc

/-! ## Sound predicates -/

/-- A fragment whose column and path have no marks. -/
def Fragment.Sound (f : Fragment) : Prop := Unmarked f.column ∧ ∀ s ∈ f.path, Unmarked s

theorem sound_of_mem_fragmentsFrom {column : String} (hc : Unmarked column) {cs : List Condition}
    (hs : ∀ c ∈ cs, ∀ s ∈ c.path, Unmarked s) (index : Nat) :
    ∀ f ∈ fragmentsFrom column index cs, f.Sound := by
  induction cs generalizing index with
  | nil => simp [fragmentsFrom]
  | cons c cs ih =>
    rw [fragmentsFrom]
    rintro f hf
    rcases List.mem_cons.1 hf with rfl | hf
    · exact ⟨hc, hs c (by simp)⟩
    · exact ih (fun d hd => hs d (List.mem_cons_of_mem _ hd)) _ f hf

theorem sound_cons {p : Predicate} {parts : List Predicate}
    (h : ∀ f ∈ allFragments (p :: parts), f.Sound) :
    (∀ f ∈ p.fragments, f.Sound) ∧ ∀ f ∈ allFragments parts, f.Sound := by
  rwa [allFragments, List.forall_mem_append] at h

/-- **The fragments of a compiled filter have no marks.** -/
theorem sound_of_compile {expression : Value} {start : Nat} {column : String} {c : Compiled}
    (hc : isIdentifier column = true) (h : compile expression start column = .ok c) :
    ∀ f ∈ c.predicate.fragments, f.Sound := by
  obtain ⟨bs, hb, rfl⟩ := (compile_eq_ok_iff column).1 h
  rw [fragments_predicateAt]
  refine sound_of_mem_fragmentsFrom (unmarked_of_isIdentifier hc) (fun d hd s hs => ?_) start
  exact unmarked_of_isSegment (isSegment_of_mem_leaves hb hd s hs)

end VectorStore.Filter
