/-
  Text patterns with wildcards.

  `%` stands for any text, `_` for any one character, every other character for itself or,
  if `same` is a coarser relation, for each character it relates to.  `Denotes` is the
  relation that the wildcards define, and `like` decides it (`like_iff`).
-/
import VectorStore.Text.Fold

namespace VectorStore.Memory

/-- Whether some end of the text passes a test. -/
def someTail (test : List Char → Bool) : List Char → Bool
  | [] => test []
  | c :: cs => test (c :: cs) || someTail test cs

/-- Whether the pattern stands for the text. -/
def like (same : Char → Char → Bool) : List Char → List Char → Bool
  | [], text => text.isEmpty
  | p :: pattern, text =>
    if p = '%' then someTail (like same pattern) text
    else match text with
      | [] => false
      | c :: rest => (p = '_' || same p c) && like same pattern rest

/-- The texts that a pattern stands for. -/
inductive Denotes (same : Char → Char → Bool) : List Char → List Char → Prop where
  | nil : Denotes same [] []
  | any {pattern text rest : List Char} (skipped : List Char) :
      text = skipped ++ rest → Denotes same pattern rest → Denotes same ('%' :: pattern) text
  | one {pattern text : List Char} (c : Char) :
      Denotes same pattern text → Denotes same ('_' :: pattern) (c :: text)
  | char {pattern text : List Char} {p c : Char} : p ≠ '%' → p ≠ '_' → same p c = true →
      Denotes same pattern text → Denotes same (p :: pattern) (c :: text)

theorem someTail_iff {test : List Char → Bool} {text : List Char} :
    someTail test text = true ↔ ∃ skipped rest, text = skipped ++ rest ∧ test rest = true := by
  induction text with
  | nil =>
    constructor
    · exact fun h => ⟨[], [], rfl, h⟩
    · rintro ⟨skipped, rest, heq, h⟩
      obtain ⟨rfl, rfl⟩ := List.append_eq_nil_iff.1 heq.symm
      exact h
  | cons c cs ih =>
    simp only [someTail, Bool.or_eq_true, ih]
    constructor
    · rintro (h | ⟨skipped, rest, rfl, h⟩)
      · exact ⟨[], c :: cs, rfl, h⟩
      · exact ⟨c :: skipped, rest, rfl, h⟩
    · rintro ⟨skipped, rest, heq, h⟩
      cases skipped with
      | nil => exact .inl (by simpa [heq] using h)
      | cons d skipped =>
        obtain ⟨rfl, rfl⟩ := List.cons.inj heq
        exact .inr ⟨skipped, rest, rfl, h⟩

/-- `like` decides what a pattern stands for. -/
theorem like_iff {same : Char → Char → Bool} {pattern text : List Char} :
    like same pattern text = true ↔ Denotes same pattern text := by
  induction pattern generalizing text with
  | nil =>
    constructor
    · intro h
      obtain rfl : text = [] := by simpa [like] using h
      exact .nil
    · rintro ⟨⟩
      rfl
  | cons p pattern ih =>
    unfold like
    split
    · next hp =>
      subst hp
      rw [someTail_iff]
      constructor
      · rintro ⟨skipped, rest, heq, h⟩
        exact .any skipped heq (ih.1 h)
      · intro h
        cases h with
        | any skipped heq h => exact ⟨skipped, _, heq, ih.2 h⟩
        | char h => exact absurd rfl h
    · next hp =>
      cases text with
      | nil =>
        simp only [Bool.false_eq_true, false_iff]
        intro h
        cases h
        exact hp rfl
      | cons c rest =>
        simp only [Bool.and_eq_true, Bool.or_eq_true, decide_eq_true_eq, ih]
        constructor
        · rintro ⟨hpc, h⟩
          by_cases hu : p = '_'
          · subst hu
            exact .one c h
          · exact .char hp hu (hpc.resolve_left hu) h
        · intro h
          cases h with
          | any => exact absurd rfl hp
          | one _ h => exact ⟨.inl rfl, h⟩
          | char _ _ hs h => exact ⟨.inr hs, h⟩

/-- Whether a text matches a pattern, character by character. -/
def isLike (text pattern : String) : Bool := like (· == ·) pattern.toList text.toList

/-- Whether a text matches a pattern up to letter case. -/
def isLikeFolded (text pattern : String) : Bool := like Text.sameLetter pattern.toList text.toList

end VectorStore.Memory
