/-
  The spelling of segments and identifiers.

  Segments of paths and columns have to be spelled in an alphabet of their own; but whoever checks
  that lets one line feed through, at the very end.

  * `stem s` is the text without it;
  * a segment, an identifier is accepted just if its stem is spelled as it should be
    (`isSegment_iff`, `isIdentifier_iff`).
-/
import VectorStore.Proofs.Filter.ArrayLiterals

namespace VectorStore.Filter

/-! ## Line feeds -/

/-- The text without one line feed at its end. -/
def stem (s : String) : String := String.ofList (withoutFinalFeed s.toList)

/-- The text ends with a line feed. -/
def EndsWithFeed (s : String) : Prop := s.toList.getLast? = some '\n'

instance (s : String) : Decidable (EndsWithFeed s) :=
  inferInstanceAs (Decidable (s.toList.getLast? = some '\n'))

theorem toList_stem (s : String) : (stem s).toList = withoutFinalFeed s.toList :=
  String.toList_ofList

theorem stem_eq_self {s : String} (h : ¬EndsWithFeed s) : stem s = s := by
  rw [stem, withoutFinalFeed_of_ne h, String.ofList_toList]

/-- A text whose characters are not line feeds does not end with one. -/
theorem not_endsWithFeed {s : String} (h : '\n' ∉ s.toList) : ¬EndsWithFeed s := fun hfeed =>
  h (List.mem_of_getLast? hfeed)

/-- What holds of the stem only, and of no text that ends with a line feed, holds of those texts
    that do not. -/
theorem holds_iff_not_endsWithFeed {P : String → Prop} (hP : ∀ {s}, P s → '\n' ∉ s.toList)
    {s : String} (h : P (stem s)) : P s ↔ ¬EndsWithFeed s := by
  constructor
  · intro hs
    exact not_endsWithFeed (hP hs)
  · intro hs
    rwa [stem_eq_self hs] at h

/-! ## Segments and identifiers -/

/-- The spelling of a segment: word characters and `-`, at least one. -/
structure SpellsSegment (s : String) : Prop where
  nonempty : s ≠ ""
  chars : ∀ c ∈ s.toList, Text.isWord c = true ∨ c = '-'

/-- The spelling of an identifier: ASCII letters, digits and underscores, the first of them not a
    digit. -/
structure SpellsIdentifier (s : String) : Prop where
  chars : ∀ c ∈ s.toList, c.isAlpha = true ∨ c.isDigit = true ∨ c = '_'
  first : ∃ c, s.toList.head? = some c ∧ c.isDigit = false

theorem SpellsSegment.feed_notMem {s : String} (h : SpellsSegment s) : '\n' ∉ s.toList := by
  intro hin
  rcases h.chars _ hin with hword | hdash
  · exact absurd hword (by decide)
  · exact absurd hdash (by decide)

theorem SpellsIdentifier.feed_notMem {s : String} (h : SpellsIdentifier s) : '\n' ∉ s.toList := by
  intro hin
  rcases h.chars _ hin with hletter | hdigit | hunder
  · exact absurd hletter (by decide)
  · exact absurd hdigit (by decide)
  · exact absurd hunder (by decide)

/-- **A segment is accepted just if its stem is spelled as a segment.** -/
theorem isSegment_iff {s : String} : isSegment s = true ↔ SpellsSegment (stem s) := by
  have hne : stem s ≠ "" ↔ withoutFinalFeed s.toList ≠ [] := by
    rw [← toList_stem, Ne, Ne, String.toList_eq_nil_iff]
  simp only [isSegment, Bool.and_eq_true, Bool.not_eq_true', List.isEmpty_eq_false_iff,
    List.all_eq_true, isSegmentChar, Bool.or_eq_true, beq_iff_eq]
  constructor
  · rintro ⟨hword, hall⟩
    refine ⟨hne.2 hword, ?_⟩
    rwa [toList_stem]
  · rintro ⟨hstem, hall⟩
    rw [toList_stem] at hall
    exact ⟨hne.1 hstem, hall⟩

/-- Characters of identifiers are letters, digits and the underscore. -/
theorem isAsciiWord_iff {c : Char} :
    Text.isAsciiWord c = true ↔ c.isAlpha = true ∨ c.isDigit = true ∨ c = '_' := by
  simp [Text.isAsciiWord, Char.isAlphanum, or_assoc]

/-- A letter is not a digit. -/
theorem isDigit_eq_false_of_isAlpha {c : Char} (h : c.isAlpha = true) : c.isDigit = false := by
  have hletter : 'A'.toNat ≤ c.toNat := by
    rcases (Bool.or_eq_true _ _).mp h with hupper | hlower
    · exact UInt32.le_iff_toNat_le.1 (of_decide_eq_true hupper).1
    · have hlow : 'a'.toNat ≤ c.toNat :=
        UInt32.le_iff_toNat_le.1 (of_decide_eq_true ((Bool.and_eq_true _ _).mp hlower).1)
      exact Nat.le_trans (by decide) hlow
  by_contra hdigit
  have hdigit : c.toNat ≤ '9'.toNat := (Char.isDigit_iff_toNat.1 (by simpa using hdigit)).2
  exact absurd (Nat.le_trans hletter hdigit) (by decide)

/-- **An identifier is accepted just if its stem is spelled as one.** -/
theorem isIdentifier_iff {s : String} : isIdentifier s = true ↔ SpellsIdentifier (stem s) := by
  have hstem := toList_stem s
  rw [isIdentifier]
  cases hword : withoutFinalFeed s.toList with
  | nil =>
    rw [hword] at hstem
    refine iff_of_false Bool.false_ne_true ?_
    rintro ⟨-, c, hc, -⟩
    rw [hstem] at hc
    cases hc
  | cons c cs =>
    rw [hword] at hstem
    simp only [Bool.and_eq_true, Bool.or_eq_true, beq_iff_eq, List.all_eq_true, isAsciiWord_iff]
    constructor
    · rintro ⟨hfirst, hrest⟩
      have hchar : c.isAlpha = true ∨ c.isDigit = true ∨ c = '_' :=
        hfirst.imp_right Or.inr
      refine ⟨?_, c, by rw [hstem]; rfl, ?_⟩
      · rw [hstem]
        exact List.forall_mem_cons.2 ⟨hchar, hrest⟩
      · rcases hfirst with hletter | rfl
        · exact isDigit_eq_false_of_isAlpha hletter
        · decide
    · rintro ⟨hall, d, hd, hdigit⟩
      rw [hstem] at hall hd
      obtain rfl : c = d := Option.some.inj hd
      obtain ⟨hchar, hrest⟩ := List.forall_mem_cons.1 hall
      refine ⟨?_, hrest⟩
      rw [hdigit] at hchar
      simpa using hchar

/-- A column is accepted if it is an identifier. -/
theorem isIdentifier_of_columnOf {v : Value} {column : String} (h : columnOf v = .ok column) :
    isIdentifier column = true := by
  cases v with
  | text s =>
    rw [columnOf] at h
    split at h
    · next hs =>
      cases h
      exact hs
    · cases h
  | _ => cases h

end VectorStore.Filter
