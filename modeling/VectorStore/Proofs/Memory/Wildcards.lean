/-
  What a pattern with wildcards matches.

  * `denotes_iff`: a pattern stands for just the texts that its characters are replaced by, one
    after another (`Replaces`);
  * `denotes_literal_append`: a text without wildcards stands for itself alone, so that between two
    `%` it is looked for anywhere (`isLike_between`);
  * `Denotes.mono`: with a coarser relation between characters a pattern stands for more;
  * `isLike_iff`: all of this for the two ways in which texts are matched.
-/
import Mathlib.Data.List.Forall2
import VectorStore.Memory.Like

namespace VectorStore.Memory

/-- The texts that a character of a pattern may be replaced by: any text for `%`, any one character
    for `_`, and otherwise the character alone. -/
inductive Replaces : Char → List Char → Prop
  | any (piece) : Replaces '%' piece
  | one (c) : Replaces '_' [c]
  | self {p} : p ≠ '%' → p ≠ '_' → Replaces p [p]

/-- **A pattern stands for the texts that come of replacing its characters.** -/
theorem denotes_iff {pattern text : List Char} : Denotes (· == ·) pattern text ↔
    ∃ pieces, List.Forall₂ Replaces pattern pieces ∧ text = pieces.flatten := by
  constructor
  · intro h
    induction h with
    | nil => exact ⟨[], .nil, rfl⟩
    | any skipped heq _ ih =>
      obtain ⟨pieces, hpieces, rfl⟩ := ih
      exact ⟨skipped :: pieces, .cons (.any skipped) hpieces, heq⟩
    | one c _ ih =>
      obtain ⟨pieces, hpieces, rfl⟩ := ih
      exact ⟨[c] :: pieces, .cons (.one c) hpieces, rfl⟩
    | char hany hone hsame _ ih =>
      obtain ⟨pieces, hpieces, rfl⟩ := ih
      obtain rfl := eq_of_beq hsame
      exact ⟨_ :: pieces, .cons (.self hany hone) hpieces, rfl⟩
  · rintro ⟨pieces, hpieces, rfl⟩
    induction hpieces with
    | nil => exact .nil
    | cons hpiece _ ih =>
      cases hpiece with
      | any => exact .any _ rfl ih
      | one c => exact .one c ih
      | self hany hone => exact .char hany hone (beq_self_eq_true _) ih

/-! ## Texts without wildcards -/

variable {same : Char → Char → Bool} {pattern text : List Char}

theorem denotes_any_iff : Denotes same ('%' :: pattern) text ↔
    ∃ skipped rest, text = skipped ++ rest ∧ Denotes same pattern rest := by
  constructor
  · intro h
    cases h with
    | any skipped heq h => exact ⟨skipped, _, heq, h⟩
    | char hany => exact absurd rfl hany
  · rintro ⟨skipped, rest, heq, h⟩
    exact .any skipped heq h

/-- `%` alone stands for every text. -/
theorem denotes_any : Denotes same ['%'] text :=
  .any text (List.append_nil text).symm .nil

/-- **Without wildcards a text stands for itself.** -/
theorem denotes_literal_append {v : List Char} (hany : '%' ∉ v) (hone : '_' ∉ v) :
    Denotes (· == ·) (v ++ pattern) text ↔
      ∃ rest, text = v ++ rest ∧ Denotes (· == ·) pattern rest := by
  induction v generalizing text with
  | nil => simp
  | cons p v ih =>
    obtain ⟨hp, hany⟩ : '%' ≠ p ∧ '%' ∉ v := by simpa using hany
    obtain ⟨hp', hone⟩ : '_' ≠ p ∧ '_' ∉ v := by simpa using hone
    constructor
    · intro h
      cases h with
      | any => exact absurd rfl hp
      | one => exact absurd rfl hp'
      | char _ _ hsame h =>
        obtain rfl := eq_of_beq hsame
        obtain ⟨rest, rfl, hrest⟩ := (ih hany hone).1 h
        exact ⟨rest, rfl, hrest⟩
    · rintro ⟨rest, rfl, h⟩
      exact .char (Ne.symm hp) (Ne.symm hp') (beq_self_eq_true p) ((ih hany hone).2 ⟨rest, rfl, h⟩)

/-- A text without wildcards is matched where it occurs. -/
theorem isLike_between {text v : String} (hany : '%' ∉ v.toList) (hone : '_' ∉ v.toList) :
    isLike text ("%" ++ v ++ "%") = true ↔ v.toList <:+: text.toList := by
  have hpattern : ("%" ++ v ++ "%").toList = '%' :: (v.toList ++ ['%']) := by simp
  rw [isLike, like_iff, hpattern, denotes_any_iff]
  constructor
  · rintro ⟨skipped, _, heq, h⟩
    obtain ⟨rest, rfl, -⟩ := (denotes_literal_append hany hone).1 h
    exact ⟨skipped, rest, by rw [heq, List.append_assoc]⟩
  · rintro ⟨skipped, rest, heq⟩
    refine ⟨skipped, v.toList ++ rest, by rw [← heq, List.append_assoc], ?_⟩
    exact (denotes_literal_append hany hone).2 ⟨rest, rfl, denotes_any⟩

/-! ## Letter case -/

/-- With a coarser relation between characters a pattern stands for more. -/
theorem Denotes.mono {same' : Char → Char → Bool}
    (hsame : ∀ p c, same p c = true → same' p c = true) (h : Denotes same pattern text) :
    Denotes same' pattern text := by
  induction h with
  | nil => exact .nil
  | any skipped heq _ ih => exact .any skipped heq ih
  | one c _ ih => exact .one c ih
  | char hany hone hs _ ih => exact .char hany hone (hsame _ _ hs) ih

/-- What is matched is matched up to letter case as well. -/
theorem isLikeFolded_of_isLike {text pattern : String} (h : isLike text pattern = true) :
    isLikeFolded text pattern = true := by
  refine like_iff.2 (Denotes.mono (fun p c hpc => ?_) (like_iff.1 h))
  rw [← eq_of_beq hpc]
  exact Text.sameLetter_refl p

/-- **What matching says.**  A text matches a pattern just if it comes of replacing each `%` by
    some text, each `_` by one character and every other character by itself.  A pattern of a text
    without wildcards between two `%` is matched where the text occurs.  What matches also does so
    up to letter case. -/
theorem isLike_iff (text pattern : String) :
    (isLike text pattern = true ↔ ∃ pieces : List (List Char),
      List.Forall₂ Replaces pattern.toList pieces ∧ text.toList = pieces.flatten) ∧
    (∀ v : String, '%' ∉ v.toList → '_' ∉ v.toList →
      (isLike text ("%" ++ v ++ "%") = true ↔ v.toList <:+: text.toList)) ∧
    (isLike text pattern = true → isLikeFolded text pattern = true) :=
  ⟨like_iff.trans denotes_iff, fun _ => isLike_between, isLikeFolded_of_isLike⟩

/-- Line breaks are skipped like any other character, and a point stands for itself. -/
theorem isLike_lines : '%' ∉ "1.5\n".toList ∧ '_' ∉ "1.5\n".toList ∧
    isLike "size\n1.5\n%" "%1.5\n%" = true ∧ isLikeFolded "size\n1.5\n%" "s_ze%1.5%%" = true := by
  have hany : '%' ∉ "1.5\n".toList := by decide
  have hone : '_' ∉ "1.5\n".toList := by decide
  obtain ⟨-, hoccurs, hfolded⟩ := isLike_iff "size\n1.5\n%" "s_ze%1.5%%"
  refine ⟨hany, hone, (hoccurs "1.5\n" hany hone).2 ?_, hfolded (by decide)⟩
  exact ⟨"size\n".toList, ['%'], by decide⟩

end VectorStore.Memory
