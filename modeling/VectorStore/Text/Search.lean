/-
  Cutting, joining and searching text.

  * `split` cuts at a separator and `join` puts the pieces together again
    (`join_split`, `split_join`), as `pieces` and `joined` do for strings (`pieces_joined`);
  * `occursIn` looks for one text inside another, `asciiLower` folds the case of ASCII
    letters for messages whose wording is ASCII.
-/

namespace VectorStore.Text

/-- The pieces between separators: `n` separators make `n + 1` pieces. -/
def split (sep : Char) : List Char → List (List Char)
  | [] => [[]]
  | c :: cs =>
    if c = sep then [] :: split sep cs
    else match split sep cs with
      | [] => [[c]]
      | piece :: pieces => (c :: piece) :: pieces

/-- The pieces with a separator between neighbours. -/
def join (sep : Char) : List (List Char) → List Char
  | [] => []
  | [piece] => piece
  | piece :: pieces => piece ++ sep :: join sep pieces

theorem split_ne_nil (sep : Char) (cs : List Char) : split sep cs ≠ [] := by
  fun_cases split <;> simp

/-- Joining undoes splitting. -/
theorem join_split (sep : Char) (cs : List Char) : join sep (split sep cs) = cs := by
  induction cs with
  | nil => rfl
  | cons c cs ih =>
    simp only [split]
    match hs : split sep cs with
    | [] => exact absurd hs (split_ne_nil sep cs)
    | piece :: pieces =>
      rw [hs] at ih
      by_cases h : c = sep
      · simp [h, join, ih]
      · cases pieces <;> simp_all [join]

theorem split_append_of_notMem {sep : Char} {piece : List Char} (h : sep ∉ piece)
    (rest : List Char) :
    split sep (piece ++ sep :: rest) = piece :: split sep rest := by
  induction piece with
  | nil => simp [split]
  | cons c piece ih =>
    obtain ⟨hc, hp⟩ : sep ≠ c ∧ sep ∉ piece := by simpa using h
    simp [split, ih hp, Ne.symm hc]

theorem split_of_notMem {sep : Char} {piece : List Char} (h : sep ∉ piece) :
    split sep piece = [piece] := by
  induction piece with
  | nil => rfl
  | cons c piece ih =>
    obtain ⟨hc, hp⟩ : sep ≠ c ∧ sep ∉ piece := by simpa using h
    simp [split, ih hp, Ne.symm hc]

/-- Splitting undoes joining, for pieces without the separator. -/
theorem split_join {sep : Char} {pieces : List (List Char)} (hne : pieces ≠ [])
    (h : ∀ piece ∈ pieces, sep ∉ piece) : split sep (join sep pieces) = pieces := by
  induction pieces with
  | nil => exact absurd rfl hne
  | cons piece pieces ih =>
    cases pieces with
    | nil => simpa [join] using split_of_notMem (h piece (by simp))
    | cons next pieces =>
      rw [join, split_append_of_notMem (h piece (by simp)), ih (by simp)]
      · intro p hp
        exact h p (List.mem_cons_of_mem _ hp)
      · simp

/-- The pieces of a string between separators. -/
def pieces (sep : Char) (s : String) : List String :=
  (split sep s.toList).map String.ofList

/-- The strings with `sep` between neighbours. -/
def joined (sep : String) (parts : List String) : String := sep.intercalate parts

theorem toList_joined (sep : Char) (parts : List String) :
    (joined (String.singleton sep) parts).toList = join sep (parts.map String.toList) := by
  induction parts with
  | nil => rfl
  | cons part parts ih =>
    cases parts with
    | nil => simp [joined, join]
    | cons next parts =>
      rw [joined, String.intercalate_cons_cons, String.toList_append, String.toList_append,
        List.map_cons, List.map_cons, join, ← List.map_cons, ← ih, joined]
      · simp
      · simp

/-- Cutting undoes joining, for strings without the separator. -/
theorem pieces_joined {sep : Char} {parts : List String} (hne : parts ≠ [])
    (h : ∀ s ∈ parts, sep ∉ s.toList) :
    pieces sep (joined (String.singleton sep) parts) = parts := by
  rw [pieces, toList_joined, split_join (by simpa using hne) (by simpa using h), List.map_map]
  simp [Function.comp_def]

/-- Whether `part` occurs in `whole`. -/
def occurs (part : List Char) : List Char → Bool
  | [] => part.isEmpty
  | c :: cs => part.isPrefixOf (c :: cs) || occurs part cs

/-- Whether the string `part` occurs in `whole`. -/
def occursIn (part whole : String) : Bool := occurs part.toList whole.toList

/-- The string with its ASCII capitals made small. -/
def asciiLower (s : String) : String := String.ofList (s.toList.map Char.toLower)

end VectorStore.Text
