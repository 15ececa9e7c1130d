/-
  Vectors are read as they are written.

  * `writeChars_plain`: the text of a double is not empty, and nothing in it separates, encloses or
    is blank;
  * `components_literalChars`: so the texts of the components are found between brackets and commas,
    also if there are none;
  * `parse_literal`: each is read as its component, and the vector comes back.
-/
import VectorStore.Postgres.Literal
import VectorStore.Proofs.Filter.Marks
import VectorStore.Proofs.Number.Layout

namespace VectorStore.Postgres

open Number (alphabet diagnostic)

/-- The text of a double has no comma, no bracket and no blank in it, and it is not empty. -/
theorem writeChars_plain (x : Float) : diagnostic.writeChars x ≠ [] ∧
    ∀ c ∈ diagnostic.writeChars x, c ∉ [',', '[', ']'] ∧ Text.isBlank c = false := by
  have hall : ∀ c ∈ alphabet, c ∉ [',', '[', ']'] ∧ Text.isBlank c = false :=
    List.all_iff_forall_prop.1 (by decide)
  refine ⟨fun hnil => ?_, fun c hc => hall c (Number.mem_alphabet_of_mem_writeChars hc)⟩
  have hread := Number.readFloat?_writeChars x
  rw [hnil] at hread
  cases hread

/-- **The components of a vector are found in its text.** -/
theorem components_literalChars (v : List Float) :
    components (literalChars v) = v.map diagnostic.writeChars := by
  have hplain : ∀ part ∈ v.map diagnostic.writeChars, part ≠ [] ∧
      ∀ c ∈ part, c ∉ [',', '[', ']'] ∧ Text.isBlank c = false :=
    List.forall_mem_map.2 fun x _ => writeChars_plain x
  rw [components, literalChars]
  generalize v.map diagnostic.writeChars = parts at hplain
  have hbrackets : ∀ c ∈ Text.join ',' parts, (c == '[' || c == ']') = false := by
    intro c hc
    rcases Filter.mem_join hc with rfl | ⟨part, hpart, hc⟩
    · rfl
    · have hnot := ((hplain part hpart).2 c hc).1
      simp_all
  have hcommas : ∀ part ∈ parts, ',' ∉ part := fun part hpart hc =>
    ((hplain part hpart).2 ',' hc).1 (List.mem_cons_self ..)
  have hblank : ∀ part ∈ parts, (!part.all Text.isBlank) = true := by
    intro part hpart
    obtain ⟨hne, hpart⟩ := hplain part hpart
    obtain ⟨c, cs, rfl⟩ := List.exists_cons_of_ne_nil hne
    rw [List.all_cons, (hpart c (List.mem_cons_self ..)).2]
    rfl
  rw [Text.trim_enclosed rfl rfl hbrackets]
  by_cases hne : parts = []
  · -- the empty text between the brackets is one piece, but a blank one
    rw [hne]
    rfl
  · rw [Text.split_join hne hcommas, List.filter_eq_self.2 hblank]

/-- The texts of doubles are read as the doubles. -/
theorem toFloats_writeChars (v : List Float) :
    Value.toFloats ((v.map diagnostic.writeChars).map fun cs => .text (String.ofList cs)) =
      .ok v := by
  induction v with
  | nil => rfl
  | cons x v ih =>
    rw [Value.toFloats] at ih ⊢
    rw [List.map_cons, List.map_cons, List.mapM_cons, ih, Value.toFloat,
      Number.readFloat?_writeChars]
    rfl

/-- A text is read piece by piece. -/
theorem parse_text (s : String) : parse (.text s) =
    (Value.toFloats ((components s.toList).map fun cs => .text (String.ofList cs))).map some := by
  have htext : (Value.text s).toText = .ok s := rfl
  rw [parse, htext]
  · show (Value.toFloats _ >>= fun v => Except.ok (some v)) = _
    cases Value.toFloats ((components s.toList).map fun cs => .text (String.ofList cs)) <;> rfl
  · nofun
  · nofun

/-- **A vector is read as it is written**, whatever doubles it is made of. -/
theorem parse_literal (v : List Float) : parse (.text (literal v)) = .ok (some v) := by
  rw [parse_text, literal, String.toList_ofList, components_literalChars, toFloats_writeChars]
  rfl

/-- The one blank piece between the brackets is no component. -/
example : literal [] = "[]" ∧ parse (.text "[]") = .ok (some []) := ⟨rfl, rfl⟩

end VectorStore.Postgres
