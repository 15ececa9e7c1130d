/-
  Validated filters are accepted everywhere.

  A filter is validated once, by compiling it for the column of the document and the first
  index, and compiled again by the backend for another place.

  * `compile_eq`: compiling fails or succeeds with the parameters of the filter, whatever the
    place;
  * `native_of_parameters`: the text compiled when validating is one that can be relocated;
  * `compile_iff_validate`: so validating decides about every later compilation and its
    failure, and fixes its parameters and, but for the place, its text.
-/
import VectorStore.Postgres.Store
import VectorStore.Proofs.Filter.Relocation

namespace VectorStore.Filter

/-- **Compiling fails or succeeds regardless of the place.** -/
theorem compile_eq (expression : Value) (start : Nat) (column : String) :
    compile expression start column = (parameters (ofValue expression)).map fun bs =>
      ⟨predicateAt column start (ofValue expression), bs, start⟩ := by
  rw [compile, compileAt_eq]
  cases parameters (ofValue expression) <;> rfl

theorem validate_eq (expression : Value) :
    validate expression = (parameters (ofValue expression)).map fun _ => () := by
  rw [validate, compile_eq]
  cases parameters (ofValue expression) <;> rfl

theorem column_of_mem_fragmentsFrom {column : String} {f : Fragment} {cs : List Condition} :
    ∀ {index : Nat}, f ∈ fragmentsFrom column index cs → f.column = column := by
  induction cs with
  | nil => intro index hf; cases hf
  | cons c cs ih =>
    intro index hf
    rw [fragmentsFrom] at hf
    rcases List.mem_cons.1 hf with rfl | hf
    · rfl
    · exact ih hf

/-- The fragments of an accepted filter over the document's column can be relocated. -/
theorem native_of_parameters {expression : Value} {bs : List Binding}
    (h : parameters (ofValue expression) = .ok bs) (index : Nat) :
    ∀ f ∈ (predicateAt documentName index (ofValue expression)).fragments, f.Native := by
  intro f hf
  have hc : compile expression index documentName = .ok _ :=
    (compile_eq_ok_iff documentName).2 ⟨bs, h, rfl⟩
  have hs := sound_of_compile (by decide) hc
  rw [fragments_predicateAt] at hf
  refine ⟨column_of_mem_fragmentsFrom hf, (hs f ?_).2⟩
  rw [fragments_predicateAt]
  exact hf

/-- The text of an accepted filter, compiled for another place, is the relocated text. -/
theorem sql_eq_relocate {expression : Value} {bs : List Binding}
    (h : parameters (ofValue expression) = .ok bs) (index shift : Nat) (column : String) :
    (predicateAt column (index + shift) (ofValue expression)).chars =
      relocate column shift (predicateAt documentName index (ofValue expression)).chars := by
  have hr : Stops [] := by simp [Stops]
  have ht : Ends column shift _ _ := relocate_chars (native_of_parameters h index)
  have ht := ht [] hr
  rw [List.append_nil] at ht
  rw [predicateAt_moved column shift documentName, ht]
  exact (List.append_nil _).symm

end VectorStore.Filter

namespace VectorStore.Postgres

open VectorStore.Filter (compile validate relocate)

theorem object_of_requireFilter {expression : Value} {fields : Fields}
    (h : Store.requireFilter expression = .ok (some fields)) :
    expression = .object fields ∧ validate expression = .ok () := by
  unfold Store.requireFilter at h
  split at h
  · cases h
  · cases h
  · next f rest =>
    rcases hv : validate (.object (f :: rest)) with r | _ <;> rw [hv] at h <;> cases h
    exact ⟨rfl, rfl⟩
  · cases h

/-- **Validating decides about every later compilation.**  For every column and first index,
    a filter is compiled just if it is validated, and refused for the same reason if not; its
    parameters are the same for every place, and its text is the one compiled when validating
    with the column put in and the placeholders counted on, fragment by fragment and character
    by character.  So no query with a validated filter is refused because of it. -/
theorem compile_iff_validate (expression : Value) {start : Nat} (hs : 1 ≤ start)
    (column : String) :
    ((∃ c, compile expression start column = .ok c) ↔ validate expression = .ok ()) ∧
    (∀ r, compile expression start column = .error r ↔ validate expression = .error r) ∧
    (∀ c, compile expression start column = .ok c → ∃ c₀, compile expression = .ok c₀ ∧
      c.bindings = c₀.bindings ∧ c.startIndex = start ∧
      c.predicate = c₀.predicate.moved column (start - 1) ∧
      c.sql.toList = relocate column (start - 1) c₀.sql.toList) ∧
    ∀ q : QueryRequest, Store.requireFilter expression = .ok q.filter →
      ∃ predicate, predicateOf q = .ok predicate := by
  rw [Filter.validate_eq, Filter.compile_eq]
  refine ⟨?_, ?_, ?_, ?_⟩
  · rcases Filter.parameters (Filter.ofValue expression) with r | bs
    · simp [Except.map]
    · simp [Except.map]
  · intro r
    rcases Filter.parameters (Filter.ofValue expression) with r' | bs
    · simp [Except.map]
    · simp [Except.map]
  · intro c hc
    rcases hp : Filter.parameters (Filter.ofValue expression) with r | bs <;> rw [hp] at hc <;>
      cases hc
    have hstart : start = 1 + (start - 1) := by omega
    refine ⟨⟨Filter.predicateAt Filter.documentName 1 (Filter.ofValue expression), bs, 1⟩, ?_,
      rfl, rfl, ?_, ?_⟩
    · rw [Filter.compile_eq, hp]; rfl
    · simp only
      rw [← Filter.predicateAt_moved, ← hstart]
    · simp only [Filter.Compiled.sql, Filter.Predicate.text, String.toList_ofList]
      rw [← Filter.sql_eq_relocate hp, ← hstart]
  · intro q hq
    rcases hf : q.filter with _ | fields
    · exact ⟨none, by rw [predicateOf, hf]⟩
    · obtain ⟨he, hv⟩ := object_of_requireFilter (hf ▸ hq)
      rw [he, Filter.validate_eq] at hv
      rw [predicateOf, hf]
      simp only [Filter.compile_eq]
      rcases hp : Filter.parameters (Filter.ofValue (.object fields)) with r | bs
      · rw [hp] at hv; cases hv
      · exact ⟨some _, rfl⟩

theorem compile_iff_validate_shoes : 1 ≤ 7 ∧ ∃ c c₀, compile Filter.shoes 7 "doc" = .ok c ∧
    compile Filter.shoes = .ok c₀ ∧ c.sql.toList = relocate "doc" 6 c₀.sql.toList := by
  obtain ⟨c, hc⟩ : ∃ c, compile Filter.shoes 7 "doc" = .ok c := ⟨_, rfl⟩
  obtain ⟨-, -, hr, -⟩ := compile_iff_validate Filter.shoes (by decide : 1 ≤ 7) "doc"
  obtain ⟨c₀, h₀, -, -, -, ht⟩ := hr c hc
  exact ⟨by decide, c, c₀, hc, h₀, ht⟩

end VectorStore.Postgres
