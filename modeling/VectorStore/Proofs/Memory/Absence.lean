/-
  What is absent matches nothing.

  * `extract_of_contains`: containment looks into objects only, where a path can be followed;
  * `extract_of_matchCondition`: all other operators follow the path themselves;
  * `matchCondition_absent`: so no condition holds of a field that the document does not have.
-/
import VectorStore.Proofs.Memory.Containment
import VectorStore.Proofs.Memory.Evaluation

namespace VectorStore.Memory

open VectorStore.Filter (Condition Path)

/-- Containment asks of a document that it has the field. -/
theorem extract_of_contains {doc v : Value} {path : Path} (h : contains doc (path.fold v) = true) :
    ∃ w, extract path doc = .ok (some w) := by
  obtain ⟨w, hw, -⟩ := within_fold_iff.1 h
  exact ⟨w, hw.extract⟩

/-- A comparison of text, or of numbers, asks of a document that it has the field. -/
theorem extract_of_matchCondition {doc : Value} {c : Condition} (ho : c.operator ≠ .contains)
    (h : matchCondition doc c = .ok true) : ∃ w, extract c.path doc = .ok (some w) := by
  rcases hx : extract c.path doc with f | _ | w
  · rw [matchCondition_of_extract_eq_error ho hx] at h
    cases h
  · exfalso
    have ht : asText none = .ok none := rfl
    by_cases hn : c.operator ∈ ordering
    · rw [matchCondition_ordering hn hx ht] at h
      rcases hf : c.value.toFloat with f | right <;> rw [hf] at h <;> cases h
    obtain ⟨key, path, op, v⟩ := c
    cases op
    case contains => exact ho rfl
    case gt | gte | lt | lte => exact hn (by simp [ordering])
    case present =>
      rw [matchCondition_present, hx] at h
      cases h
    case eq =>
      rw [matchCondition_equal hx ht] at h
      cases h
    case neq =>
      rw [matchCondition_unequal hx ht] at h
      cases h
    case like =>
      rw [matchCondition_like hx ht] at h
      rcases hp : wildcards v with f | p <;> rw [hp] at h <;> cases h
    case ilike =>
      rw [matchCondition_ilike hx ht] at h
      rcases hp : wildcards v with f | p <;> rw [hp] at h <;> cases h
    case oneOf =>
      rw [matchCondition, hx] at h
      cases h
  · exact ⟨w, rfl⟩

/-- **What is absent matches nothing.**  No condition holds of a document that does not have the
    field, whichever its operator and its value; when one holds, the field is present. -/
theorem matchCondition_absent (doc : Value) (c : Condition) :
    (extract c.path doc = .ok none → matchCondition doc c ≠ .ok true) ∧
    (matchCondition doc c = .ok true →
      matchCondition doc { c with operator := .present } = .ok true) := by
  have hfound : matchCondition doc c = .ok true → ∃ w, extract c.path doc = .ok (some w) := by
    intro h
    by_cases ho : c.operator = .contains
    · obtain ⟨key, path, op, v⟩ := c
      obtain rfl : op = .contains := ho
      rw [matchCondition_contains] at h
      split at h
      · exact extract_of_contains (Except.ok.inj h)
      · cases h
    · exact extract_of_matchCondition ho h
  constructor
  · intro hnone h
    obtain ⟨w, hw⟩ := hfound h
    rw [hnone] at hw
    cases hw
  · intro h
    obtain ⟨w, hw⟩ := hfound h
    rw [matchCondition, hw]
    rfl

/-- A document of a shoe in two sizes. -/
def shoe : Value :=
  .object [("kind", .text "shoe"), ("sizes", .list [.int 41, .int 42])]

/-- The shoe has no third size, whatever it is asked for; containment does not look into its list
    of sizes, where there is a first one. -/
theorem matchCondition_absent_size :
    matchCondition shoe ⟨"sizes.2", ["sizes", "2"], .neq, .text "43"⟩ ≠ .ok true ∧
    matchCondition shoe ⟨"sizes", ["sizes"], .present, .list [.int 42]⟩ = .ok true := by
  have habsent : extract ["sizes", "2"] shoe = .ok none := rfl
  have hcontains :
      matchCondition shoe ⟨"sizes", ["sizes"], .contains, .list [.int 42]⟩ = .ok true := by
    rw [matchCondition_contains]
    rfl
  exact ⟨(matchCondition_absent shoe _).1 habsent, (matchCondition_absent shoe _).2 hcontains⟩

end VectorStore.Memory
