/-
  Native filters mean what filters mean.

  * `Clause.holds` is the service's reading of a clause, given which tests hold;
  * `Filter.evaluate` reads a filter as the tree it is, given which conditions are met, and
    `Facts.meets` says which tests meet a condition;
  * `writes_of_ofFilter_eq_ok`: no document is translated but an accepted one;
  * `holds_of_ofFilter_eq_ok`: a clause holds where its filter does, whatever the tests say;
    `holds_allOf` is why a single filter may stand for itself.
-/
import VectorStore.Proofs.Filter.Document
import VectorStore.Qdrant.Clause

namespace VectorStore

/-! ## Trees of conditions -/

namespace Filter

mutual

/-- Whether a filter holds, given which conditions are met. -/
def evaluate (meets : Condition → Bool) : Filter → Bool
  | .entries parts => evaluateAll meets parts
  | .group .and children => evaluateAll meets children
  | .group .or children => evaluateAny meets children
  | .leaf c => meets c
  | .refused _ | .foreign _ => false

/-- Whether all of the filters hold. -/
def evaluateAll (meets : Condition → Bool) : List Filter → Bool
  | [] => true
  | f :: filters => evaluate meets f && evaluateAll meets filters

/-- Whether one of the filters holds. -/
def evaluateAny (meets : Condition → Bool) : List Filter → Bool
  | [] => false
  | f :: filters => evaluate meets f || evaluateAny meets filters

end

end Filter

namespace Qdrant

open VectorStore.Filter (Condition Writes WritesEntry WritesEntries WritesItems)

/-! ## Clauses -/

/-- Which tests hold of a point. -/
structure Facts where
  test : String → Test → Bool
  isEmpty : String → Bool

mutual

/-- Whether a clause holds: all that must hold do, one that should hold does, and none that
    must not hold does. -/
def Clause.holds (facts : Facts) : Clause → Bool
  | .field key test => facts.test key test
  | .isEmpty key => facts.isEmpty key
  | .must clauses => Clause.allHold facts clauses
  | .should clauses => Clause.anyHolds facts clauses
  | .mustNot clauses => !Clause.anyHolds facts clauses

/-- Whether all of the clauses hold. -/
def Clause.allHold (facts : Facts) : List Clause → Bool
  | [] => true
  | c :: clauses => c.holds facts && Clause.allHold facts clauses

/-- Whether one of the clauses holds. -/
def Clause.anyHolds (facts : Facts) : List Clause → Bool
  | [] => false
  | c :: clauses => c.holds facts || Clause.anyHolds facts clauses

end

/-- A single filter holds where the filter that must hold does. -/
theorem holds_allOf (facts : Facts) (clauses : List Clause) :
    (allOf clauses).holds facts = Clause.allHold facts clauses := by
  unfold allOf
  split
  · split
    · simp [Clause.allHold]
    · rw [Clause.holds]
  · rw [Clause.holds]

/-! ## Conditions -/

/-- The test that a field equals a value. -/
def equalTest : Value → Test
  | .float x => .range { gte := some x, lte := some x }
  | v => .value v

/-- Whether a field passes the test that it equals a value. -/
def Facts.equal (facts : Facts) (key : String) (v : Value) : Bool := facts.test key (equalTest v)

/-- Whether the tests meet a condition: its own test, but for a difference, which an empty
    field does not meet, for presence, and for containment, which is equality at each leaf. -/
def Facts.meets (facts : Facts) (c : Condition) : Bool :=
  let key := c.path.text
  match c.operator with
  | .eq => facts.equal key c.value
  | .neq => !facts.equal key c.value && !facts.isEmpty key
  | .gt | .gte | .lt | .lte =>
    match c.value.toFloat with
    | .ok x => facts.test key (.range (rangeOf c.operator x))
    | .error _ => false
  | .like | .ilike => facts.test key (.text c.value.plain)
  | .oneOf =>
    match Filter.choices c.value with
    | .ok vs => facts.test key (.any vs)
    | .error _ => false
  | .contains => (flatten "" (c.path.fold c.value)).all fun leaf => facts.equal leaf.1 leaf.2
  | .present => !facts.isEmpty key

variable {facts : Facts}

theorem eq_of_equals {key : String} {v : Value} {c : Clause} (h : equals key v = .ok c) :
    c = .field key (equalTest v) := by
  cases v <;> cases h <;> rfl

theorem holds_of_equals {key : String} {v : Value} {c : Clause} (h : equals key v = .ok c) :
    c.holds facts = facts.equal key v := by
  rw [eq_of_equals h, Clause.holds, Facts.equal]

/-- The clauses that equal one leaf each. -/
theorem eq_map_of_mapM_equals : ∀ {leaves : List (String × Value)} {clauses : List Clause},
    (leaves.mapM fun leaf => equals leaf.1 leaf.2) = Except.ok clauses →
      clauses = leaves.map fun leaf => .field leaf.1 (equalTest leaf.2)
  | [], clauses, h => by cases h; rfl
  | leaf :: leaves, clauses, h => by
    rw [List.mapM_cons] at h
    rcases hl : equals leaf.1 leaf.2 with _ | c
    · rw [hl] at h; cases h
    rcases hs : leaves.mapM fun leaf => equals leaf.1 leaf.2 with _ | cs
    · rw [hl, hs] at h; cases h
    rw [hl, hs] at h
    cases h
    rw [List.map_cons, eq_of_equals hl, eq_map_of_mapM_equals hs]

/-- Clauses that equal one leaf each all hold if each leaf is equal. -/
theorem allHold_of_equals {leaves : List (String × Value)} {clauses : List Clause}
    (h : (leaves.mapM fun leaf => equals leaf.1 leaf.2) = Except.ok clauses) :
    Clause.allHold facts clauses = leaves.all fun leaf => facts.equal leaf.1 leaf.2 := by
  rw [eq_map_of_mapM_equals h]
  clear h
  induction leaves with
  | nil => rfl
  | cons leaf leaves ih =>
    rw [List.map_cons, Clause.allHold, ih, List.all_cons, Clause.holds, Facts.equal]

/-- **The clause of a condition holds where the tests meet it.** -/
theorem holds_of_ofCondition_eq_ok {d : Condition} {c : Clause}
    (h : Clause.ofCondition d = .ok c) : c.holds facts = facts.meets d := by
  obtain ⟨key, path, op, value⟩ := d
  cases op
  case eq => exact holds_of_equals h
  case neq =>
    rcases he : equals path.text value with _ | e
    · simp only [Clause.ofCondition, he] at h; cases h
    · simp only [Clause.ofCondition, he] at h
      cases h
      simp [Clause.holds, Clause.anyHolds, holds_of_equals he, Facts.meets]
  case gt | gte | lt | lte =>
    rcases hx : value.toFloat with _ | x
    · simp only [Clause.ofCondition, hx] at h; cases h
    · simp only [Clause.ofCondition, hx] at h
      cases h
      simp only [Clause.holds, Facts.meets, hx]
  case like | ilike =>
    rcases ht : value.toText with _ | s
    · simp only [Clause.ofCondition, ht] at h; cases h
    · simp only [Clause.ofCondition, ht] at h
      cases h
      simp only [Clause.holds, Facts.meets, Value.plain_of_toText ht]
  case oneOf =>
    rcases hv : Filter.choices value with _ | vs
    · simp only [Clause.ofCondition, hv] at h; cases h
    · by_cases hu : areUniform vs = true
      · simp only [Clause.ofCondition, hv, Except.mapError, bind, Except.bind, hu, if_true] at h
        cases h
        simp only [Clause.holds, Facts.meets, hv]
      · simp [Clause.ofCondition, hv, Except.mapError, bind, Except.bind, hu] at h
  case contains =>
    rcases hl : (flatten "" (path.fold value)).mapM (fun leaf => equals leaf.1 leaf.2) with _ | cs
    · simp only [Clause.ofCondition, hl] at h; cases h
    · simp only [Clause.ofCondition, hl] at h
      cases h
      simp only [Clause.holds, Facts.meets, allHold_of_equals hl]
  case present =>
    cases h
    simp [Clause.holds, Clause.anyHolds, Facts.meets]

/-! ## Filters -/

theorem ofFilters_cons_eq_ok {f : Filter} {filters : List Filter} {clauses : List Clause}
    (h : Clause.ofFilters (f :: filters) = .ok clauses) :
    ∃ c cs, Clause.ofFilter f = .ok c ∧ Clause.ofFilters filters = .ok cs ∧ clauses = c :: cs := by
  rw [Clause.ofFilters] at h
  rcases hf : Clause.ofFilter f with _ | c
  · rw [hf] at h; cases h
  rcases hs : Clause.ofFilters filters with _ | cs
  · rw [hf, hs] at h; cases h
  rw [hf, hs] at h
  cases h
  exact ⟨c, cs, rfl, rfl, rfl⟩

/-- The clauses of a filter's parts, and how its own clause is made of them. -/
theorem ofFilter_entries_eq_ok {parts : List Filter} {c : Clause}
    (h : Clause.ofFilter (.entries parts) = .ok c) :
    parts ≠ [] ∧ ∃ cs, Clause.ofFilters parts = .ok cs ∧ c = allOf cs := by
  rw [Clause.ofFilter] at h
  split at h
  · cases h
  · next hn =>
    rcases hs : Clause.ofFilters parts with _ | cs
    · rw [hs] at h; cases h
    · rw [hs] at h; cases h
      exact ⟨fun he => hn (by rw [he]; rfl), cs, rfl, rfl⟩

/-- The clause of a combinator. -/
def Clause.ofCombinator : Combinator → List Clause → Clause
  | .and => .must
  | .or => .should

theorem ofFilter_group_eq_ok {k : Combinator} {children : List Filter} {c : Clause}
    (h : Clause.ofFilter (.group k children) = .ok c) :
    ∃ cs, Clause.ofFilters children = .ok cs ∧ c = .ofCombinator k cs := by
  cases k <;> rw [Clause.ofFilter] at h <;>
    rcases hs : Clause.ofFilters children with _ | cs <;> rw [hs] at h <;> cases h <;>
    exact ⟨cs, rfl, rfl⟩

mutual

/-- **The clause of a filter holds where the filter does.** -/
theorem holds_of_ofFilter_eq_ok : ∀ {f : Filter} {c : Clause}, Clause.ofFilter f = .ok c →
    c.holds facts = f.evaluate facts.meets
  | .entries parts, c, h => by
    obtain ⟨-, cs, hs, rfl⟩ := ofFilter_entries_eq_ok h
    rw [holds_allOf, Filter.evaluate, allHold_of_ofFilters_eq_ok hs]
  | .group .and children, c, h => by
    obtain ⟨cs, hs, rfl⟩ := ofFilter_group_eq_ok h
    rw [Clause.ofCombinator, Clause.holds, Filter.evaluate, allHold_of_ofFilters_eq_ok hs]
  | .group .or children, c, h => by
    obtain ⟨cs, hs, rfl⟩ := ofFilter_group_eq_ok h
    rw [Clause.ofCombinator, Clause.holds, Filter.evaluate, anyHolds_of_ofFilters_eq_ok hs]
  | .leaf d, c, h => by
    rw [Clause.ofFilter] at h
    rw [holds_of_ofCondition_eq_ok h, Filter.evaluate]
  | .refused _, c, h | .foreign _, c, h => by rw [Clause.ofFilter] at h; cases h

theorem allHold_of_ofFilters_eq_ok : ∀ {filters : List Filter} {clauses : List Clause},
    Clause.ofFilters filters = .ok clauses →
      Clause.allHold facts clauses = Filter.evaluateAll facts.meets filters
  | [], clauses, h => by cases h; rfl
  | f :: filters, clauses, h => by
    obtain ⟨c, cs, hf, hs, rfl⟩ := ofFilters_cons_eq_ok h
    rw [Clause.allHold, Filter.evaluateAll, holds_of_ofFilter_eq_ok hf,
      allHold_of_ofFilters_eq_ok hs]

theorem anyHolds_of_ofFilters_eq_ok : ∀ {filters : List Filter} {clauses : List Clause},
    Clause.ofFilters filters = .ok clauses →
      Clause.anyHolds facts clauses = Filter.evaluateAny facts.meets filters
  | [], clauses, h => by cases h; rfl
  | f :: filters, clauses, h => by
    obtain ⟨c, cs, hf, hs, rfl⟩ := ofFilters_cons_eq_ok h
    rw [Clause.anyHolds, Filter.evaluateAny, holds_of_ofFilter_eq_ok hf,
      anyHolds_of_ofFilters_eq_ok hs]

end

/-! ## Documents -/

mutual

/-- **Only an accepted document is translated.** -/
theorem writes_of_ofFilter_eq_ok : ∀ {v : Value} {c : Clause},
    Clause.ofFilter (.ofValue v) = .ok c → Writes v (.ofValue v)
  | .object fields, c, h => by
    rw [Filter.ofValue] at h ⊢
    obtain ⟨hn, cs, hs, -⟩ := ofFilter_entries_eq_ok h
    exact .object hn (writes_of_ofFields_eq_ok hs)
  | .null, _, h | .bool _, _, h | .int _, _, h | .float _, _, h | .text _, _, h
  | .list _, _, h => by simp [Filter.ofValue, Clause.ofFilter] at h

theorem writes_of_ofEntry_eq_ok {key : String} : ∀ {raw : Value} {c : Clause},
    Clause.ofFilter (Filter.ofEntry key raw) = .ok c →
      WritesEntry key raw (Filter.ofEntry key raw)
  | raw, c, h => by
    rcases hk : Combinator.ofName? key with _ | k
    · simp only [Filter.ofEntry, hk, Filter.ofCondition] at h ⊢
      rcases hc : Condition.ofValue key raw with _ | d
      · rw [hc, Clause.ofFilter] at h; cases h
      · exact .leaf hk hc
    · cases raw with
      | list items =>
        simp only [Filter.ofEntry, hk] at h ⊢
        split at h
        · rw [Clause.ofFilter] at h; cases h
        · next hn =>
          rw [if_neg hn]
          obtain ⟨cs, hs, -⟩ := ofFilter_group_eq_ok h
          exact .group hk (Filter.ofItems_ne_nil hn) (writes_of_ofItems_eq_ok hs)
      | _ => simp only [Filter.ofEntry, hk, Clause.ofFilter] at h; cases h

theorem writes_of_ofFields_eq_ok : ∀ {fields : Fields} {cs : List Clause},
    Clause.ofFilters (Filter.ofFields fields) = .ok cs →
      WritesEntries fields (Filter.ofFields fields)
  | [], _, _ => .nil
  | (key, raw) :: fields, cs, h => by
    rw [Filter.ofFields_cons] at h ⊢
    obtain ⟨_, _, hf, hs, -⟩ := ofFilters_cons_eq_ok h
    exact .cons (writes_of_ofEntry_eq_ok hf) (writes_of_ofFields_eq_ok hs)

theorem writes_of_ofItems_eq_ok : ∀ {items : List Value} {cs : List Clause},
    Clause.ofFilters (Filter.ofItems items) = .ok cs → WritesItems items (Filter.ofItems items)
  | [], _, _ => .nil
  | v :: items, cs, h => by
    rw [Filter.ofItems] at h ⊢
    obtain ⟨_, _, hf, hs, -⟩ := ofFilters_cons_eq_ok h
    exact .cons (writes_of_ofFilter_eq_ok hf) (writes_of_ofItems_eq_ok hs)

end

/-- **A native filter keeps the structure of the document.**  A document that is translated is
    a tree of entries, combinators and conditions, and whatever the tests on a point say, the
    clause holds of it if and only if the tree does. -/
theorem holds_translated_iff {expression : Value} {c : Clause}
    (h : Clause.ofFilter (.ofValue expression) = .ok c) :
    Writes expression (.ofValue expression) ∧ ∀ facts : Facts,
      c.holds facts = true ↔ (Filter.ofValue expression).evaluate facts.meets = true :=
  ⟨writes_of_ofFilter_eq_ok h, fun _ => by rw [holds_of_ofFilter_eq_ok h]⟩

/-- A filter with a lone difference below a combinator. -/
def unsold : Value :=
  .object [("$or", .list [
    .object [("sold", .object [("operator", .text "neq"), ("value", .bool true)])],
    .object [("tag", .text "new"), ("sold", .object [("operator", .text "exists")])]])]

/-- Its native filter. -/
def unsoldClause : Clause :=
  .should [
    .mustNot [.field "sold" (.value (.bool true)), .isEmpty "sold"],
    .must [.field "tag" (.value (.text "new")), .mustNot [.isEmpty "sold"]]]

theorem holds_unsold : Clause.ofFilter (.ofValue unsold) = .ok unsoldClause ∧
    Writes unsold (.ofValue unsold) ∧ ∀ facts : Facts,
      unsoldClause.holds facts = true ↔ (Filter.ofValue unsold).evaluate facts.meets = true :=
  have h : Clause.ofFilter (.ofValue unsold) = .ok unsoldClause := rfl
  ⟨h, holds_translated_iff h⟩

end Qdrant

end VectorStore
