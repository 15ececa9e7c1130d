/-
  What is not translated.

  A validated filter may still be refused: the service compares fields with texts, truth values and
  numbers only, and its models take no more values than that.

  * `Incomparable` conditions compare a field with null, a list or an object;
  * `Unmodelled` conditions have values that the models of the service refuse;
  * a condition is translated if it is neither (`ofCondition_cases`, `Incomparable.exists_error`,
    `Unmodelled.exists_error`);
  * `failure?_ofFilter`: a filter fails as the first of its conditions that does;
  * `ofFilter_refuses`: so a filter without an unmodelled condition is translated, or it is not
    supported.
-/
import VectorStore.Proofs.Memory.Evaluation
import VectorStore.Proofs.Qdrant.Clauses
import VectorStore.Proofs.Store.Refusals

namespace VectorStore.Qdrant

open VectorStore.Filter (Binding Condition choices leaves allLeaves ofValue parameters validate)
open VectorStore.Memory (ordering)

variable {α : Type}

/-! ## Failures -/

/-- The failure of a result, if it is one. -/
def failure? : Except Failure α → Option Failure
  | .ok _ => none
  | .error e => some e

theorem failure?_eq_some {r : Except Failure α} {e : Failure} :
    failure? r = some e ↔ r = .error e := by
  cases r <;> simp [failure?]

theorem failure?_eq_none {r : Except Failure α} : failure? r = none ↔ ∃ a, r = .ok a := by
  cases r <;> simp [failure?]

/-- The result is what was asked for, or the service does not support it. -/
def Documented (r : Except Failure α) : Prop :=
  ∀ e, r = .error e → ∃ err, e = .error err ∧ err.category = .notSupported

theorem category_cannotCompare (key : String) (v : Value) :
    ∃ err, cannotCompare key v = .error err ∧ err.category = .notSupported := ⟨_, rfl, rfl⟩

/-! ## Comparisons -/

/-- Whether a field can be compared with the value. -/
def isComparable : Value → Bool
  | .bool _ | .int _ | .text _ | .float _ => true
  | .null | .list _ | .object _ => false

theorem failure?_equals (key : String) (v : Value) :
    failure? (equals key v) = if isComparable v then none else some (cannotCompare key v) := by
  cases v <;> rfl

/-- The keys and values that a condition compares. -/
def comparands (c : Condition) : List (String × Value) :=
  match c.operator with
  | .eq | .neq => [(c.path.text, c.value)]
  | .contains => flatten "" (c.path.fold c.value)
  | _ => []

/-- The condition compares a field with a value that no field can be compared with. -/
def Incomparable (c : Condition) : Prop := ∃ leaf ∈ comparands c, isComparable leaf.2 = false

/-- Comparisons fail as the first one that does. -/
theorem failure?_mapM_equals (leaves : List (String × Value)) :
    failure? (leaves.mapM fun leaf => equals leaf.1 leaf.2) =
      (leaves.find? fun leaf => !isComparable leaf.2).map fun leaf =>
        cannotCompare leaf.1 leaf.2 := by
  induction leaves with
  | nil => rfl
  | cons leaf leaves ih =>
    have hleaf := failure?_equals leaf.1 leaf.2
    rw [List.mapM_cons]
    rcases he : equals leaf.1 leaf.2 with e | clause <;> rw [he] at hleaf
    · by_cases hc : isComparable leaf.2 = true
      · rw [if_pos hc] at hleaf; cases hleaf
      · rw [if_neg hc] at hleaf
        rw [List.find?_cons_of_pos (by simpa using hc)]
        exact hleaf
    · by_cases hc : isComparable leaf.2 = true
      · rw [List.find?_cons_of_neg (by simpa using hc), ← ih]
        rcases hs : leaves.mapM fun leaf => equals leaf.1 leaf.2 with e | clauses <;>
          rw [hs] <;> rfl
      · rw [if_neg hc] at hleaf; cases hleaf

theorem mem_of_failure?_mapM_equals {leaves : List (String × Value)} {e : Failure}
    (h : (leaves.mapM fun leaf => equals leaf.1 leaf.2) = .error e) :
    ∃ leaf ∈ leaves, isComparable leaf.2 = false ∧ e = cannotCompare leaf.1 leaf.2 := by
  rw [← failure?_eq_some, failure?_mapM_equals, Option.map_eq_some_iff] at h
  obtain ⟨leaf, hfind, rfl⟩ := h
  exact ⟨leaf, List.mem_of_find?_eq_some hfind, by simpa using List.find?_some hfind, rfl⟩

/-! ## Conditions -/

/-- A condition with a value that the models of the service refuse: choices that are neither all
    texts nor all integers, or a number that is beyond the doubles. -/
inductive Unmodelled (c : Condition) : Prop
  | choices {vs} : c.operator = .oneOf → choices c.value = .ok vs → areUniform vs = false →
      Unmodelled c
  | number {n} : c.operator ∈ ordering → c.value = .int n → Number.rangeEnd ≤ n.natAbs →
      Unmodelled c

/-- The clause of a comparison of numbers. -/
theorem ofCondition_ordering {c : Condition} (ho : c.operator ∈ ordering) :
    Clause.ofCondition c = (c.value.toFloat.mapError Failure.fault).map fun x =>
      .field c.path.text (.range (rangeOf c.operator x)) := by
  obtain ⟨key, path, op, v⟩ := c
  simp only [ordering, List.mem_cons, List.not_mem_nil, or_false] at ho
  rcases ho with rfl | rfl | rfl | rfl
  all_goals
    simp only [Clause.ofCondition]
    rcases v.toFloat with f | x <;> rfl

/-- The clause of a condition on choices. -/
theorem ofCondition_choices {c : Condition} {vs : List Value} (ho : c.operator = .oneOf)
    (hc : choices c.value = .ok vs) : Clause.ofCondition c =
      if areUniform vs then .ok (.field c.path.text (.any vs)) else .error (.fault .badModel) := by
  obtain ⟨key, path, op, v⟩ := c
  subst ho
  simp only [Clause.ofCondition, hc]
  rfl

/-- **Why an accepted condition is not translated.** -/
theorem ofCondition_cases {c : Condition} {b : Option Binding} {e : Failure}
    (hb : c.binding = .ok b) (h : Clause.ofCondition c = .error e) :
    (∃ leaf ∈ comparands c, isComparable leaf.2 = false ∧ e = cannotCompare leaf.1 leaf.2) ∨
      Unmodelled c ∧ (e = .fault .badModel ∨ e = .fault .intTooLarge) := by
  by_cases hn : c.operator ∈ ordering
  · right
    rw [ofCondition_ordering hn] at h
    rcases hf : c.value.toFloat with f | x <;> rw [hf] at h <;> cases h
    obtain ⟨rfl, n, hv, hrange⟩ :=
      Memory.toFloat_eq_error (Memory.requireNumber_of_binding hn hb) hf
    exact ⟨.number hn hv hrange, .inr rfl⟩
  obtain ⟨key, path, op, v⟩ := c
  have hequals {key : String} {v : Value} (he : equals key v = .error e) :
      isComparable v = false ∧ e = cannotCompare key v := by
    have hfail := failure?_equals key v
    rw [he, failure?] at hfail
    split at hfail
    · cases hfail
    · exact ⟨Bool.eq_false_iff.2 ‹_›, Option.some.inj hfail⟩
  cases op
  case gt | gte | lt | lte => exact absurd (by simp [ordering]) hn
  case present => cases h
  case like | ilike =>
    have hv : v.isWritable = true := Memory.isWritable_of_binding (by simp) hb
    simp only [Clause.ofCondition, Value.toText, if_pos hv] at h
    cases h
  case eq =>
    obtain ⟨hv, he⟩ := hequals h
    exact .inl ⟨_, List.mem_singleton_self _, hv, he⟩
  case neq =>
    simp only [Clause.ofCondition] at h
    rcases he : equals path.text v with e' | clause <;> rw [he] at h <;> cases h
    obtain ⟨hv, he⟩ := hequals he
    exact .inl ⟨_, List.mem_singleton_self _, hv, he⟩
  case oneOf =>
    rcases hc : choices v with r | vs
    · rw [Condition.binding, hc] at hb; cases hb
    · rw [ofCondition_choices rfl hc] at h
      split at h
      · cases h
      · cases h
        exact .inr ⟨.choices rfl hc (Bool.eq_false_iff.2 ‹_›), .inl rfl⟩
  case contains =>
    simp only [Clause.ofCondition] at h
    rcases hs : (flatten "" (path.fold v)).mapM (fun leaf => equals leaf.1 leaf.2) with e' | clauses
    · rw [hs] at h
      cases h
      exact .inl (mem_of_failure?_mapM_equals hs)
    · rw [hs] at h; cases h

/-- What no field can be compared with is not translated. -/
theorem Incomparable.exists_error {c : Condition} (h : Incomparable c) :
    ∃ e, Clause.ofCondition c = .error e := by
  obtain ⟨key, path, op, v⟩ := c
  obtain ⟨leaf, hleaf, hcomparable⟩ := h
  have hequals {key : String} {v : Value} (hv : isComparable v = false) :
      equals key v = .error (cannotCompare key v) := by
    rw [← failure?_eq_some, failure?_equals, hv]
    rfl
  cases op
  case eq =>
    obtain rfl := List.mem_singleton.1 hleaf
    exact ⟨_, hequals hcomparable⟩
  case neq =>
    obtain rfl := List.mem_singleton.1 hleaf
    have he : equals path.text v = .error (cannotCompare path.text v) := hequals hcomparable
    exact ⟨_, by simp only [Clause.ofCondition, he]; rfl⟩
  case contains =>
    have hfail := failure?_mapM_equals (flatten "" (path.fold v))
    rcases hfind : (flatten "" (path.fold v)).find? fun leaf => !isComparable leaf.2 with _ | bad
    · exact absurd (List.find?_eq_none.1 hfind leaf hleaf) (by simp [hcomparable])
    · rw [hfind, Option.map_some, failure?_eq_some] at hfail
      exact ⟨_, by simp only [Clause.ofCondition, hfail]; rfl⟩
  all_goals cases hleaf

/-- **What is unmodelled is not translated**, and the service is not said not to support it. -/
theorem Unmodelled.exists_error {c : Condition} (h : Unmodelled c) :
    ∃ f, Clause.ofCondition c = .error (.fault f) := by
  cases h with
  | @choices vs ho hc hu =>
    refine ⟨.badModel, ?_⟩
    rw [ofCondition_choices ho hc, hu]
    rfl
  | @number n ho hv hrange =>
    refine ⟨.intTooLarge, ?_⟩
    rw [ofCondition_ordering ho, hv, Value.toFloat, Number.ofInt?_eq_none_iff.2 hrange]
    rfl

/-! ## Filters -/

/-- The failure of the first condition that is not translated. -/
def firstFailure? (cs : List Condition) : Option Failure :=
  cs.findSome? fun c => failure? (Clause.ofCondition c)

theorem firstFailure?_append (cs ds : List Condition) :
    firstFailure? (cs ++ ds) = (firstFailure? cs).or (firstFailure? ds) :=
  List.findSome?_append

mutual

/-- **A filter fails as the first of its conditions that is not translated.** -/
theorem failure?_ofFilter : ∀ {f : Filter} {bs : List Binding}, parameters f = .ok bs →
    failure? (Clause.ofFilter f) = firstFailure? (leaves f)
  | .entries parts, bs, h => by
    rw [parameters] at h
    split at h
    · cases h
    · next hn =>
      rw [leaves, ← failure?_ofFilters h, Clause.ofFilter, if_neg hn]
      rcases Clause.ofFilters parts with e | clauses <;> rfl
  | .group .and children, bs, h | .group .or children, bs, h => by
    rw [parameters] at h
    rw [leaves, ← failure?_ofFilters h, Clause.ofFilter]
    rcases Clause.ofFilters children with e | clauses <;> rfl
  | .leaf c, bs, h => by
    rw [leaves, Clause.ofFilter, firstFailure?, List.findSome?_singleton]
  | .refused r, bs, h | .foreign v, bs, h => by rw [parameters] at h; cases h

theorem failure?_ofFilters : ∀ {filters : List Filter} {bs : List Binding},
    Filter.allParameters filters = .ok bs →
      failure? (Clause.ofFilters filters) = firstFailure? (allLeaves filters)
  | [], _, _ => rfl
  | f :: filters, bs, h => by
    obtain ⟨⟨as, hf⟩, ⟨cs, hfs⟩⟩ := Filter.allParameters_cons h
    rw [allLeaves, firstFailure?_append, ← failure?_ofFilter hf, ← failure?_ofFilters hfs,
      Clause.ofFilters]
    rcases Clause.ofFilter f with e | clause
    · rfl
    · rcases Clause.ofFilters filters with e | clauses <;> rfl

end

/-- **What a validated filter is translated to.**  A condition of it is translated just if it is
    neither incomparable nor unmodelled, and one that is not unmodelled is translated or not
    supported.  The filter is translated just if all its conditions are, and otherwise fails as the
    first that is not; without an unmodelled one, it is translated or not supported. -/
theorem ofFilter_refuses {expression : Value} (hv : validate expression = .ok ()) :
    (∀ c ∈ leaves (ofValue expression),
      ((∃ clause, Clause.ofCondition c = .ok clause) ↔ ¬Incomparable c ∧ ¬Unmodelled c) ∧
      (Documented (Clause.ofCondition c) ↔ ¬Unmodelled c)) ∧
    ((∃ clause, Clause.ofFilter (ofValue expression) = .ok clause) ↔
      ∀ c ∈ leaves (ofValue expression), ∃ clause, Clause.ofCondition c = .ok clause) ∧
    (∀ e, Clause.ofFilter (ofValue expression) = .error e ↔
      firstFailure? (leaves (ofValue expression)) = some e) ∧
    ((∀ c ∈ leaves (ofValue expression), ¬Unmodelled c) →
      Documented (Clause.ofFilter (ofValue expression))) := by
  obtain ⟨bs, hb⟩ : ∃ bs, parameters (ofValue expression) = .ok bs := by
    rw [Filter.validate_eq] at hv
    rcases hb : parameters (ofValue expression) with r | bs
    · rw [hb] at hv; cases hv
    · exact ⟨bs, rfl⟩
  have hfilter := failure?_ofFilter hb
  have hfails (e : Failure) : Clause.ofFilter (ofValue expression) = .error e ↔
      firstFailure? (leaves (ofValue expression)) = some e := by
    rw [← hfilter, failure?_eq_some]
  have hdocumented : ∀ c ∈ leaves (ofValue expression),
      ¬Unmodelled c → Documented (Clause.ofCondition c) := by
    intro c hc hnot e he
    obtain ⟨b, hcb⟩ := Filter.exists_binding hb c hc
    rcases ofCondition_cases hcb he with ⟨leaf, -, -, rfl⟩ | ⟨hu, -⟩
    · exact category_cannotCompare leaf.1 leaf.2
    · exact absurd hu hnot
  refine ⟨fun c hc => ⟨⟨?_, ?_⟩, ?_, hdocumented c hc⟩, ?_, hfails, ?_⟩
  · rintro ⟨clause, hok⟩
    refine ⟨fun hi => ?_, fun hu => ?_⟩
    · obtain ⟨e, he⟩ := hi.exists_error
      rw [hok] at he; cases he
    · obtain ⟨f, hf⟩ := hu.exists_error
      rw [hok] at hf; cases hf
  · rintro ⟨hi, hu⟩
    rcases he : Clause.ofCondition c with e | clause
    · obtain ⟨b, hcb⟩ := Filter.exists_binding hb c hc
      rcases ofCondition_cases hcb he with ⟨leaf, hleaf, hcomparable, -⟩ | ⟨hu', -⟩
      · exact absurd ⟨leaf, hleaf, hcomparable⟩ hi
      · exact absurd hu' hu
    · exact ⟨clause, rfl⟩
  · intro hd hu
    obtain ⟨f, hf⟩ := hu.exists_error
    obtain ⟨err, he, -⟩ := hd _ hf
    cases he
  · rw [← failure?_eq_none, hfilter, firstFailure?, List.findSome?_eq_none_iff]
    exact forall₂_congr fun c _ => failure?_eq_none
  · intro hnone e he
    obtain ⟨c, hc, hce⟩ := List.exists_of_findSome?_eq_some ((hfails e).1 he)
    exact hdocumented c hc (hnone c hc) e (failure?_eq_some.1 hce)

/-- A choice among texts, and a comparison with nothing: this is not supported. -/
def tagged : Value :=
  .object [("tag", .object [("operator", .text "in"), ("value", .text "sale,new")]),
    ("brand", .null)]

theorem ofFilter_refuses_tagged : validate tagged = .ok () ∧
    Clause.ofFilter (ofValue tagged) = .error (cannotCompare "brand" .null) ∧
    Documented (Clause.ofFilter (ofValue tagged)) := by
  have hv : validate tagged = .ok () := rfl
  have hl : leaves (ofValue tagged) =
      [⟨"tag", ["tag"], .oneOf, .text "sale,new"⟩, ⟨"brand", ["brand"], .eq, .null⟩] := rfl
  obtain ⟨-, -, hfails, hdocumented⟩ := ofFilter_refuses hv
  refine ⟨hv, (hfails _).2 rfl, hdocumented ?_⟩
  rw [hl]
  intro c hc hu
  obtain ⟨f, hf⟩ := hu.exists_error
  rcases List.mem_cons.1 hc with rfl | hc
  · cases hf
  · obtain rfl := List.mem_singleton.1 hc
    cases hf

/-- A choice between a text and an integer. -/
def mixed : Value :=
  .object [("a", .object [("operator", .text "in"), ("value", .list [.text "x", .int 1])])]

/-- Validated filters may fail with what is no store error: with mixed choices, with a number that
    is beyond the doubles. -/
theorem ofFilter_mixed : validate mixed = .ok () ∧
    Clause.ofFilter (ofValue mixed) = .error (.fault .badModel) ∧
    validate Memory.aboveRange = .ok () ∧
    Clause.ofFilter (ofValue Memory.aboveRange) = .error (.fault .intTooLarge) := by
  refine ⟨rfl, rfl, rfl, ?_⟩
  have hl : ofValue Memory.aboveRange =
      .entries [.leaf ⟨"a", ["a"], .gt, .int Number.rangeEnd⟩] := rfl
  have hn : Number.ofInt? Number.rangeEnd = none :=
    Number.ofInt?_eq_none_iff.2 (Nat.le_of_eq (Int.natAbs_natCast Number.rangeEnd).symm)
  have hfloat : (Value.int Number.rangeEnd).toFloat = .error .intTooLarge := by
    rw [Value.toFloat, hn]
  rw [hl, Clause.ofFilter, Clause.ofFilters, Clause.ofFilter,
    ofCondition_ordering (by simp [ordering]), hfloat]
  rfl

end VectorStore.Qdrant
