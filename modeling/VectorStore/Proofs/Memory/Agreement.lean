/-
  The store in memory and the conditions that it stands for.

  A filter is evaluated on a document in memory, and compiled to a condition over a column.
  The two are compared for the operators that compare texts or ask for presence, on documents
  whose fields are `Plain`.

  * `extract_eq`: memory finds at a path what the database does;
  * `matchCondition_eq`: a condition is met where it is true, and besides where it asks a text
    to differ from null (`differsFromNull`), of which nothing is known to the database;
  * `matchFilter_selects`: so memory matches whatever is selected, and nothing more unless one
    of the conditions is of that kind.
-/
import VectorStore.Proofs.Memory.Evaluation
import VectorStore.Proofs.Postgres.Selection

namespace VectorStore.Memory

open VectorStore.Filter (Condition Formula Path choices compile holds isIdentifier leaves ofValue
  parameters validate)
open VectorStore.Postgres (BoundAs Selects argumentAt atomTruth compared comparedAny
  conditionTruth isTrue_compared isTrue_comparedAny textAt textual truthAt valueAt)

/-! ## Documents -/

/-- The path meets no list in the document, and at its end a text, a truth value, null or
    nothing. -/
def Plain : Path → Value → Prop
  | [], .text _ | [], .bool _ | [], .null => True
  | [], _ => False
  | segment :: path, .object fields =>
    ∀ v, Fields.get? fields segment = some v → Plain path v
  | _ :: _, .list _ => False
  | _ :: _, _ => True

/-- **Memory finds what the database does.** -/
theorem extract_eq : ∀ {path : Path} {doc : Value}, Plain path doc →
    extract path doc = .ok (valueAt path doc)
  | [], _, _ => rfl
  | segment :: path, .object fields, h => by
    rw [extract, step, valueAt]
    rcases hv : Fields.get? fields segment with _ | v
    · rfl
    · exact extract_eq (h v hv)
  | _ :: _, .null, _ | _ :: _, .bool _, _ | _ :: _, .int _, _ | _ :: _, .float _, _
  | _ :: _, .text _, _ => rfl

/-- What is found is compared by its text. -/
theorem asText_valueAt : ∀ {path : Path} {doc : Value}, Plain path doc →
    asText (valueAt path doc) = .ok (textAt path doc)
  | [], .text _, _ | [], .null, _ => rfl
  | [], .bool b, _ => by cases b <;> rfl
  | segment :: path, .object fields, h => by
    rw [textAt, valueAt]
    rcases hv : Fields.get? fields segment with _ | v
    · rfl
    · exact asText_valueAt (h v hv)
  | _ :: _, .null, _ | _ :: _, .bool _, _ | _ :: _, .int _, _ | _ :: _, .float _, _
  | _ :: _, .text _, _ => rfl

/-! ## Conditions -/

/-- Whether a condition asks a text of the document to differ from null. -/
def differsFromNull (doc : Value) (d : Condition) : Bool :=
  d.operator == .neq && d.value.isNull && (textAt d.path doc).isSome

theorem against_equal (a b : Option String) :
    against a (.ok b) (fun s t => some s == t) = .ok (compared (· == ·) a b).isTrue := by
  rw [isTrue_compared]
  cases a <;> cases b <;> simp [against, faulty, Except.mapError, Except.map]

/-- A text differs from null in memory; to the database it is unknown whether it does. -/
theorem against_unequal (a b : Option String) :
    against a (.ok b) (fun s t => some s != t) =
      .ok ((compared (· != ·) a b).isTrue || (b.isNone && a.isSome)) := by
  rw [isTrue_compared]
  cases a <;> cases b <;> simp [against, faulty, Except.mapError, Except.map, bne]

theorem against_among (a : Option String) (items : List (Option String)) :
    against a (.ok items) (fun s ts => ts.contains (some s)) =
      .ok (comparedAny a items).isTrue := by
  rw [isTrue_comparedAny]
  rcases a with _ | s
  · simp [against]
  · show Except.ok (items.contains (some s)) = _
    rw [← List.any_beq]
    refine congrArg Except.ok (congrArg items.any (funext fun item => ?_))
    cases item <;> simp

theorem conditionTruth_of_differsFromNull {doc : Value} {d : Condition}
    (h : differsFromNull doc d = true) : conditionTruth doc d = none := by
  obtain ⟨key, path, op, v⟩ := d
  simp only [differsFromNull, Bool.and_eq_true, beq_iff_eq] at h
  obtain ⟨⟨rfl, hn⟩, -⟩ := h
  cases v <;> cases hn
  show compared (· != ·) (textAt path doc) none = none
  cases textAt path doc <;> rfl

/-- **A condition is met where it is true, or asks a text to differ from null.** -/
theorem matchCondition_eq {doc : Value} {d : Condition} (ho : d.operator ∈ textual)
    (hx : d.takesValue = true → ∃ x, BoundAs d x) (hd : Plain d.path doc) :
    matchCondition doc d = .ok ((conditionTruth doc d).isTrue || differsFromNull doc d) := by
  have he : extract d.path doc = .ok (valueAt d.path doc) := extract_eq hd
  have ht : asText (valueAt d.path doc) = .ok (textAt d.path doc) := asText_valueAt hd
  obtain ⟨key, path, op, v⟩ := d
  cases op
  case eq =>
    obtain ⟨x, hx⟩ := hx rfl
    have hv : asText (some v) = .ok (Json.textForm v) :=
      asText_of_writable (hx.eq_textDocument (by simp)).1
    rw [matchCondition_equal he ht, hv, against_equal]
    exact congrArg Except.ok (Bool.or_false _).symm
  case neq =>
    obtain ⟨x, hx⟩ := hx rfl
    have hv : asText (some v) = .ok (Json.textForm v) :=
      asText_of_writable (hx.eq_textDocument (by simp)).1
    rw [matchCondition_unequal he ht, hv, against_unequal, Json.isNone_textForm]
    rfl
  case oneOf =>
    obtain ⟨x, hx⟩ := hx rfl
    obtain ⟨items, hi, hwritable, -⟩ := hx.eq_textDocuments rfl
    rw [matchCondition_choice he ht hi, mapM_asText, if_pos hwritable, against_among,
      conditionTruth]
    dsimp only at hi ⊢
    rw [hi]
    exact congrArg Except.ok (Bool.or_false _).symm
  case present =>
    rw [matchCondition_present, he]
    show Except.ok (valueAt path doc).isSome = Except.ok (Truth.isTrue (some _) || false)
    cases (valueAt path doc).isSome <;> rfl
  all_goals exact absurd ho (by simp [textual])

/-! ## Filters -/

/-- Whether the condition at a position asks a text of the document to differ from null. -/
def differsFromNullAt (doc : Value) (cs : List Condition) (i : Nat) : Bool :=
  cs[i]?.any (differsFromNull doc)

theorem differsFromNullAt_eq_false {doc : Value} {cs : List Condition}
    (h : ∀ d ∈ cs, differsFromNull doc d ≠ true) (i : Nat) :
    differsFromNullAt doc cs i = false := by
  rw [differsFromNullAt]
  rcases hd : cs[i]? with _ | d
  · rfl
  · exact Bool.eq_false_iff.2 (h d (List.mem_of_getElem? hd))

section

variable {expression : Value} {bs : List Filter.Binding} {params : List Postgres.Bound}
  {doc : Value}

theorem matchCondition_of_mem
    (ho : ∀ d ∈ leaves (ofValue expression), d.operator ∈ textual)
    (hp : List.Forall₂ BoundAs ((leaves (ofValue expression)).filter Condition.takesValue) params)
    (hd : ∀ d ∈ leaves (ofValue expression), Plain d.path doc) {d : Condition}
    (hm : d ∈ leaves (ofValue expression)) :
    matchCondition doc d = .ok ((conditionTruth doc d).isTrue || differsFromNull doc d) := by
  refine matchCondition_eq (ho d hm) (fun hv => ?_) (hd d hm)
  obtain ⟨i, hi⟩ := List.getElem?_of_mem hm
  obtain ⟨x, -, hx⟩ := Postgres.getElem?_parameter hp hi hv
  exact ⟨x, hx⟩

/-- **A document is matched where its conditions make the filter hold.** -/
theorem matchFilter_eq (hb : parameters (ofValue expression) = .ok bs)
    (ho : ∀ d ∈ leaves (ofValue expression), d.operator ∈ textual)
    (hp : List.Forall₂ BoundAs ((leaves (ofValue expression)).filter Condition.takesValue) params)
    (hd : ∀ d ∈ leaves (ofValue expression), Plain d.path doc) :
    matchFilter doc (ofValue expression) =
      .ok (holds (fun i => (truthAt doc (leaves (ofValue expression)) i).isTrue ||
        differsFromNullAt doc (leaves (ofValue expression)) i) 0 (ofValue expression)) := by
  refine Filter.matchFilter_eq_holds (Filter.writes_ofValue hb).whole fun i d hi => ?_
  rw [matchCondition_of_mem ho hp hd (List.mem_of_getElem? hi), Nat.zero_add, truthAt,
    differsFromNullAt, hi]
  rfl

end

/-- **Memory matches what a condition selects, and what differs from null.**  A filter of
    textual conditions that is validated, and whose values can be written, is compiled, its
    parameters can be bound, and it is evaluated on every document with plain fields.  It matches
    each document that the compiled condition selects; it matches no other one, unless some
    condition asks a text of the document to differ from null: that condition is met in memory,
    and unknown to the database. -/
theorem matchFilter_selects {expression : Value} {column : String} {fields : Fields}
    (start : Nat) (hc : isIdentifier column = true) (hv : validate expression = .ok ())
    (ho : ∀ d ∈ leaves (ofValue expression), d.operator ∈ textual)
    (hw : ∀ d ∈ leaves (ofValue expression), d.takesValue = true → d.value.isWritable = true)
    (hd : ∀ d ∈ leaves (ofValue expression), Plain d.path (.object fields)) :
    ∃ c params matched, compile expression start column = .ok c ∧
      c.bindings.mapM (fun b => Postgres.bind (some b.type) b.value) = .ok params ∧
      matchFilter (.object fields) (ofValue expression) = .ok matched ∧
      (Selects column (argumentAt start params) c.sql (.object fields) → matched = true) ∧
      (matched = true → Selects column (argumentAt start params) c.sql (.object fields) ∨
        ∃ d ∈ leaves (ofValue expression), differsFromNull (.object fields) d = true) ∧
      ∀ i d, (leaves (ofValue expression))[i]? = some d →
        differsFromNull (.object fields) d = true →
          matchCondition (.object fields) d = .ok true ∧
          atomTruth column (argumentAt start params) (.object fields)
            (Formula.read c.sql.toList) i = none := by
  obtain ⟨bs, hb⟩ : ∃ bs, parameters (ofValue expression) = .ok bs := by
    rw [Filter.validate_eq] at hv
    rcases hb : parameters (ofValue expression) with r | bs
    · rw [hb] at hv; cases hv
    · exact ⟨bs, rfl⟩
  have ho' : ∀ d ∈ (leaves (ofValue expression)).filter Condition.takesValue,
      d.operator ∈ textual := fun d hm => ho d (List.mem_filter.1 hm).1
  have hw' : ∀ d ∈ (leaves (ofValue expression)).filter Condition.takesValue,
      d.value.isWritable = true := fun d hm =>
    hw d (List.mem_filter.1 hm).1 (List.mem_filter.1 hm).2
  obtain ⟨params, hm, hp⟩ := Postgres.exists_boundAs (Filter.parameters_binds hb) ho' hw'
  have hs : Selects column (argumentAt start params) _ (.object fields) ↔ _ :=
    Postgres.selects_iff hc hb ho hp (.object fields)
  refine ⟨_, params, _, (Filter.compile_eq_ok_iff column).2 ⟨bs, hb, rfl⟩, hm,
    matchFilter_eq hb ho hp hd, ?_, ?_, ?_⟩
  · intro h
    exact Filter.holds_mono (fun i hi => by rw [hi, Bool.true_or]) (hs.1 h)
  · intro h
    by_cases hn : ∃ d ∈ leaves (ofValue expression), differsFromNull (.object fields) d = true
    · exact .inr hn
    · simp only [differsFromNullAt_eq_false (by simpa using hn), Bool.or_false] at h
      exact .inl (hs.2 h)
  · intro i d hi hn
    refine ⟨?_, ?_⟩
    · rw [matchCondition_of_mem ho hp hd (List.mem_of_getElem? hi), hn, Bool.or_true]
    · rw [Filter.Compiled.sql, Postgres.read_text hc hb, Postgres.atomTruth_formula hb ho hp,
        truthAt, hi]
      exact conditionTruth_of_differsFromNull hn

/-- Shoes of a brand, in one of two colors or unsold and of known origin. -/
def sandals : Value :=
  .object [("brand", .text "acme"), ("$or", .list [
    .object [("color", .object [("operator", .text "in"), ("value", .text "red,blue")])],
    .object [("sold", .object [("operator", .text "neq"), ("value", .bool true)]),
      ("origin.city", .object [("operator", .text "exists")])]])]

/-- The conditions of the filter over sandals. -/
def sandalsLeaves : List Condition :=
  [⟨"brand", ["brand"], .eq, .text "acme"⟩, ⟨"color", ["color"], .oneOf, .text "red,blue"⟩,
    ⟨"sold", ["sold"], .neq, .bool true⟩, ⟨"origin.city", ["origin", "city"], .present, .null⟩]

/-- Shoes that are not sold, from a place that is null. -/
def clogs : Fields :=
  [("brand", .text "acme"), ("sold", .bool false), ("origin", .object [("city", .null)])]

theorem matchFilter_selects_clogs : isIdentifier "metadata" = true ∧
    validate sandals = .ok () ∧ ∃ c params, compile sandals 2 "metadata" = .ok c ∧
      matchFilter (.object clogs) (ofValue sandals) = .ok true ∧
      Selects "metadata" (argumentAt 2 params) c.sql (.object clogs) := by
  have hc : isIdentifier "metadata" = true := by decide
  have hv : validate sandals = .ok () := rfl
  have hl : leaves (ofValue sandals) = sandalsLeaves := rfl
  have ho : ∀ d ∈ leaves (ofValue sandals), d.operator ∈ textual := by
    rw [hl]; decide
  have hw : ∀ d ∈ leaves (ofValue sandals), d.takesValue = true → d.value.isWritable = true := by
    rw [hl]
    decide
  have hd : ∀ d ∈ leaves (ofValue sandals), Plain d.path (.object clogs) := by
    rw [hl]
    simp [sandalsLeaves, clogs, Plain, Fields.get?]
  have hn : ∀ d ∈ leaves (ofValue sandals), differsFromNull (.object clogs) d = false := by
    rw [hl]; decide
  obtain ⟨c, params, matched, hcompile, -, hm, -, hs, -⟩ := matchFilter_selects 2 hc hv ho hw hd
  have ht : matchFilter (.object clogs) (ofValue sandals) = .ok true := rfl
  cases hm.symm.trans ht
  refine ⟨hc, hv, c, params, hcompile, ht, (hs rfl).resolve_right ?_⟩
  rintro ⟨d, hd, hdiffers⟩
  rw [hn d hd] at hdiffers; cases hdiffers

/-- Whatever is set and differs from null. -/
def named : Value :=
  .object [("a", .object [("operator", .text "neq"), ("value", .null)])]

/-- A document with a text is matched where null is asked to be different, and not selected. -/
theorem matchFilter_named : validate named = .ok () ∧ ∃ c params,
    compile named 1 "metadata" = .ok c ∧
    c.bindings.mapM (fun b => Postgres.bind (some b.type) b.value) = .ok params ∧
    matchFilter (.object [("a", .text "x")]) (ofValue named) = .ok true ∧
    ¬ Selects "metadata" (argumentAt 1 params) c.sql (.object [("a", .text "x")]) := by
  have hb : parameters (ofValue named) = .ok [⟨.null, .text⟩] := rfl
  have ho : ∀ d ∈ leaves (ofValue named), d.operator ∈ textual := by
    show ∀ d ∈ [Condition.mk "a" ["a"] .neq .null], d.operator ∈ textual
    decide
  have hp : List.Forall₂ BoundAs ((leaves (ofValue named)).filter Condition.takesValue)
      [.value .null] := .cons ⟨_, .neq, rfl⟩ .nil
  refine ⟨rfl, _, [.value .null], (Filter.compile_eq_ok_iff "metadata").2 ⟨_, hb, rfl⟩, rfl, rfl,
    ?_⟩
  rw [Filter.Compiled.sql, Postgres.selects_iff (by decide) hb ho hp]
  decide

end VectorStore.Memory
