/-
  What a document contains.

  * `within_object_iff`, `within_list_iff`: objects and lists are contained part by part;
  * `Inside path doc w`: the path leads to `w` through objects only, where `extract` follows it as
    well (`Inside.extract`);
  * `contains_fold_iff`: a value folded along a path is looked for there, and a text or truth value
    that is contained in what is there is also equal to it;
  * `Exact` documents have no doubles in them, and their scalars are contained in themselves only
    (`Exact.eq_of_within`);
  * `contains_preorder`: among exact documents containment is reflexive (`within_refl`) and
    transitive (`within_trans`).
-/
import VectorStore.Proofs.Memory.Evaluation
import VectorStore.Proofs.Memory.Records

namespace VectorStore.Memory

open VectorStore.Filter (Condition Path)

/-! ## Parts -/

theorem fieldsWithin_iff {wanted fields : Fields} : fieldsWithin wanted fields = true ↔
    ∀ f ∈ wanted, ∃ w, Fields.get? fields f.1 = some w ∧ within f.2 w = true := by
  induction wanted with
  | nil => simp [fieldsWithin]
  | cons f wanted ih =>
    obtain ⟨name, v⟩ := f
    rw [fieldsWithin, Bool.and_eq_true, ih, List.forall_mem_cons]
    refine and_congr_left fun _ => ?_
    cases Fields.get? fields name <;> simp

theorem itemsWithin_iff {wanted items : List Value} :
    itemsWithin wanted items = true ↔ ∀ v ∈ wanted, ∃ w ∈ items, within v w = true := by
  induction wanted with
  | nil => simp [itemsWithin]
  | cons v wanted ih =>
    rw [itemsWithin, Bool.and_eq_true, List.any_eq_true, ih, List.forall_mem_cons]

/-- Only objects contain an object. -/
theorem within_object_iff {wanted : Fields} {doc : Value} : within (.object wanted) doc = true ↔
    ∃ fields, doc = .object fields ∧
      ∀ f ∈ wanted, ∃ w, Fields.get? fields f.1 = some w ∧ within f.2 w = true := by
  cases doc <;> simp [within, fieldsWithin_iff]

/-- Only lists contain a list. -/
theorem within_list_iff {wanted : List Value} {doc : Value} : within (.list wanted) doc = true ↔
    ∃ items, doc = .list items ∧ ∀ v ∈ wanted, ∃ w ∈ items, within v w = true := by
  cases doc <;> simp [within, itemsWithin_iff]

/-! ## Values at the end of a path -/

/-- The path leads to the value through objects. -/
inductive Inside : Path → Value → Value → Prop
  | here {w} : Inside [] w w
  | next {segment path fields v w} : Fields.get? fields segment = some v → Inside path v w →
      Inside (segment :: path) (.object fields) w

/-- What is inside of a document is found there. -/
theorem Inside.extract {path : Path} {doc w : Value} (h : Inside path doc w) :
    extract path doc = .ok (some w) := by
  induction h with
  | here => rfl
  | next hv _ ih => rw [Memory.extract, step, hv]; exact ih

/-- **A folded value is contained in the documents that have, inside of objects, a value at the
    path that contains it.** -/
theorem within_fold_iff {path : Path} {v : Value} : ∀ {doc : Value},
    within (path.fold v) doc = true ↔ ∃ w, Inside path doc w ∧ within v w = true := by
  induction path with
  | nil =>
    intro doc
    constructor
    · intro h
      exact ⟨doc, .here, h⟩
    · rintro ⟨w, hw, h⟩
      cases hw
      exact h
  | cons segment path ih =>
    intro doc
    rw [Path.fold_cons, within_object_iff]
    simp only [List.forall_mem_singleton]
    constructor
    · rintro ⟨fields, rfl, u, hget, hu⟩
      obtain ⟨w, hw, h⟩ := ih.1 hu
      exact ⟨w, .next hget hw, h⟩
    · rintro ⟨w, hw, h⟩
      cases hw with
      | next hget hu => exact ⟨_, rfl, _, hget, ih.2 ⟨w, hu, h⟩⟩

/-- A text is contained in itself only. -/
theorem within_text_iff {s : String} {doc : Value} :
    within (.text s) doc = true ↔ doc = .text s := by
  cases doc <;> simp [within, Value.sameScalar]

/-- A truth value is contained in itself only, not in a number. -/
theorem within_bool_iff {b : Bool} {doc : Value} :
    within (.bool b) doc = true ↔ doc = .bool b := by
  cases doc <;> simp [within, Value.sameScalar]

/-- What a path leads to has its own text. -/
theorem Inside.matchCondition_eq {key : String} {path : Path} {doc v : Value} {s : String}
    (h : Inside path doc v) (hv : asText (some v) = .ok (some s)) :
    matchCondition doc ⟨key, path, .eq, v⟩ = .ok true := by
  rw [matchCondition_equal h.extract hv, hv]
  exact congrArg Except.ok (beq_self_eq_true (some s))

/-- **A folded value is looked for at the end of its path.**  A document contains it just if the
    path leads, through objects only, to a value that contains it; a text or a truth value is then
    that value itself, so that asking for equality finds it too. -/
theorem contains_fold_iff (doc v : Value) (path : Path) :
    (contains doc (path.fold v) = true ↔ ∃ w, Inside path doc w ∧ contains w v = true) ∧
    ((∃ s, v = .text s) ∨ (∃ b, v = .bool b) → ∀ key,
      matchCondition doc ⟨key, path, .contains, v⟩ = .ok true →
        matchCondition doc ⟨key, path, .eq, v⟩ = .ok true) := by
  refine ⟨within_fold_iff, fun hv key h => ?_⟩
  rcases hv with ⟨s, rfl⟩ | ⟨b, rfl⟩
  · have hwritable : (Value.text s).isWritable = true := rfl
    rw [matchCondition_contains, if_pos hwritable] at h
    obtain ⟨w, hinside, hw⟩ := within_fold_iff.1 (Except.ok.inj h)
    obtain rfl := within_text_iff.1 hw
    exact hinside.matchCondition_eq rfl
  · have hwritable : (Value.bool b).isWritable = true := rfl
    rw [matchCondition_contains, if_pos hwritable] at h
    obtain ⟨w, hinside, hw⟩ := within_fold_iff.1 (Except.ok.inj h)
    obtain rfl := within_bool_iff.1 hw
    exact hinside.matchCondition_eq rfl

/-- A sandal of a maker in a city. -/
def sandal : Value :=
  .object [("maker", .object [("city", .text "Rome"), ("known", .bool true)]),
    ("sizes", .list [.int 41, .int 42])]

theorem contains_fold_maker :
    (∃ w, Inside ["maker"] sandal w ∧ contains w (.object [("known", .bool true)]) = true) ∧
    matchCondition sandal ⟨"maker.city", ["maker", "city"], .contains, .text "Rome"⟩ = .ok true ∧
    matchCondition sandal ⟨"maker.city", ["maker", "city"], .eq, .text "Rome"⟩ = .ok true := by
  have hcity : matchCondition sandal ⟨"maker.city", ["maker", "city"], .contains, .text "Rome"⟩ =
      .ok true := by
    rw [matchCondition_contains]
    rfl
  exact ⟨(contains_fold_iff sandal _ ["maker"]).1.1 rfl, hcity,
    (contains_fold_iff sandal _ _).2 (.inl ⟨"Rome", rfl⟩) _ hcity⟩

/-- Equality follows a path into lists, containment does not. -/
example : matchCondition sandal ⟨"sizes.0", ["sizes", "0"], .eq, .int 41⟩ = .ok true ∧
    matchCondition sandal ⟨"sizes.0", ["sizes", "0"], .contains, .int 41⟩ = .ok false := by
  rw [matchCondition_contains]
  exact ⟨rfl, rfl⟩

/-! ## Containment among documents without doubles -/

/-- A document without doubles, no object in it having two fields of one name. -/
inductive Exact : Value → Prop
  | null : Exact .null
  | bool (b) : Exact (.bool b)
  | int (n) : Exact (.int n)
  | text (s) : Exact (.text s)
  | list {items} : (∀ v ∈ items, Exact v) → Exact (.list items)
  | object {fields} : (Fields.keys fields).Nodup → (∀ f ∈ fields, Exact f.2) →
      Exact (.object fields)

/-- Whether a value has no parts. -/
def isScalar : Value → Bool
  | .list _ | .object _ => false
  | _ => true

/-- **Scalars are contained in themselves only.**  Without doubles no two of them are the same
    number. -/
theorem Exact.eq_of_within {v doc : Value} (hv : Exact v) (hscalar : isScalar v = true)
    (hdoc : Exact doc) (h : within v doc = true) : doc = v := by
  cases hv <;> cases hdoc <;> simp_all [isScalar, within, Value.sameScalar]

/-- Every exact document contains itself. -/
theorem within_refl {a : Value} (ha : Exact a) : within a a = true := by
  induction ha with
  | list _ ih => exact within_list_iff.2 ⟨_, rfl, fun v hv => ⟨v, hv, ih v hv⟩⟩
  | object hnodup _ ih =>
    exact within_object_iff.2 ⟨_, rfl, fun f hf => ⟨f.2, Fields.get?_of_mem hnodup hf, ih f hf⟩⟩
  | _ => simp [within, Value.sameScalar]

/-- What is contained in a part of a document is contained in the document's counterpart of it. -/
theorem within_trans {a b c : Value} (ha : Exact a) (hb : Exact b) (hc : Exact c)
    (hcb : within c b = true) (hba : within b a = true) : within c a = true := by
  -- each part of `c` is found in `b`, and what is found there has its counterpart in `a`
  induction hc generalizing a b with
  | list _ ih =>
    obtain ⟨bs, rfl, hfound⟩ := within_list_iff.1 hcb
    obtain ⟨as, rfl, hfound'⟩ := within_list_iff.1 hba
    cases ha with | list has =>
    cases hb with | list hbs =>
    refine within_list_iff.2 ⟨as, rfl, fun v hv => ?_⟩
    obtain ⟨w, hw, hvw⟩ := hfound v hv
    obtain ⟨u, hu, hwu⟩ := hfound' w hw
    exact ⟨u, hu, ih v hv (has u hu) (hbs w hw) hvw hwu⟩
  | object _ _ ih =>
    obtain ⟨bs, rfl, hfound⟩ := within_object_iff.1 hcb
    obtain ⟨as, rfl, hfound'⟩ := within_object_iff.1 hba
    cases ha with | object _ has =>
    cases hb with | object _ hbs =>
    refine within_object_iff.2 ⟨as, rfl, fun f hf => ?_⟩
    obtain ⟨w, hw, hvw⟩ := hfound f hf
    have hmem : (f.1, w) ∈ bs := Fields.mem_of_get? hw
    obtain ⟨u, hu, hwu⟩ := hfound' (f.1, w) hmem
    exact ⟨u, hu, ih f hf (has _ (Fields.mem_of_get? hu)) (hbs _ hmem) hvw hwu⟩
  | _ =>
    -- a scalar: `b` is the same one
    obtain rfl := Exact.eq_of_within (by constructor) rfl hb hcb
    exact hba

/-- **Containment is a preorder.** -/
theorem contains_preorder :
    (∀ a, Exact a → contains a a = true) ∧
    ∀ a b c, Exact a → Exact b → Exact c →
      contains a b = true → contains b c = true → contains a c = true := by
  refine ⟨fun a ha => within_refl ha, fun a b c ha hb hc hab hbc => ?_⟩
  exact within_trans ha hb hc hbc hab

/-- What is asked of a shoe: a size, twice, and a maker. -/
def wish : Value :=
  .object [("sizes", .list [.int 42, .int 42]), ("maker", .object [("known", .bool true)])]

theorem contains_preorder_sandal : Exact sandal ∧ Exact wish ∧
    contains wish (.object [("sizes", .list [.int 42])]) = true ∧
    contains sandal (.object [("sizes", .list [.int 42])]) = true := by
  have hsandal : Exact sandal := by
    refine .object (by decide) ?_
    simp only [List.forall_mem_cons, List.not_mem_nil, false_imp_iff, implies_true, and_true]
    refine ⟨.object (by decide) ?_, .list ?_⟩
    · simp [Exact.text, Exact.bool]
    · simp [Exact.int]
  have hsize : Exact (.object [("sizes", .list [.int 42])]) := by
    refine .object (by decide) ?_
    simp only [List.forall_mem_singleton]
    exact .list (by simp [Exact.int])
  have hwish : Exact wish := by
    refine .object (by decide) ?_
    simp only [List.forall_mem_cons, List.not_mem_nil, false_imp_iff, implies_true, and_true]
    exact ⟨.list (by simp [Exact.int]), .object (by decide) (by simp [Exact.bool])⟩
  have hasked : contains wish (.object [("sizes", .list [.int 42])]) = true := by decide
  have hmade : contains sandal wish = true := by decide
  exact ⟨hsandal, hwish, hasked, contains_preorder.2 _ wish _ hsandal hwish hsize hmade hasked⟩

end VectorStore.Memory
