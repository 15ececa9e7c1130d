/-
  Choices, equalities and alternatives.

  * `conditionOn` and `anyOf` write a condition on one field and a list of alternatives, and
    `ofValue_conditionOn`, `ofValue_anyOf` say what is read of them;
  * `exists_extract`: paths of short ASCII segments can be followed in every document;
  * `matchAny_map`: alternatives that can be evaluated are met where one of them is;
  * `matchFilter_oneOf`: a choice is the alternative of its equalities, however its texts are
    written, and of equality and inequality just one is met where there is something else than
    null.
-/
import VectorStore.Proofs.Memory.Evaluation

namespace VectorStore

/-! ## Documents of filters -/

namespace Filter

/-- The filter document of one condition. -/
def conditionOn (key : String) (op : Operator) (v : Value) : Value :=
  .object [(key, .object [("operator", .text op.name), ("value", v)])]

/-- The filter document of alternatives. -/
def anyOf (filters : List Value) : Value := .object [(Combinator.or.name, .list filters)]

theorem ofName?_eq_none {key : String} (h : Unmarked key) : Combinator.ofName? key = none := by
  have hname : ∀ c : Combinator, c.name ≠ key := by
    rintro c rfl
    exact h '$' (by cases c <;> decide) (by decide)
  simp [Combinator.ofName?, hname]

variable {key : String} {path : Path}

/-- A condition is read on the path that its key writes. -/
theorem ofValue_conditionOn (hkey : Path.ofText key = .ok path) (op : Operator) (v : Value) :
    ofValue (conditionOn key op v) = .entries [.leaf ⟨key, path, op, v⟩] := by
  have hunmarked : Unmarked key := unmarked_of_ofText hkey
  have hhead : key.toList.head? ≠ some '$' := fun hd =>
    hunmarked '$' (List.mem_of_head? hd) (by decide)
  have hread : Condition.ofValue key (.object [("operator", .text op.name), ("value", v)]) =
      .ok ⟨key, path, op, v⟩ := by
    simp [Condition.ofValue, hhead, hkey, Condition.ofFields, Fields.get?, Fields.has,
      Fields.orNull, operatorOf?, Operator.ofName?_name, bind, Except.bind]
  rw [conditionOn, ofValue, ofFields_cons, ofEntry, ofName?_eq_none hunmarked]
  simp [ofCondition, hread, ofFields]

theorem ofItems_map (hkey : Path.ofText key = .ok path) (op : Operator) (items : List Value) :
    ofItems (items.map (conditionOn key op)) =
      items.map fun v => .entries [.leaf ⟨key, path, op, v⟩] := by
  induction items with
  | nil => rfl
  | cons v items ih => rw [List.map_cons, ofItems, ofValue_conditionOn hkey, ih, List.map_cons]

/-- Alternatives are read one by one. -/
theorem ofValue_anyOf (hkey : Path.ofText key = .ok path) (op : Operator) {items : List Value}
    (hne : items ≠ []) : ofValue (anyOf (items.map (conditionOn key op))) =
      .entries [.group .or (items.map fun v => .entries [.leaf ⟨key, path, op, v⟩])] := by
  rw [anyOf, ofValue, ofFields_cons, ofEntry, Combinator.ofName?_name]
  simp [hne, ofItems_map hkey, ofFields]

/-- Texts without commas are the choices that they are joined to. -/
theorem choices_joined {texts : List String} (hne : texts ≠ [])
    (h : ∀ s ∈ texts, ',' ∉ s.toList) :
    choices (.text (Text.joined "," texts)) = .ok (texts.map .text) := by
  have hcut : Text.pieces ',' (Text.joined (String.singleton ',') texts) = texts :=
    Text.pieces_joined hne h
  exact congrArg (fun parts => Except.ok (parts.map Value.text)) hcut

end Filter

namespace Memory

open VectorStore.Filter (Condition Path anyOf choices conditionOn ofValue)

/-! ## Paths of ASCII -/

/-- A path that goes astray has misnumbered digits in it. -/
theorem Astray.exists_isMisnumbered {path : Path} {doc : Value} (h : Astray path doc) :
    ∃ s ∈ path, isMisnumbered s = true := by
  induction h with
  | here hm => exact ⟨_, List.mem_cons_self, hm⟩
  | next _ _ ih =>
    obtain ⟨s, hs, hm⟩ := ih
    exact ⟨s, List.mem_cons_of_mem _ hs, hm⟩

/-- Digits of ASCII are misnumbered only if there are too many. -/
theorem length_of_isMisnumbered {s : String} (h : isMisnumbered s = true)
    (hascii : ∀ c ∈ s.toList, c.toNat < 128) : Number.maxIntDigits < s.length := by
  simp only [isMisnumbered, Bool.and_eq_true, Bool.or_eq_true, decide_eq_true_eq,
    List.all_eq_true, List.any_eq_true] at h
  obtain ⟨⟨-, hdigits⟩, ⟨c, hc, hnone⟩ | hlong⟩ := h
  · have hdecimal : Number.isDecimal c = true :=
      Number.isDecimal_of_isDigit (hdigits c hc) (hascii c hc)
    have hsome := Number.decimalValue?_of_isDecimal hdecimal
    simp_all
  · rwa [String.length_toList] at hlong

/-- **Paths of ASCII can be followed**, if no segment has more digits than a number may have. -/
theorem exists_extract {path : Path} (hascii : ∀ s ∈ path, ∀ c ∈ s.toList, c.toNat < 128)
    (hshort : ∀ s ∈ path, s.length ≤ Number.maxIntDigits) (doc : Value) :
    ∃ stored, extract path doc = .ok stored := by
  rcases hx : extract path doc with f | stored
  · obtain ⟨s, hs, hm⟩ := (extract_eq_error hx).1.exists_isMisnumbered
    have hlong := length_of_isMisnumbered hm (hascii s hs)
    have hle := hshort s hs
    omega
  · exact ⟨stored, rfl⟩

/-- Of the value of a choice only the choices are looked at. -/
theorem matchCondition_choice_congr {doc v v' : Value} {key : String} {path : Path}
    (h : choices v = choices v') :
    matchCondition doc ⟨key, path, .oneOf, v⟩ = matchCondition doc ⟨key, path, .oneOf, v'⟩ := by
  simp only [matchCondition, h]

/-! ## Filters -/

theorem matchFilter_singleton (doc : Value) (f : Filter) :
    matchFilter doc (.entries [f]) = matchFilter doc f := by
  rw [matchFilter, matchAll]
  rcases matchFilter doc f with e | _ | _ <;> rfl

/-- **Alternatives that can be evaluated are met where one of them is.** -/
theorem matchAny_map {α : Type} {doc : Value} {as : List α} {f : α → Filter} {p : α → Bool}
    (h : ∀ a ∈ as, matchFilter doc (f a) = .ok (p a)) :
    matchAny doc (as.map f) = .ok (as.any p) := by
  induction as with
  | nil => rfl
  | cons a as ih =>
    obtain ⟨ha, has⟩ := List.forall_mem_cons.1 h
    rw [List.map_cons, matchAny, ha, List.any_cons]
    cases p a with
    | true => rfl
    | false => exact ih has

theorem contains_map_textForm (s : String) (items : List Value) :
    (items.map Json.textForm).contains (some s) =
      items.any fun v => some s == Json.textForm v := by
  rw [← List.any_beq, List.any_map]
  rfl

/-- **A choice is the alternative of its equalities**, also where it cannot be evaluated, unless
    it is for want of a text of one of the values. -/
theorem matchCondition_choice_eq_matchAny (doc : Value) (key : String) (path : Path)
    {items : List Value} (hne : items ≠ []) :
    matchCondition doc ⟨key, path, .oneOf, .list items⟩ =
        matchAny doc (items.map fun v => .entries [.leaf ⟨key, path, .eq, v⟩]) ∨
      matchCondition doc ⟨key, path, .oneOf, .list items⟩ = .error (.fault .intTooLong) ∧
        ∃ v ∈ items, v.isWritable = false := by
  -- where the field cannot be compared the first equality fails, as the choice does
  have hfailing (f : Fault) (h : ∀ op v, op ∈ matching →
      matchCondition doc ⟨key, path, op, v⟩ = .error (.fault f)) :
      matchCondition doc ⟨key, path, .oneOf, .list items⟩ =
        matchAny doc (items.map fun v => .entries [.leaf ⟨key, path, .eq, v⟩]) := by
    obtain ⟨v, items, rfl⟩ := List.exists_cons_of_ne_nil hne
    rw [h .oneOf _ (by decide), List.map_cons, matchAny, matchFilter_singleton, matchFilter,
      h .eq v (by decide)]
    rfl
  have hother {op : Operator} (ho : op ∈ matching) : op ≠ .contains ∧ op ≠ .present := by
    revert ho
    cases op <;> decide
  rcases hx : extract path doc with f | stored
  · exact .inl (hfailing f fun op v ho => matchCondition_of_extract_eq_error (hother ho).1 hx)
  rcases ht : asText stored with f | _ | s
  · exact .inl (hfailing f fun op v ho =>
      matchCondition_of_asText_eq_error (hother ho).1 (hother ho).2 hx ht)
  · have hequal : ∀ v ∈ items, matchFilter doc (.entries [.leaf ⟨key, path, .eq, v⟩]) =
        .ok false := by
      intro v _
      rw [matchFilter_singleton, matchFilter, matchCondition_equal hx ht]
      rfl
    rw [matchAny_map (p := fun _ => false) hequal, matchCondition_choice hx ht rfl]
    simp [against]
  · by_cases hall : ∀ v ∈ items, v.isWritable = true
    · have hequal : ∀ v ∈ items, matchFilter doc (.entries [.leaf ⟨key, path, .eq, v⟩]) =
          .ok (some s == Json.textForm v) := by
        intro v hv
        rw [matchFilter_singleton, matchFilter, matchCondition_equal hx ht, asText_eq,
          if_pos (by simpa using hall v hv)]
        rfl
      have hwritable : Value.areWritable items = true := by
        rw [Value.areWritable_eq_all]
        exact List.all_eq_true.2 hall
      rw [matchAny_map hequal, matchCondition_choice hx ht rfl, mapM_asText, if_pos hwritable,
        ← contains_map_textForm]
      exact .inl rfl
    · obtain ⟨v, hv, hbare⟩ : ∃ v ∈ items, v.isWritable = false := by simpa using hall
      have hwritable : ¬Value.areWritable items = true := by
        rw [Value.areWritable_eq_all]
        exact fun h => hall (List.all_eq_true.1 h)
      rw [matchCondition_choice hx ht rfl, mapM_asText, if_neg hwritable]
      exact .inr ⟨rfl, v, hv, hbare⟩

variable {key : String} {path : Path}

theorem matchFilter_conditionOn (hkey : Path.ofText key = .ok path) (doc : Value) (op : Operator)
    (v : Value) :
    matchFilter doc (ofValue (conditionOn key op v)) = matchCondition doc ⟨key, path, op, v⟩ := by
  rw [Filter.ofValue_conditionOn hkey, matchFilter_singleton, matchFilter]

theorem exists_textForm {w : Value} (hw : w.isNull = false) : ∃ s, Json.textForm w = some s := by
  rw [← Option.isSome_iff_exists, ← Option.isNone_eq_false_iff, Json.isNone_textForm, hw]

/-- Just one of equality and inequality is met by what is not null. -/
theorem matchCondition_equal_or_unequal {doc v w : Value}
    (hx : extract path doc = .ok (some w)) (hnull : w.isNull = false)
    (hw : w.isWritable = true) (hv : v.isWritable = true) :
    ∃ b, matchCondition doc ⟨key, path, .eq, v⟩ = .ok b ∧
      matchCondition doc ⟨key, path, .neq, v⟩ = .ok (!b) := by
  obtain ⟨s, hs⟩ := exists_textForm hnull
  have ht : asText (some w) = .ok (some s) := by
    rw [asText_of_writable hw, hs]
  have hmade : asText (some v) = .ok (Json.textForm v) :=
    asText_of_writable hv
  refine ⟨some s == Json.textForm v, ?_, ?_⟩
  · rw [matchCondition_equal hx ht, hmade]
    rfl
  · rw [matchCondition_unequal hx ht, hmade]
    rfl

/-- Neither can be evaluated where one of the texts is wanting. -/
theorem matchCondition_of_not_writable {doc v w : Value} {op : Operator}
    (ho : op = .eq ∨ op = .neq) (hx : extract path doc = .ok (some w)) (hnull : w.isNull = false)
    (h : w.isWritable = false ∨ v.isWritable = false) :
    matchCondition doc ⟨key, path, op, v⟩ = .error (.fault .intTooLong) := by
  rcases h with hw | hv
  · have ht : asText (some w) = .error .intTooLong := by
      rw [asText_eq, if_neg (by simpa using hw)]
    rcases ho with rfl | rfl <;>
      exact matchCondition_of_asText_eq_error (by simp) (by simp) hx ht
  · rcases ho with rfl | rfl <;>
      exact matchCondition_of_value (b := some ⟨v, .text⟩) rfl (by simp [matching]) hx hnull hv

/-- Neither equality nor inequality is met where there is nothing but null. -/
theorem matchCondition_equal_of_isNull {doc : Value} {stored : Option Value}
    (hx : extract path doc = .ok stored) (hnull : stored.all Value.isNull = true) (v : Value) :
    matchCondition doc ⟨key, path, .eq, v⟩ = .ok false ∧
      matchCondition doc ⟨key, path, .neq, v⟩ = .ok false := by
  have ht : asText stored = .ok none := by
    rcases stored with _ | w
    · rfl
    · cases w with
      | null => rfl
      | _ => cases hnull
  constructor
  · rw [matchCondition_equal hx ht]
    rfl
  · rw [matchCondition_unequal hx ht]
    rfl

/-- Sizes of which the second is not known. -/
def measured : Value := .object [("sizes", .list [.int 41, .null])]

end Memory

end VectorStore
