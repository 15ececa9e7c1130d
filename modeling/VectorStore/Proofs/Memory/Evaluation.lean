/-
  Whether a filter can be evaluated.

  A filter that is validated may fail on a document still, for three reasons only: a list is met
  with digits that give no position, a number is compared that is beyond the doubles, or a text is
  needed of an integer that has too many digits for one.

  * `position?_eq_error_iff`: digits give no position just if they are misnumbered;
  * `Astray` paths are those that cannot be followed (`extract_eq_error`,
    `Astray.exists_error`);
  * `asText_eq`: what can be written has its text form; `matchCondition_equal` and its siblings:
    what each operator compares;
  * conditions fail just on the documents that they baffle (`matchCondition_eq_error`,
    `Baffles.exists_error`);
  * `matchFilter_evaluated`: a validated filter is evaluated on all documents that baffle none of
    its conditions, and fails only with one of them.
-/
import VectorStore.Memory.Match
import VectorStore.Proofs.Json.Documents
import VectorStore.Proofs.Numbers
import VectorStore.Proofs.Postgres.Acceptance

namespace VectorStore

namespace Filter

mutual

/-- The conditions of an accepted filter bind their parameters, if they take one. -/
theorem exists_binding : ∀ {f : Filter} {bs : List Binding}, parameters f = .ok bs →
    ∀ c ∈ leaves f, ∃ b, c.binding = .ok b
  | .entries parts, bs, h => by
    rw [parameters] at h
    split at h
    · cases h
    · exact exists_bindings h
  | .group k children, bs, h => exists_bindings (by simpa [parameters] using h)
  | .leaf d, bs, h => by
    intro c hc
    obtain rfl : c = d := by simpa [leaves] using hc
    rw [parameters] at h
    rcases hb : c.binding with r | b
    · rw [hb] at h; cases h
    · exact ⟨b, rfl⟩
  | .refused r, bs, h => by rw [parameters] at h; cases h
  | .foreign v, bs, h => by rw [parameters] at h; cases h

theorem exists_bindings : ∀ {filters : List Filter} {bs : List Binding},
    allParameters filters = .ok bs → ∀ c ∈ allLeaves filters, ∃ b, c.binding = .ok b
  | [], _, _ => by simp [allLeaves]
  | f :: filters, bs, h => by
    obtain ⟨⟨as, hf⟩, ⟨cs, hfs⟩⟩ := allParameters_cons h
    intro c hc
    rw [allLeaves, List.mem_append] at hc
    rcases hc with hc | hc
    · exact exists_binding hf c hc
    · exact exists_bindings hfs c hc

end

end Filter

namespace Memory

open VectorStore.Filter (Binding Condition Path choices leaves ofValue parameters validate)

/-! ## Positions -/

/-- Digits that give no position: one of them is not decimal, or there are too many. -/
def isMisnumbered (segment : String) : Bool :=
  let cs := segment.toList
  !cs.isEmpty && cs.all Text.isDigit &&
    (cs.any (fun c => (Text.decimalValue? c).isNone) || decide (Number.maxIntDigits < cs.length))

/-- **Only digits that are misnumbered give no position.** -/
theorem position?_eq_error_iff {segment : String} {length : Nat} :
    (∃ f, position? segment length = .error f) ↔ isMisnumbered segment = true := by
  unfold position? isMisnumbered
  by_cases hd : segment.toList ≠ [] ∧ ∀ c ∈ segment.toList, Text.isDigit c = true
  · obtain ⟨hne, hall⟩ := hd
    have hread := Number.exists_readInt_iff hne hall
    have he : segment.toList.isEmpty = false := by simpa using hne
    have ha : segment.toList.all Text.isDigit = true := List.all_eq_true.2 hall
    simp only [he, ha, Bool.not_true, Bool.or_self, Bool.false_eq_true, if_false, Bool.not_false,
      Bool.true_and, Bool.or_eq_true, List.any_eq_true, decide_eq_true_eq]
    rcases hr : Number.readInt segment with r | n
    · rw [hr] at hread
      refine iff_of_true ⟨_, rfl⟩ ?_
      by_contra hnot
      obtain ⟨hsome, hshort⟩ := not_or.1 hnot
      have hdecimal : ∀ c ∈ segment.toList, (Text.decimalValue? c).isSome = true := by
        intro c hc
        by_contra hc'
        exact hsome ⟨c, hc, by simpa using hc'⟩
      obtain ⟨n, hn⟩ := hread.2 ⟨hdecimal, Nat.le_of_not_lt hshort⟩
      cases hn
    · obtain ⟨hdecimal, hlength⟩ := hread.1 ⟨n, hr⟩
      refine iff_of_false (by rintro ⟨f, hf⟩; cases hf) ?_
      rintro (⟨c, hc, hnone⟩ | hlong)
      · have := hdecimal c hc
        simp_all
      · omega
  · have hb : (segment.toList.isEmpty || !segment.toList.all Text.isDigit) = true := by
      simpa [or_iff_not_imp_left] using hd
    rw [if_pos hb]
    refine iff_of_false (by rintro ⟨f, hf⟩; cases hf) ?_
    intro hm
    rw [Bool.and_eq_true, Bool.and_eq_true] at hm
    rw [hm.1.2] at hb
    rw [Bool.not_eq_true'] at hm
    rw [hm.1.1] at hb
    cases hb

/-- A position is refused with a fault about the value of a text. -/
theorem label_of_position?_eq_error {segment : String} {length : Nat} {f : Fault}
    (h : position? segment length = .error f) : f.label = "ValueError" := by
  unfold position? at h
  simp only at h
  split at h
  · cases h
  · rcases hr : Number.readInt segment with r | n
    · rw [hr] at h
      cases h
      cases r <;> rfl
    · rw [hr] at h; cases h

/-! ## Paths -/

/-- A path that meets a list with digits that give no position. -/
inductive Astray : Path → Value → Prop
  | here {segment path items} : isMisnumbered segment = true →
      Astray (segment :: path) (.list items)
  | next {segment path v w} : step segment v = .ok (some w) → Astray path w →
      Astray (segment :: path) v

theorem step_list {segment : String} {items : List Value} : step segment (.list items) =
    (position? segment items.length).map fun i => i.bind (items[·]?) := by
  rw [step]
  rcases position? segment items.length with f | _ | i <;> rfl

theorem step_eq_error {segment : String} {v : Value} {f : Fault} (h : step segment v = .error f) :
    (∃ items, v = .list items) ∧ isMisnumbered segment = true ∧ f.label = "ValueError" := by
  cases v with
  | list items =>
    rw [step_list] at h
    rcases hp : position? segment items.length with g | i
    · rw [hp] at h
      cases h
      exact ⟨⟨items, rfl⟩, position?_eq_error_iff.1 ⟨_, hp⟩, label_of_position?_eq_error hp⟩
    · rw [hp] at h; cases h
  | _ => cases h

/-- **A path that cannot be followed goes astray.** -/
theorem extract_eq_error {path : Path} : ∀ {doc : Value} {f : Fault},
    extract path doc = .error f → Astray path doc ∧ f.label = "ValueError" := by
  induction path with
  | nil => intro doc f h; cases h
  | cons segment path ih =>
    intro doc f h
    rw [extract] at h
    rcases hs : step segment doc with g | _ | w
    · obtain ⟨⟨items, rfl⟩, hm, hl⟩ := step_eq_error hs
      rw [hs] at h
      cases h
      exact ⟨.here hm, hl⟩
    · rw [hs] at h; cases h
    · rw [hs] at h
      obtain ⟨ha, hl⟩ := ih h
      exact ⟨.next hs ha, hl⟩

/-- **A path that goes astray cannot be followed.** -/
theorem Astray.exists_error {path : Path} {doc : Value} (h : Astray path doc) :
    ∃ f, extract path doc = .error f := by
  induction h with
  | @here segment path items hm =>
    obtain ⟨f, hf⟩ := position?_eq_error_iff.2 hm
    exact ⟨f, by rw [extract, step_list, hf]; rfl⟩
  | @next segment path v w hs _ ih =>
    obtain ⟨f, hf⟩ := ih
    exact ⟨f, by rw [extract, hs]; exact hf⟩

/-! ## Texts -/

/-- **What is found has its text form**, if it can be written. -/
theorem asText_eq (stored : Option Value) : asText stored =
    if stored.all Value.isWritable then .ok (stored.bind Json.textForm) else .error .intTooLong := by
  rcases stored with _ | v
  · rfl
  · cases v with
    | null => rfl
    | text s => rfl
    | bool b => cases b <;> rfl
    | int n => exact Json.encode_textForm (v := .int n) rfl
    | float x => exact Json.encode_textForm (v := .float x) rfl
    | list items => exact Json.encode_textForm (v := .list items) rfl
    | object fields => exact Json.encode_textForm (v := .object fields) rfl

theorem asText_of_writable {v : Value} (h : v.isWritable = true) :
    asText (some v) = .ok (Json.textForm v) := by
  rw [asText_eq, if_pos (by exact h)]
  rfl

theorem wildcards_eq (v : Value) : wildcards v =
    if v.isWritable then .ok ("%" ++ v.plain ++ "%") else .error .intTooLong := by
  rw [wildcards, Value.toText]
  split <;> rfl

/-- A folded value is read back with the fields of one name put together in the value. -/
theorem merged_fold (path : Path) (v : Value) :
    Json.merged (path.fold v) = path.fold (Json.merged v) := by
  induction path with
  | nil => rfl
  | cons segment path ih =>
    rw [Path.fold_cons, Path.fold_cons, Json.merged, Json.mergedFields, Json.mergedFields, ih]
    rfl

theorem patternOf_eq (path : Path) (v : Value) : patternOf (path.fold v) =
    if v.isWritable then .ok (path.fold (Json.merged v)) else .error .intTooLong := by
  have h := Json.decode_encode (path.fold v)
  rw [Filter.Path.isWritable_fold, merged_fold] at h
  exact h

/-! ## Comparisons -/

/-- A stored text compared with what is made of a value, which is made only if there is a text. -/
def against {α : Type} (text : Option String) (made : Except Fault α) (p : String → α → Bool) :
    Except Failure Bool :=
  match text with
  | none => .ok false
  | some s => (faulty made).map (p s)

section

variable {doc v : Value} {items : List Value} {key : String} {path : Path} {stored : Option Value}
  {text : Option String} {f : Fault} {c : Condition}

theorem matchCondition_present : matchCondition doc ⟨key, path, .present, v⟩ =
    (faulty (extract path doc)).map Option.isSome := by
  rw [matchCondition]
  cases extract path doc <;> rfl

theorem matchCondition_contains : matchCondition doc ⟨key, path, .contains, v⟩ =
    if v.isWritable then .ok (contains doc (path.fold (Json.merged v)))
    else .error (.fault .intTooLong) := by
  rw [matchCondition]
  dsimp only
  rw [patternOf_eq]
  split <;> rfl

theorem matchCondition_equal (hx : extract path doc = .ok stored) (ht : asText stored = .ok text) :
    matchCondition doc ⟨key, path, .eq, v⟩ =
      against text (asText (some v)) fun s t => some s == t := by
  rw [matchCondition, hx]
  show (faulty (asText stored) >>= _) = _
  rw [ht]
  rcases text with _ | s
  · rfl
  · rw [against]
    cases asText (some v) <;> rfl

theorem matchCondition_unequal (hx : extract path doc = .ok stored)
    (ht : asText stored = .ok text) :
    matchCondition doc ⟨key, path, .neq, v⟩ =
      against text (asText (some v)) fun s t => some s != t := by
  rw [matchCondition, hx]
  show (faulty (asText stored) >>= _) = _
  rw [ht]
  rcases text with _ | s
  · rfl
  · rw [against]
    cases asText (some v) <;> rfl

theorem matchCondition_choice (hx : extract path doc = .ok stored) (ht : asText stored = .ok text)
    (hv : choices v = .ok items) :
    matchCondition doc ⟨key, path, .oneOf, v⟩ =
      against text (items.mapM fun v => asText (some v)) fun s ts => ts.contains (some s) := by
  rw [matchCondition, hx]
  show (faulty (asText stored) >>= _) = _
  rw [ht]
  rcases text with _ | s
  · rfl
  · show ((choices v).mapError Filter.Refusal.failure >>= _) = _
    rw [hv, against]
    show (faulty (items.mapM _) >>= _) = _
    cases items.mapM fun v => asText (some v) <;> rfl

theorem matchCondition_like (hx : extract path doc = .ok stored) (ht : asText stored = .ok text) :
    matchCondition doc ⟨key, path, .like, v⟩ =
      (faulty (wildcards v)).map fun p => text.any fun s => isLike s p := by
  rw [matchCondition, hx]
  show (faulty (asText stored) >>= _) = _
  rw [ht]
  show (faulty (wildcards v) >>= _) = _
  cases wildcards v <;> rfl

theorem matchCondition_ilike (hx : extract path doc = .ok stored) (ht : asText stored = .ok text) :
    matchCondition doc ⟨key, path, .ilike, v⟩ =
      (faulty (wildcards v)).map fun p => text.any fun s => isLikeFolded s p := by
  rw [matchCondition, hx]
  show (faulty (asText stored) >>= _) = _
  rw [ht]
  show (faulty (wildcards v) >>= _) = _
  cases wildcards v <;> rfl

/-- The operators that compare numbers. -/
def ordering : List Operator := [.gt, .gte, .lt, .lte]

/-- A condition on a number, its field being found. -/
theorem matchCondition_ordering (ho : c.operator ∈ ordering) (hx : extract c.path doc = .ok stored)
    (ht : asText stored = .ok text) : matchCondition doc c =
      (faulty c.value.toFloat).map fun right =>
        (text.bind Number.readFloat?).any (compareNumbers c.operator · right) := by
  have hn : asNumber stored = .ok (text.bind Number.readFloat?) := by rw [asNumber, ht]; rfl
  generalize text.bind Number.readFloat? = left at hn ⊢
  obtain ⟨key, path, op, v⟩ := c
  simp only [ordering, List.mem_cons, List.not_mem_nil, or_false] at ho
  rcases ho with rfl | rfl | rfl | rfl
  all_goals
    rw [matchCondition, hx]
    show (faulty (asText stored) >>= _) = _
    rw [ht]
    show (faulty (asNumber stored) >>= _) = _
    rw [hn]
    show (faulty v.toFloat >>= _) = _
    rcases v.toFloat with f | right
    · rfl
    · cases left <;> rfl

/-- A condition that looks for its field fails where the path does. -/
theorem matchCondition_of_extract_eq_error (ho : c.operator ≠ .contains)
    (hx : extract c.path doc = .error f) : matchCondition doc c = .error (.fault f) := by
  obtain ⟨key, path, op, v⟩ := c
  cases op
  case contains => exact absurd rfl ho
  all_goals
    rw [matchCondition, hx]
    rfl

/-- A condition that compares its field fails where the field has no text. -/
theorem matchCondition_of_asText_eq_error (ho : c.operator ≠ .contains)
    (hp : c.operator ≠ .present) (hx : extract c.path doc = .ok stored)
    (ht : asText stored = .error f) : matchCondition doc c = .error (.fault f) := by
  obtain ⟨key, path, op, v⟩ := c
  cases op
  case contains => exact absurd rfl ho
  case present => exact absurd rfl hp
  all_goals
    rw [matchCondition, hx]
    show (faulty (asText stored) >>= _) = _
    rw [ht]
    rfl

end

/-! ## Conditions -/

/-- The operators that make a text of their value for a field that has one. -/
def matching : List Operator := [.eq, .neq, .oneOf]

/-- A condition that cannot be evaluated on a document: its path goes astray, it compares with an
    integer that is beyond the doubles, or there is no text of what is found, or of the value that
    this is compared with. -/
inductive Baffles (doc : Value) (c : Condition) : Prop
  | path : c.operator ≠ .contains → Astray c.path doc → Baffles doc c
  | number {n} : c.operator ∈ ordering → c.value = .int n → Number.rangeEnd ≤ n.natAbs →
      Baffles doc c
  | stored {w} : c.operator ≠ .contains → c.operator ≠ .present →
      extract c.path doc = .ok (some w) → w.isWritable = false → Baffles doc c
  | value {w} : c.operator ∈ matching → extract c.path doc = .ok (some w) → w.isNull = false →
      c.value.isWritable = false → Baffles doc c

/-- What an accepted number fails to be a double for. -/
theorem toFloat_eq_error {path : Path} {v : Value} {f : Fault}
    (h : Filter.requireNumber path v = .ok ()) (hf : v.toFloat = .error f) :
    f = .intTooLarge ∧ ∃ n, v = .int n ∧ Number.rangeEnd ≤ n.natAbs := by
  cases v with
  | int n =>
    rw [Value.toFloat] at hf
    rcases hn : Number.ofInt? n with _ | x
    · rw [hn] at hf
      cases hf
      exact ⟨rfl, n, rfl, Number.ofInt?_eq_none_iff.1 hn⟩
    · rw [hn] at hf; cases hf
  | float x => cases hf
  | text s =>
    rw [Filter.requireNumber] at h
    rw [Value.toFloat] at hf
    rcases hn : Number.readFloat? s with _ | x
    · rw [hn] at h; cases h
    · rw [hn] at hf; cases hf
  | _ => cases h

/-- The labels of the faults of an evaluation. -/
def faultLabels : List String := ["ValueError", "OverflowError"]

/-- An accepted condition compares with a number, or with text that denotes one. -/
theorem requireNumber_of_binding {c : Condition} {b : Option Binding} (ho : c.operator ∈ ordering)
    (hb : c.binding = .ok b) : Filter.requireNumber c.path c.value = .ok () := by
  obtain ⟨key, path, op, v⟩ := c
  rcases hn : Filter.requireNumber path v with r | _
  · simp only [ordering, List.mem_cons, List.not_mem_nil, or_false] at ho
    rcases ho with rfl | rfl | rfl | rfl <;> simp only [Condition.binding, hn] at hb <;> cases hb
  · rfl

/-- An accepted condition that matches a pattern or asks for containment can write its value. -/
theorem isWritable_of_binding {c : Condition} {b : Option Binding}
    (ho : c.operator ∈ [.like, .ilike, .contains]) (hb : c.binding = .ok b) :
    c.value.isWritable = true := by
  obtain ⟨key, path, op, v⟩ := c
  simp only [List.mem_cons, List.not_mem_nil, or_false] at ho
  by_contra hv
  rcases ho with rfl | rfl | rfl
  · rw [Condition.binding, Filter.likePattern_eq, if_neg hv] at hb
    cases hb
  · rw [Condition.binding, Filter.likePattern_eq, if_neg hv] at hb
    cases hb
  · rw [Condition.binding, Filter.encode_fold, if_neg hv] at hb
    cases hb

/-- There are texts of the choices of a value that can be written. -/
theorem mapM_asText (items : List Value) : (items.mapM fun v => asText (some v)) =
    if Value.areWritable items then .ok (items.map Json.textForm) else .error .intTooLong := by
  rw [Value.areWritable_eq_all]
  exact mapM_checked (fun v => asText_eq (some v)) items

/-- What has no text is something that was found. -/
theorem exists_of_asText_eq_error {stored : Option Value} {f : Fault}
    (h : asText stored = .error f) :
    f = .intTooLong ∧ ∃ w, stored = some w ∧ w.isWritable = false := by
  rw [asText_eq] at h
  split at h
  · cases h
  · next hw =>
    cases h
    rcases stored with _ | w
    · exact absurd rfl hw
    · exact ⟨rfl, w, rfl, Bool.eq_false_iff.2 hw⟩

/-- A text is that of something else than null. -/
theorem exists_of_asText_eq_some {stored : Option Value} {s : String}
    (h : asText stored = .ok (some s)) : ∃ w, stored = some w ∧ w.isNull = false := by
  rcases stored with _ | w
  · cases h
  · refine ⟨w, rfl, ?_⟩
    cases w with
    | null => cases h
    | _ => rfl

/-- A comparison of a text with what is made of a value fails as the making does. -/
theorem against_eq_error {α : Type} {text : Option String} {made : Except Fault α}
    {p : String → α → Bool} {e : Failure} (h : against text made p = .error e) :
    ∃ s f, text = some s ∧ made = .error f ∧ e = .fault f := by
  rcases text with _ | s
  · cases h
  · rcases made with f | a
    · cases h
      exact ⟨s, f, rfl, rfl, rfl⟩
    · cases h

/-- What evaluating an accepted condition can fail with: a fault, and only if the condition
    baffles. -/
theorem matchCondition_eq_error {doc : Value} {c : Condition} {b : Option Binding} {e : Failure}
    (hb : c.binding = .ok b) (h : matchCondition doc c = .error e) :
    Baffles doc c ∧ ∃ f, e = .fault f ∧ f.label ∈ faultLabels := by
  by_cases ho : c.operator = .contains
  · have hv : c.value.isWritable = true := isWritable_of_binding (by simp [ho]) hb
    obtain ⟨key, path, op, v⟩ := c
    obtain rfl : op = .contains := ho
    rw [matchCondition_contains, if_pos hv] at h
    cases h
  rcases hx : extract c.path doc with f | stored
  · obtain ⟨ha, hl⟩ := extract_eq_error hx
    rw [matchCondition_of_extract_eq_error ho hx] at h
    cases h
    exact ⟨.path ho ha, f, rfl, by simp [faultLabels, hl]⟩
  by_cases hp : c.operator = .present
  · obtain ⟨key, path, op, v⟩ := c
    obtain rfl : op = .present := hp
    rw [matchCondition_present, hx] at h
    cases h
  rcases ht : asText stored with f | text
  · obtain ⟨rfl, w, rfl, hw⟩ := exists_of_asText_eq_error ht
    rw [matchCondition_of_asText_eq_error ho hp hx ht] at h
    cases h
    exact ⟨.stored ho hp hx hw, _, rfl, by decide⟩
  by_cases hn : c.operator ∈ ordering
  · rw [matchCondition_ordering hn hx ht] at h
    rcases hf : c.value.toFloat with f | right
    · obtain ⟨rfl, n, hv, hrange⟩ := toFloat_eq_error (requireNumber_of_binding hn hb) hf
      rw [hf] at h
      cases h
      exact ⟨.number hn hv hrange, _, rfl, by decide⟩
    · rw [hf] at h; cases h
  -- what is left makes a text of its value: for a pattern it can, otherwise it may not
  have hvalue {s : String} {f : Fault} (hm : c.operator ∈ matching) (hs : text = some s)
      (hv : c.value.isWritable = false) (hf : f = .intTooLong) :
      Baffles doc c ∧ ∃ f', Failure.fault f = .fault f' ∧ f'.label ∈ faultLabels := by
    obtain ⟨w, rfl, hw⟩ := exists_of_asText_eq_some (hs ▸ ht)
    exact ⟨.value hm hx hw hv, f, rfl, by rw [hf]; decide⟩
  obtain ⟨key, path, op, v⟩ := c
  cases op
  case contains => exact absurd rfl ho
  case present => exact absurd rfl hp
  case gt | gte | lt | lte => exact absurd (by simp [ordering]) hn
  case like =>
    have hv : v.isWritable = true := isWritable_of_binding (by simp) hb
    rw [matchCondition_like hx ht, wildcards_eq, if_pos hv] at h
    cases h
  case ilike =>
    have hv : v.isWritable = true := isWritable_of_binding (by simp) hb
    rw [matchCondition_ilike hx ht, wildcards_eq, if_pos hv] at h
    cases h
  case eq =>
    rw [matchCondition_equal hx ht] at h
    obtain ⟨s, f, hs, hf, rfl⟩ := against_eq_error h
    obtain ⟨hlong, w, hw, hv⟩ := exists_of_asText_eq_error hf
    cases hw
    exact hvalue (by simp [matching]) hs hv hlong
  case neq =>
    rw [matchCondition_unequal hx ht] at h
    obtain ⟨s, f, hs, hf, rfl⟩ := against_eq_error h
    obtain ⟨hlong, w, hw, hv⟩ := exists_of_asText_eq_error hf
    cases hw
    exact hvalue (by simp [matching]) hs hv hlong
  case oneOf =>
    rcases hc : choices v with r | items
    · rw [Condition.binding] at hb
      dsimp only at hb
      rw [hc] at hb
      cases hb
    · rw [matchCondition_choice hx ht hc] at h
      obtain ⟨s, f, hs, hf, rfl⟩ := against_eq_error h
      rw [mapM_asText] at hf
      split at hf
      · cases hf
      · next hv =>
        cases hf
        rw [Filter.areWritable_choices hc] at hv
        exact hvalue (by simp [matching]) hs (Bool.eq_false_iff.2 hv) rfl

/-- A condition whose path goes astray cannot be evaluated. -/
theorem Astray.matchCondition {doc : Value} {c : Condition} (ho : c.operator ≠ .contains)
    (h : Astray c.path doc) : ∃ e, matchCondition doc c = .error e := by
  obtain ⟨f, hf⟩ := h.exists_error
  exact ⟨.fault f, matchCondition_of_extract_eq_error ho hf⟩

/-- A condition that makes a text of its value cannot be evaluated where there is none. -/
theorem matchCondition_of_value {doc w : Value} {c : Condition} {b : Option Binding}
    (hb : c.binding = .ok b) (ho : c.operator ∈ matching) (hx : extract c.path doc = .ok (some w))
    (hw : w.isNull = false) (hv : c.value.isWritable = false) :
    matchCondition doc c = .error (.fault .intTooLong) := by
  have hother : c.operator ≠ .contains ∧ c.operator ≠ .present := by
    revert ho
    cases c.operator <;> decide
  obtain ⟨key, path, op, v⟩ := c
  have hbare : asText (some v) = .error .intTooLong := by
    rw [asText_eq, if_neg (by simpa using hv)]
  rcases ht : asText (some w) with f | text
  · obtain ⟨rfl, -⟩ := exists_of_asText_eq_error ht
    exact matchCondition_of_asText_eq_error hother.1 hother.2 hx ht
  obtain ⟨s, rfl⟩ : ∃ s, text = some s := by
    rw [asText_eq] at ht
    split at ht
    · cases ht
      rw [← Option.isSome_iff_exists, Option.bind_some, ← Option.isNone_eq_false_iff,
        Json.isNone_textForm, hw]
    · cases ht
  simp only [matching, List.mem_cons, List.not_mem_nil, or_false] at ho
  rcases ho with rfl | rfl | rfl
  · rw [matchCondition_equal hx ht, hbare]
    rfl
  · rw [matchCondition_unequal hx ht, hbare]
    rfl
  · rcases hc : choices v with r | items
    · rw [Condition.binding] at hb
      dsimp only at hb
      rw [hc] at hb
      cases hb
    · rw [matchCondition_choice hx ht hc, mapM_asText, Filter.areWritable_choices hc,
        if_neg (by simpa using hv)]
      rfl

/-- **A condition that baffles cannot be evaluated.** -/
theorem Baffles.exists_error {doc : Value} {c : Condition} {b : Option Binding}
    (hb : c.binding = .ok b) (h : Baffles doc c) : ∃ e, matchCondition doc c = .error e := by
  cases h with
  | path ho ha => exact ha.matchCondition ho
  | @number n ho hv hrange =>
    have hother : c.operator ≠ .contains ∧ c.operator ≠ .present := by
      revert ho
      cases c.operator <;> decide
    rcases hx : extract c.path doc with f | stored
    · exact (extract_eq_error hx).1.matchCondition hother.1
    rcases ht : asText stored with f | text
    · exact ⟨_, matchCondition_of_asText_eq_error hother.1 hother.2 hx ht⟩
    · refine ⟨.fault .intTooLarge, ?_⟩
      rw [matchCondition_ordering ho hx ht, hv, Value.toFloat, Number.ofInt?_eq_none_iff.2 hrange]
      rfl
  | @stored w ho hp hx hw =>
    have ht : asText (some w) = .error .intTooLong := by
      rw [asText_eq, if_neg (by simpa using hw)]
    exact ⟨_, matchCondition_of_asText_eq_error ho hp hx ht⟩
  | value ho hx hw hv => exact ⟨_, matchCondition_of_value hb ho hx hw hv⟩

/-! ## Filters -/

section

variable {doc : Value} {e : Failure}

mutual

/-- **A filter fails with one of its conditions.** -/
theorem matchFilter_eq_error : ∀ {f : Filter} {bs : List Binding}, parameters f = .ok bs →
    matchFilter doc f = .error e → ∃ c ∈ leaves f, matchCondition doc c = .error e
  | .entries parts, bs, hb, h => by
    rw [parameters] at hb
    split at hb
    · cases hb
    · exact matchAll_eq_error hb h
  | .group .and children, bs, hb, h => matchAll_eq_error hb h
  | .group .or children, bs, hb, h => matchAny_eq_error hb h
  | .leaf c, _, _, h => ⟨c, List.mem_singleton_self c, h⟩
  | .refused r, _, hb, _ => by cases hb
  | .foreign v, _, hb, _ => by cases hb

theorem matchAll_eq_error : ∀ {filters : List Filter} {bs : List Binding},
    Filter.allParameters filters = .ok bs → matchAll doc filters = .error e →
      ∃ c ∈ Filter.allLeaves filters, matchCondition doc c = .error e
  | [], _, _, h => by cases h
  | f :: filters, _, hb, h => by
    obtain ⟨⟨as, hf⟩, ⟨cs, hfs⟩⟩ := Filter.allParameters_cons hb
    rw [matchAll] at h
    rcases hm : matchFilter doc f with e' | b
    · rw [hm] at h
      cases h
      obtain ⟨c, hc, he⟩ := matchFilter_eq_error hf hm
      exact ⟨c, List.mem_append_left _ hc, he⟩
    · rw [hm] at h
      cases b with
      | false => cases h
      | true =>
        obtain ⟨c, hc, he⟩ := matchAll_eq_error hfs h
        exact ⟨c, List.mem_append_right _ hc, he⟩

theorem matchAny_eq_error : ∀ {filters : List Filter} {bs : List Binding},
    Filter.allParameters filters = .ok bs → matchAny doc filters = .error e →
      ∃ c ∈ Filter.allLeaves filters, matchCondition doc c = .error e
  | [], _, _, h => by cases h
  | f :: filters, _, hb, h => by
    obtain ⟨⟨as, hf⟩, ⟨cs, hfs⟩⟩ := Filter.allParameters_cons hb
    rw [matchAny] at h
    rcases hm : matchFilter doc f with e' | b
    · rw [hm] at h
      cases h
      obtain ⟨c, hc, he⟩ := matchFilter_eq_error hf hm
      exact ⟨c, List.mem_append_left _ hc, he⟩
    · rw [hm] at h
      cases b with
      | true => cases h
      | false =>
        obtain ⟨c, hc, he⟩ := matchAny_eq_error hfs h
        exact ⟨c, List.mem_append_right _ hc, he⟩

end

end

/-- **A validated filter is evaluated on every document that baffles none of its conditions.**
    A condition of it fails just if the document baffles it, and the filter fails only with one
    of its conditions, by a fault. -/
theorem matchFilter_evaluated {expression : Value} (hv : validate expression = .ok ())
    (doc : Value) :
    (∀ c ∈ leaves (ofValue expression), (∃ b, matchCondition doc c = .ok b) ↔ ¬Baffles doc c) ∧
    ((∀ c ∈ leaves (ofValue expression), ¬Baffles doc c) →
      ∃ b, matchFilter doc (ofValue expression) = .ok b) ∧
    ∀ e, matchFilter doc (ofValue expression) = .error e →
      ∃ c ∈ leaves (ofValue expression), Baffles doc c ∧ matchCondition doc c = .error e ∧
        ∃ f, e = .fault f ∧ f.label ∈ faultLabels := by
  obtain ⟨bs, hb⟩ : ∃ bs, parameters (ofValue expression) = .ok bs := by
    rw [Filter.validate_eq] at hv
    rcases hb : parameters (ofValue expression) with r | bs
    · rw [hb] at hv; cases hv
    · exact ⟨bs, rfl⟩
  have hfails : ∀ e, matchFilter doc (ofValue expression) = .error e →
      ∃ c ∈ leaves (ofValue expression), Baffles doc c ∧ matchCondition doc c = .error e ∧
        ∃ f, e = .fault f ∧ f.label ∈ faultLabels := by
    intro e he
    obtain ⟨c, hc, hce⟩ := matchFilter_eq_error hb he
    obtain ⟨b, hcb⟩ := Filter.exists_binding hb c hc
    obtain ⟨hbaffles, hfault⟩ := matchCondition_eq_error hcb hce
    exact ⟨c, hc, hbaffles, hce, hfault⟩
  refine ⟨?_, ?_, hfails⟩
  · intro c hc
    obtain ⟨b, hcb⟩ := Filter.exists_binding hb c hc
    constructor
    · rintro ⟨b, hok⟩ hbaffles
      obtain ⟨e, he⟩ := hbaffles.exists_error hcb
      rw [hok] at he
      cases he
    · intro hnot
      rcases hm : matchCondition doc c with e | b
      · exact absurd (matchCondition_eq_error hcb hm).1 hnot
      · exact ⟨b, rfl⟩
  · intro hnone
    rcases hm : matchFilter doc (ofValue expression) with e | b
    · obtain ⟨c, hc, hbaffles, -⟩ := hfails e hm
      exact absurd hbaffles (hnone c hc)
    · exact ⟨b, rfl⟩

/-- Shoes whose first size is 40 or more. -/
def boots40 : Value :=
  .object [("sizes.0", .object [("operator", .text "gte"), ("value", .int 40)])]

theorem matchFilter_evaluated_sizes : validate boots40 = .ok () ∧
    ∃ b, matchFilter (.object [("sizes", .list [.int 42])]) (ofValue boots40) = .ok b := by
  have hv : validate boots40 = .ok () := rfl
  have hl : leaves (ofValue boots40) = [⟨"sizes.0", ["sizes", "0"], .gte, .int 40⟩] := rfl
  obtain ⟨-, h, -⟩ := matchFilter_evaluated hv (.object [("sizes", .list [.int 42])])
  refine ⟨hv, h ?_⟩
  rw [hl]
  intro c hc hbaffles
  obtain rfl := List.mem_singleton.1 hc
  cases hbaffles with
  | path _ ha =>
    obtain ⟨f, hf⟩ := ha.exists_error
    cases hf
  | @number n _ hn hrange =>
    cases hn
    have : (40 : Int).natAbs < Number.rangeEnd := Number.lt_rangeEnd (by decide)
    omega
  | @stored w _ _ hx hw =>
    have hfound : extract ["sizes", "0"] (.object [("sizes", .list [.int 42])]) =
        .ok (some (.int 42)) := rfl
    cases hfound.symm.trans hx
    exact absurd hw (by decide)
  | value _ _ _ hw => exact absurd hw (by decide)

/-- The first item of a list, in a numeral that is not decimal. -/
def superscript : Value := .object [("a.²", .text "x")]

/-- What is above a number that is beyond the doubles. -/
def aboveRange : Value :=
  .object [("a", .object [("operator", .text "gt"), ("value", .int Number.rangeEnd)])]

/-- Validated filters may fail: with digits that give no position, with a number that is beyond
    the doubles. -/
theorem matchFilter_superscript : validate superscript = .ok () ∧
    matchFilter (.object [("a", .list [.text "x"])]) (ofValue superscript) =
      .error (.fault (.badIntText "²")) ∧
    validate aboveRange = .ok () ∧
    matchFilter (.object []) (ofValue aboveRange) = .error (.fault .intTooLarge) := by
  refine ⟨rfl, rfl, rfl, ?_⟩
  have hl : ofValue aboveRange =
      .entries [.leaf ⟨"a", ["a"], .gt, .int Number.rangeEnd⟩] := rfl
  have hn : Number.ofInt? Number.rangeEnd = none :=
    Number.ofInt?_eq_none_iff.2 (Nat.le_of_eq (Int.natAbs_natCast Number.rangeEnd).symm)
  have hx : extract ["a"] (.object []) = .ok none := rfl
  rw [hl, matchFilter, matchAll, matchFilter, matchCondition_ordering (by simp [ordering]) hx rfl]
  have hfloat : (Value.int Number.rangeEnd).toFloat = .error .intTooLarge := by
    rw [Value.toFloat, hn]
  rw [hfloat]
  rfl

end Memory

end VectorStore
