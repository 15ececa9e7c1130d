/-
  The documents that a condition selects.

  What the database makes of a condition is said of its text, read back.

  * `valueAt` and `textAt` are what `#>` and `#>>` find in a document;
  * `testTruth` is the truth value of an atom: a comparison with NULL is unknown, and
    `= ANY` is the disjunction of its comparisons;
  * a condition `Selects` the documents of which it is true, unknown not being enough;
  * what can be written is bound by its text form (`asText_eq`, `textValue_eq`);
  * `conditionTruth` is the truth value that the condition of a filter stands for, and
    `selects_iff`: a compiled filter with its parameters bound selects the documents in which
    the filter holds, its conditions having these values.
-/
import VectorStore.Postgres.Bound
import VectorStore.Proofs.Filter.Atoms
import VectorStore.Proofs.Filter.Meaning
import VectorStore.Proofs.Json.Documents

namespace VectorStore.Postgres

open VectorStore.Filter (Binding Compiled Condition Formula Fragment Path Test choices compile
  fragmentsFrom holds isIdentifier leaves ofValue parameters predicateAt width)

/-! ## Documents -/

/-- What a path leads to in a document, going through objects. -/
def valueAt : Path → Value → Option Value
  | [], v => some v
  | segment :: path, .object fields => (Fields.get? fields segment).bind (valueAt path)
  | _ :: _, _ => none

/-- The text at a path: that of a text or of a truth value.  What is absent or null has
    none. -/
def textAt (path : Path) (doc : Value) : Option String :=
  match valueAt path doc with
  | some (.text s) => some s
  | some (.bool b) => some (if b then "true" else "false")
  | _ => none

/-! ## Comparisons -/

/-- A comparison of texts; it is unknown if one of them is NULL. -/
def compared (r : String → String → Bool) : Option String → Option String → Truth
  | some a, some b => some (r a b)
  | _, _ => none

/-- Whether a text equals one of several. -/
def comparedAny (text : Option String) (items : List (Option String)) : Truth :=
  items.foldr (fun item t => Combinator.or.truth (compared (· == ·) text item) t) (some false)

theorem isTrue_compared (r : String → String → Bool) (a b : Option String) :
    (compared r a b).isTrue = a.any fun s => b.any (r s) := by
  cases a <;> cases b <;> simp [compared, Truth.isTrue]

theorem isTrue_comparedAny (text : Option String) (items : List (Option String)) :
    (comparedAny text items).isTrue =
      items.any fun item => text.any fun s => item.any (s == ·) := by
  induction items with
  | nil => rfl
  | cons item items ih =>
    rw [comparedAny, List.foldr_cons, Combinator.isTrue_truth, isTrue_compared, List.any_cons,
      ← ih]
    rfl

/-! ## Atoms -/

/-- The text of a parameter; NULL has none. -/
def Bound.text? : Bound → Option String
  | .value v => v.text?
  | .decimal _ => none

/-- The texts of an array. -/
def Bound.texts : Bound → List (Option String)
  | .value (.list items) => items.map Value.text?
  | _ => []

/-- The truth value of a test of a document, parameters being looked up by index. -/
def testTruth (args : Nat → Option Bound) (doc : Value) : Test → Truth
  | .equal path i => (args i).bind fun x => compared (· == ·) (textAt path doc) x.text?
  | .unequal path i => (args i).bind fun x => compared (· != ·) (textAt path doc) x.text?
  | .among path i => (args i).bind fun x => comparedAny (textAt path doc) x.texts
  | .present path => some (valueAt path doc).isSome

/-- The truth values of the atoms of a condition over a column, by position. -/
def atomTruth (column : String) (args : Nat → Option Bound) (doc : Value) (f : Formula)
    (i : Nat) : Truth :=
  (f.atoms[i]?.bind (Test.read? column)).bind (testTruth args doc)

/-- A condition over a column selects the documents of which it is true. -/
def Selects (column : String) (args : Nat → Option Bound) (sql : String) (doc : Value) : Prop :=
  let f := Formula.read sql.toList
  f.value (atomTruth column args doc f) 0 = some true

/-- The parameter that an index stands for, the first one having the given index. -/
def argumentAt (start : Nat) (params : List Bound) (index : Nat) : Option Bound :=
  if start ≤ index then params[index - start]? else none

theorem argumentAt_add (start : Nat) (params : List Bound) (i : Nat) :
    argumentAt start params (start + i) = params[i]? := by
  rw [argumentAt, if_pos (Nat.le_add_right start i), Nat.add_sub_cancel_left]

/-! ## Conditions -/

/-- The operators that compare texts or ask for presence. -/
def textual : List Operator := [.eq, .neq, .oneOf, .present]

/-- The truth value that a condition has of a document. -/
def conditionTruth (doc : Value) (d : Condition) : Truth :=
  match d.operator with
  | .eq => compared (· == ·) (textAt d.path doc) (Json.textForm d.value)
  | .neq => compared (· != ·) (textAt d.path doc) (Json.textForm d.value)
  | .oneOf =>
    match choices d.value with
    | .ok items => comparedAny (textAt d.path doc) (items.map Json.textForm)
    | .error _ => none
  | .present => some (valueAt d.path doc).isSome
  | _ => none

theorem notMem_textual {op : Operator} (h : op ∈ [Operator.gt, .gte, .lt, .lte]) :
    op ∉ textual := by
  revert h; cases op <;> decide

/-- The truth value of the condition at a position. -/
def truthAt (doc : Value) (cs : List Condition) (i : Nat) : Truth :=
  cs[i]?.bind (conditionTruth doc)

/-- A condition's parameter is bound as `x`. -/
def BoundAs (d : Condition) (x : Bound) : Prop :=
  ∃ b, d.Binds b ∧ bind (some b.type) b.value = .ok x

/-- **A value is bound by its text form**, if it can be written. -/
theorem asText_eq (v : Value) : asText v =
    if v.isWritable then .ok (Json.textForm v) else .error .intTooLong := by
  cases v with
  | null => rfl
  | text s => rfl
  | bool b => exact Json.encode_textForm (v := .bool b) rfl
  | int n => exact Json.encode_textForm (v := .int n) rfl
  | float x => exact Json.encode_textForm (v := .float x) rfl
  | list items => exact Json.encode_textForm (v := .list items) rfl
  | object fields => exact Json.encode_textForm (v := .object fields) rfl

/-- The text form as a document. -/
def textDocument (v : Value) : Value := ((Json.textForm v).map .text).getD .null

theorem textValue_eq (v : Value) : textValue v =
    if v.isWritable then .ok (textDocument v) else .error .intTooLong := by
  rw [textValue, asText_eq]
  split <;> rfl

theorem mapM_textValue (items : List Value) : items.mapM textValue =
    if Value.areWritable items then .ok (items.map textDocument) else .error .intTooLong := by
  rw [Value.areWritable_eq_all]
  exact mapM_checked textValue_eq items

theorem bind_text (v : Value) : bind (some .text) v =
    if v.isWritable then .ok (.value (textDocument v)) else .error .intTooLong := by
  rw [bind, textValue_eq]
  split <;> rfl

theorem bind_textArray (items : List Value) : bind (some .textArray) (.list items) =
    if Value.areWritable items then .ok (.value (.list (items.map textDocument)))
    else .error .intTooLong := by
  show (do return Bound.value (.list (← items.mapM textValue))) = _
  rw [mapM_textValue]
  split <;> rfl

/-- A text is bound by its text form. -/
theorem BoundAs.eq_textDocument {d : Condition} {x : Bound} (h : BoundAs d x)
    (ho : d.operator = .eq ∨ d.operator = .neq) :
    d.value.isWritable = true ∧ x = .value (textDocument d.value) := by
  obtain ⟨b, hb, hx⟩ := h
  cases hb
  case eq v | neq v =>
    rw [bind_text] at hx
    split at hx
    · next hv =>
      cases hx
      exact ⟨hv, rfl⟩
    · cases hx
  case number hop => rcases ho with rfl | rfl <;> exact absurd hop (by decide)
  all_goals rcases ho with ho | ho <;> cases ho

/-- A list is bound item by item. -/
theorem BoundAs.eq_textDocuments {d : Condition} {x : Bound} (h : BoundAs d x)
    (ho : d.operator = .oneOf) : ∃ items, choices d.value = .ok items ∧
      Value.areWritable items = true ∧ x = .value (.list (items.map textDocument)) := by
  obtain ⟨b, hb, hx⟩ := h
  cases hb
  case list | commas =>
    rw [bind_textArray] at hx
    split at hx
    · next hitems =>
      cases hx
      exact ⟨_, rfl, hitems, rfl⟩
    · cases hx
  case number hop => cases ho; exact absurd hop (by decide)
  all_goals cases ho

theorem text?_textDocument (v : Value) : (textDocument v).text? = Json.textForm v := by
  rw [textDocument]
  cases Json.textForm v <;> rfl

theorem texts_textDocuments (items : List Value) :
    (Bound.value (.list (items.map textDocument))).texts = items.map Json.textForm := by
  rw [Bound.texts, List.map_map]
  exact List.map_congr_left fun v _ => text?_textDocument v

/-- **The parameters of textual conditions can be bound**, if their values can be written. -/
theorem exists_boundAs : ∀ {cs : List Condition} {bs : List Binding},
    List.Forall₂ Condition.Binds cs bs → (∀ d ∈ cs, d.operator ∈ textual) →
      (∀ d ∈ cs, d.value.isWritable = true) →
      ∃ params, bs.mapM (fun b => bind (some b.type) b.value) = .ok params ∧
        List.Forall₂ BoundAs cs params
  | [], [], .nil, _, _ => ⟨[], rfl, .nil⟩
  | d :: cs, b :: bs, .cons h hs, ho, hw => by
    obtain ⟨hd, hcs⟩ := List.forall_mem_cons.1 ho
    obtain ⟨hv, hvs⟩ := List.forall_mem_cons.1 hw
    obtain ⟨params, hm, hp⟩ := exists_boundAs hs hcs hvs
    obtain ⟨x, hx⟩ : ∃ x, bind (some b.type) b.value = .ok x := by
      cases h
      case number hop => exact absurd hd (notMem_textual hop)
      case eq | neq => exact ⟨_, (bind_text _).trans (if_pos hv)⟩
      case list vs => exact ⟨_, (bind_textArray vs).trans (if_pos hv)⟩
      case commas s =>
        have hitems := Filter.areWritable_choices (v := .text s) rfl
        exact ⟨_, (bind_textArray _).trans (if_pos (hitems.trans hv))⟩
      all_goals exact absurd hd (by simp [textual])
    refine ⟨x :: params, ?_, .cons ⟨b, h, hx⟩ hp⟩
    rw [List.mapM_cons, hx, hm]; rfl

/-- The test of a textual condition's fragment has the condition's truth value. -/
theorem testTruth_eq {args : Nat → Option Bound} {d : Condition} {index : Nat} (column : String)
    (doc : Value) (ho : d.operator ∈ textual)
    (hx : d.takesValue = true → ∃ x, args index = some x ∧ BoundAs d x) :
    ∃ t, Fragment.test? ⟨column, d.path, d.operator, index⟩ = some t ∧
      testTruth args doc t = conditionTruth doc d := by
  obtain ⟨key, path, op, v⟩ := d
  cases op
  case eq | neq =>
    obtain ⟨x, hi, hx⟩ := hx rfl
    refine ⟨_, rfl, ?_⟩
    rw [testTruth, hi, Option.bind_some, (hx.eq_textDocument (by simp)).2, Bound.text?,
      text?_textDocument]
    rfl
  case oneOf =>
    obtain ⟨x, hi, hx⟩ := hx rfl
    obtain ⟨items, hitems, -, rfl⟩ := hx.eq_textDocuments rfl
    refine ⟨_, rfl, ?_⟩
    rw [testTruth, hi, Option.bind_some, texts_textDocuments, conditionTruth]
    simp only [hitems]
  case present => exact ⟨_, rfl, rfl⟩
  all_goals exact absurd ho (by simp [textual])

/-! ## Positions -/

theorem getElem?_fragmentsFrom (column : String) (index : Nat) (cs : List Condition) (i : Nat) :
    (fragmentsFrom column index cs)[i]? =
      cs[i]?.map fun c => ⟨column, c.path, c.operator, index + width (cs.take i)⟩ := by
  induction cs generalizing index i with
  | nil => rfl
  | cons c cs ih =>
    rw [fragmentsFrom]
    cases i with
    | zero => rfl
    | succ i =>
      rw [List.getElem?_cons_succ, List.getElem?_cons_succ, ih]
      simp only [List.take_succ_cons, Filter.width_cons c (cs.take i), Nat.add_assoc]

/-- The parameter of a condition stands behind those of the conditions before it. -/
theorem getElem?_parameter {cs : List Condition} {params : List Bound} {i : Nat} {d : Condition}
    (h : List.Forall₂ BoundAs (cs.filter Condition.takesValue) params) (hd : cs[i]? = some d)
    (hv : d.takesValue = true) :
    ∃ x, params[width (cs.take i)]? = some x ∧ BoundAs d x := by
  induction cs generalizing i params with
  | nil => cases hd
  | cons c cs ih =>
    cases i with
    | zero =>
      cases hd
      rw [List.filter_cons_of_pos hv] at h
      obtain ⟨x, xs, hx, -, rfl⟩ := List.forall₂_cons_left_iff.1 h
      exact ⟨x, rfl, hx⟩
    | succ i =>
      rw [List.getElem?_cons_succ] at hd
      rw [List.take_succ_cons, Filter.width_cons]
      rcases hc : c.takesValue
      · rw [List.filter_cons_of_neg (by simp [hc])] at h
        have hw : width [c] = 0 := by simp [width, hc]
        rw [hw, Nat.zero_add]
        exact ih h hd
      · rw [List.filter_cons_of_pos hc] at h
        obtain ⟨x, xs, -, hxs, rfl⟩ := List.forall₂_cons_left_iff.1 h
        have hw : width [c] = 1 := by simp [width, hc]
        rw [hw, Nat.add_comm, List.getElem?_cons_succ]
        exact ih hxs hd

/-! ## Compiled filters -/

variable {expression : Value} {start : Nat} {column : String} {bs : List Binding}

theorem read_text (hc : isIdentifier column = true)
    (hb : parameters (ofValue expression) = .ok bs) :
    Formula.read (predicateAt column start (ofValue expression)).text.toList =
      (predicateAt column start (ofValue expression)).formula := by
  have h : compile expression start column = .ok _ :=
    (Filter.compile_eq_ok_iff column).2 ⟨bs, hb, rfl⟩
  rw [Filter.Predicate.text, String.toList_ofList, Filter.read_chars (Filter.sound_of_compile hc h)]

/-- The atoms of a compiled filter have the truth values of its conditions. -/
theorem atomTruth_formula {params : List Bound} (hb : parameters (ofValue expression) = .ok bs)
    (ho : ∀ d ∈ leaves (ofValue expression), d.operator ∈ textual)
    (hp : List.Forall₂ BoundAs ((leaves (ofValue expression)).filter Condition.takesValue) params)
    (doc : Value) (i : Nat) :
    atomTruth column (argumentAt start params) doc
        (predicateAt column start (ofValue expression)).formula i =
      truthAt doc (leaves (ofValue expression)) i := by
  have hw : Filter.Whole (ofValue expression) := (Filter.writes_ofValue hb).whole
  rw [atomTruth, Filter.atoms_formula column start hw, List.getElem?_map,
    getElem?_fragmentsFrom, truthAt]
  rcases hd : (leaves (ofValue expression))[i]? with _ | d
  · rfl
  have hm : d ∈ leaves (ofValue expression) := List.mem_of_getElem? hd
  obtain ⟨t, ht, htruth⟩ :=
    testTruth_eq column doc (ho d hm) fun hv => by
      obtain ⟨x, hx, ha⟩ := getElem?_parameter hp hd hv
      exact ⟨x, (argumentAt_add start params _).trans hx, ha⟩
  have hr : Test.read? column (Fragment.chars ⟨column, d.path, d.operator, _⟩) = some t :=
    Fragment.read?_chars (Filter.writable_of_mem_leaves hb hm) ht
  simp only [Option.map_some, Option.bind_some, hr, htruth]

/-- **A compiled filter selects the documents in which its conditions make it hold.** -/
theorem selects_iff {params : List Bound} (hc : isIdentifier column = true)
    (hb : parameters (ofValue expression) = .ok bs)
    (ho : ∀ d ∈ leaves (ofValue expression), d.operator ∈ textual)
    (hp : List.Forall₂ BoundAs ((leaves (ofValue expression)).filter Condition.takesValue) params)
    (doc : Value) :
    Selects column (argumentAt start params)
        (predicateAt column start (ofValue expression)).text doc ↔
      holds (fun i => (truthAt doc (leaves (ofValue expression)) i).isTrue) 0
        (ofValue expression) = true := by
  have hw : Filter.Whole (ofValue expression) := (Filter.writes_ofValue hb).whole
  have ha : atomTruth column (argumentAt start params) doc
      (predicateAt column start (ofValue expression)).formula =
        truthAt doc (leaves (ofValue expression)) :=
    funext (atomTruth_formula hb ho hp doc)
  rw [Selects, read_text hc hb, ha, ← Filter.holds_formula column _ start 0 hw,
    ← Filter.isTrue_value, Truth.isTrue, beq_iff_eq]

end VectorStore.Postgres
