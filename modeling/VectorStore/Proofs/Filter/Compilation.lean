/-
  What compiling a filter yields.

  Compiling is taken apart into two passes that know nothing of each other.

  * `Filter.parameters` validates a filter and gathers its parameters; it knows neither the
    column nor an index;
  * `Filter.predicateAt` places the conditions of a filter; it knows no value;
  * `compileAt_eq`: `compileAt` is the two together;
  * `fragments_predicateAt`: the fragments of the predicate are the conditions of the filter
    in document order (`Filter.leaves`), each numbered by the parameters before it;
  * `parameters_binds`: the parameters are what the conditions bind (`Condition.Binds`).
-/
import Mathlib.Data.List.Forall2
import VectorStore.Filter.Sql

namespace VectorStore.Filter

/-! ## Conditions in document order -/

/-- Whether the condition binds a parameter. -/
def Condition.takesValue (c : Condition) : Bool := c.operator.needsValue

mutual

/-- The conditions of a filter in document order. -/
def leaves : Filter → List Condition
  | .entries parts => allLeaves parts
  | .group _ children => allLeaves children
  | .leaf c => [c]
  | .refused _ | .foreign _ => []

/-- The conditions of several filters. -/
def allLeaves : List Filter → List Condition
  | [] => []
  | f :: filters => leaves f ++ allLeaves filters

end

/-- The number of parameters that conditions bind. -/
def width (cs : List Condition) : Nat := cs.countP Condition.takesValue

theorem width_append (cs ds : List Condition) : width (cs ++ ds) = width cs + width ds :=
  List.countP_append

theorem width_cons (c : Condition) (cs : List Condition) :
    width (c :: cs) = width [c] + width cs := width_append [c] cs

/-! ## Parameters -/

mutual

/-- The parameters of a filter in document order. -/
def parameters : Filter → Except Refusal (List Binding)
  | .entries parts => if parts.isEmpty then .error .empty else allParameters parts
  | .group _ children => allParameters children
  | .leaf c => do return (← c.binding).toList
  | .refused r => .error r
  | .foreign v => .error (.notObject v.typeName)

/-- The parameters of several filters. -/
def allParameters : List Filter → Except Refusal (List Binding)
  | [] => .ok []
  | f :: filters => do return (← parameters f) ++ (← allParameters filters)

end

/-- What a condition binds, operator by operator. -/
inductive Condition.Binds : Condition → Binding → Prop
  | eq {key path v} : Binds ⟨key, path, .eq, v⟩ ⟨v, .text⟩
  | neq {key path v} : Binds ⟨key, path, .neq, v⟩ ⟨v, .text⟩
  | like {key path v} : v.isWritable = true →
      Binds ⟨key, path, .like, v⟩ ⟨.text ("%" ++ v.plain ++ "%"), .text⟩
  | ilike {key path v} : v.isWritable = true →
      Binds ⟨key, path, .ilike, v⟩ ⟨.text ("%" ++ v.plain ++ "%"), .text⟩
  | number {key path op v} : op ∈ [Operator.gt, .gte, .lt, .lte] →
      Binds ⟨key, path, op, v⟩ ⟨v, .numeric⟩
  | list {key path vs} : Binds ⟨key, path, .oneOf, .list vs⟩ ⟨.list vs, .textArray⟩
  | commas {key path s} : Binds ⟨key, path, .oneOf, .text s⟩
      ⟨.list ((Text.pieces ',' s).map .text), .textArray⟩
  | contains {key path v} : v.isWritable = true → Binds ⟨key, path, .contains, v⟩
      ⟨.text (Json.write Json.spaced (path.fold v)), .jsonb⟩

theorem likePattern_eq (v : Value) : likePattern v =
    if v.isWritable then .ok ("%" ++ v.plain ++ "%") else .error .intTooLong := by
  rw [likePattern, Value.toText]
  split <;> rfl

/-- A folded value has a text just if the value has one. -/
theorem Path.isWritable_fold (path : Path) (v : Value) :
    (path.fold v).isWritable = v.isWritable := by
  induction path with
  | nil => rfl
  | cons segment path ih =>
    rw [fold_cons, Value.isWritable, Value.areWritableFields, Value.areWritableFields,
      Bool.and_true]
    exact ih

/-- The choices of a value have texts just if the value has one. -/
theorem areWritable_choices {v : Value} {items : List Value} (h : choices v = .ok items) :
    Value.areWritable items = v.isWritable := by
  cases v with
  | list vs =>
    cases h
    rfl
  | text s =>
    cases h
    rw [Value.areWritable_eq_all, List.all_map]
    exact List.all_eq_true.2 fun _ _ => rfl
  | _ => cases h

theorem encode_fold (path : Path) (v : Value) : Json.encode Json.spaced (path.fold v) =
    if v.isWritable then .ok (Json.write Json.spaced (path.fold v)) else .error .intTooLong := by
  rw [Json.encode, Path.isWritable_fold]

theorem Condition.binding_binds {c : Condition} {b : Option Binding} (h : c.binding = .ok b) :
    List.Forall₂ Condition.Binds (if c.takesValue then [c] else []) b.toList := by
  obtain ⟨key, path, op, v⟩ := c
  cases op
  case eq => cases h; exact .cons .eq .nil
  case neq => cases h; exact .cons .neq .nil
  case like =>
    simp only [Condition.binding, likePattern_eq] at h
    split at h <;> cases h
    next hv => exact .cons (.like hv) .nil
  case ilike =>
    simp only [Condition.binding, likePattern_eq] at h
    split at h <;> cases h
    next hv => exact .cons (.ilike hv) .nil
  case contains =>
    simp only [Condition.binding, encode_fold] at h
    split at h <;> cases h
    next hv => exact .cons (.contains hv) .nil
  case present => cases h; exact .nil
  case oneOf =>
    cases v <;> cases h
    · exact .cons .commas .nil
    · exact .cons .list .nil
  all_goals
    rcases hn : requireNumber path v with _ | _ <;>
      simp only [Condition.binding, hn] at h <;> cases h
    exact .cons (.number (by simp)) .nil

mutual

theorem parameters_binds : ∀ {f : Filter} {bs : List Binding}, parameters f = .ok bs →
    List.Forall₂ Condition.Binds ((leaves f).filter Condition.takesValue) bs
  | .entries parts, bs, h => by
    rw [parameters] at h
    split at h
    · cases h
    · exact allParameters_binds h
  | .group c children, bs, h => allParameters_binds (by simpa [parameters] using h)
  | .leaf c, bs, h => by
    rw [parameters] at h
    rcases hb : c.binding with _ | b
    · rw [hb] at h; cases h
    · rw [hb] at h; cases h
      simpa [leaves, List.filter_cons] using c.binding_binds hb
  | .refused r, bs, h => by rw [parameters] at h; cases h
  | .foreign v, bs, h => by rw [parameters] at h; cases h

theorem allParameters_binds : ∀ {filters : List Filter} {bs : List Binding},
    allParameters filters = .ok bs →
      List.Forall₂ Condition.Binds ((allLeaves filters).filter Condition.takesValue) bs
  | [], bs, h => by cases h; exact .nil
  | f :: filters, bs, h => by
    rw [allParameters] at h
    rcases hf : parameters f with _ | as
    · rw [hf] at h; cases h
    rcases hfs : allParameters filters with _ | bs'
    · rw [hf, hfs] at h; cases h
    rw [hf, hfs] at h; cases h
    rw [allLeaves, List.filter_append]
    exact List.rel_append (parameters_binds hf) (allParameters_binds hfs)

end

theorem length_parameters {f : Filter} {bs : List Binding} (h : parameters f = .ok bs) :
    bs.length = width (leaves f) := by
  rw [← (parameters_binds h).length_eq, width, List.countP_eq_length_filter]

/-! ## Predicates -/

mutual

/-- The predicate of a filter whose first placeholder has the given index, whatever its
    values are. -/
def predicateAt (column : String) : Nat → Filter → Predicate
  | index, .entries parts => conjunction (predicatesAt column index parts)
  | index, .group c children => .group c (predicatesAt column index children)
  | index, .leaf c => .atom ⟨column, c.path, c.operator, index⟩
  | _, .refused _ | _, .foreign _ => .group .and []

/-- The predicates of several filters, numbered one after another. -/
def predicatesAt (column : String) : Nat → List Filter → List Predicate
  | _, [] => []
  | index, f :: filters =>
    predicateAt column index f :: predicatesAt column (index + width (leaves f)) filters

end

variable (column : String)

mutual

/-- **Compiling is gathering the parameters and placing the conditions.** -/
theorem compileAt_eq : ∀ (index : Nat) (f : Filter), compileAt column index f =
    (parameters f).map fun bs => (predicateAt column index f, bs)
  | index, .entries parts => by
    rw [compileAt, parameters]
    split
    · rfl
    · rw [compileParts_eq index parts]
      cases allParameters parts <;> rfl
  | index, .group c children => by
    rw [compileAt, parameters, compileParts_eq index children]
    cases allParameters children <;> rfl
  | index, .leaf c => by
    rw [compileAt, parameters]
    cases c.binding <;> rfl
  | index, .refused r => by rw [compileAt, parameters]; rfl
  | index, .foreign v => by rw [compileAt, parameters]; rfl

theorem compileParts_eq : ∀ (index : Nat) (filters : List Filter),
    compileParts column index filters =
      (allParameters filters).map fun bs => (predicatesAt column index filters, bs)
  | index, [] => rfl
  | index, f :: filters => by
    rw [compileParts, allParameters, compileAt_eq index f]
    rcases hf : parameters f with _ | bs
    · rfl
    -- the next filter starts where the parameters found so far end
    show (compileParts column (index + bs.length) filters >>= _) = _
    rw [length_parameters hf, compileParts_eq _ filters]
    cases allParameters filters <;> rfl

end

theorem compile_eq_ok_iff {expression : Value} {start : Nat} {c : Compiled} :
    compile expression start column = .ok c ↔
      ∃ bs, parameters (ofValue expression) = .ok bs ∧
        c = ⟨predicateAt column start (ofValue expression), bs, start⟩ := by
  rw [compile, compileAt_eq]
  rcases parameters (ofValue expression) with r | bs
  · constructor
    · intro h; cases h
    · rintro ⟨_, h, -⟩; cases h
  · constructor
    · intro h; cases h; exact ⟨bs, rfl, rfl⟩
    · rintro ⟨_, h, rfl⟩; cases h; rfl

/-! ## Fragments -/

mutual

/-- The fragments of a predicate in the order of its text. -/
def Predicate.fragments : Predicate → List Fragment
  | .atom f => [f]
  | .group _ parts => allFragments parts

/-- The fragments of several predicates. -/
def allFragments : List Predicate → List Fragment
  | [] => []
  | p :: parts => p.fragments ++ allFragments parts

end

/-- The fragments of conditions whose first placeholder has the given index. -/
def fragmentsFrom : Nat → List Condition → List Fragment
  | _, [] => []
  | index, c :: cs =>
    ⟨column, c.path, c.operator, index⟩ :: fragmentsFrom (index + width [c]) cs

theorem fragmentsFrom_append (index : Nat) (cs ds : List Condition) :
    fragmentsFrom column index (cs ++ ds) =
      fragmentsFrom column index cs ++ fragmentsFrom column (index + width cs) ds := by
  induction cs generalizing index with
  | nil => rfl
  | cons c cs ih =>
    rw [List.cons_append, fragmentsFrom, fragmentsFrom, ih, width_cons c cs, Nat.add_assoc]; rfl

theorem fragments_conjunction (parts : List Predicate) :
    (conjunction parts).fragments = allFragments parts := by
  unfold conjunction
  split
  · simp [allFragments]
  · rfl

mutual

/-- **The fragments are the conditions in document order.** -/
theorem fragments_predicateAt : ∀ (index : Nat) (f : Filter),
    (predicateAt column index f).fragments = fragmentsFrom column index (leaves f)
  | index, .entries parts => by
    rw [predicateAt, fragments_conjunction, leaves, allFragments_predicatesAt index parts]
  | index, .group c children => by
    rw [predicateAt, Predicate.fragments, leaves, allFragments_predicatesAt index children]
  | index, .leaf c => rfl
  | index, .refused r => rfl
  | index, .foreign v => rfl

theorem allFragments_predicatesAt : ∀ (index : Nat) (filters : List Filter),
    allFragments (predicatesAt column index filters) =
      fragmentsFrom column index (allLeaves filters)
  | index, [] => rfl
  | index, f :: filters => by
    rw [predicatesAt, allFragments, allLeaves, fragmentsFrom_append,
      fragments_predicateAt index f, allFragments_predicatesAt _ filters]

end

/-- The fragments that have a placeholder are numbered without gaps. -/
theorem indices_fragmentsFrom (index : Nat) (cs : List Condition) :
    ((fragmentsFrom column index cs).filter (·.operator.needsValue)).map (·.index) =
      List.range' index (width cs) := by
  induction cs generalizing index with
  | nil => rfl
  | cons c cs ih =>
    rw [fragmentsFrom, width_cons c cs, List.filter_cons]
    rcases hc : c.operator.needsValue
    · have hw : width [c] = 0 := by simp [width, Condition.takesValue, hc]
      simpa [hw] using ih index
    · have hw : width [c] = 1 := by simp [width, Condition.takesValue, hc]
      simpa [hw, Nat.add_comm 1, List.range'_succ] using ih (index + 1)

end VectorStore.Filter
