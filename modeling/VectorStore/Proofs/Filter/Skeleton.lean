/-
  Values do not reach the text.

  * `skeleton` is what is left of a filter document without the values of its conditions:
    the keys in their order, the combinators with their lists, and the operator of each
    condition, a literal standing for equality;
  * `stripped` filters have null in place of every value; the predicate of a filter is that
    of the stripped one (`predicateAt_stripped`);
  * `Writes.stripped_eq`: accepted documents of one skeleton write one stripped filter;
  * `sql_eq_of_skeleton_eq`: so they compile to one text, with parameters of the same types.
-/
import VectorStore.Proofs.Filter.Document

namespace VectorStore.Filter

/-! ## Skeletons -/

/-- A filter document without the values of its conditions. -/
inductive Skeleton where
  | object (fields : List (String × Skeleton))
  | list (items : List Skeleton)
  | condition (operator : Option Operator)
  /-- what cannot stand in its place -/
  | other

mutual

/-- The skeleton of a filter document. -/
def skeleton : Value → Skeleton
  | .object fields => .object (skeletonFields fields)
  | _ => .other

/-- The skeletons of the fields of an object. -/
def skeletonFields : List (String × Value) → List (String × Skeleton)
  | [] => []
  | (key, .list items) :: fields =>
    (key, match Combinator.ofName? key with
      | none => .condition (some .eq)
      | some _ => .list (skeletonItems items)) :: skeletonFields fields
  | (key, raw) :: fields =>
    (key, match Combinator.ofName? key with
      | none => .condition (entryOperator raw)
      | some _ => .other) :: skeletonFields fields

/-- The skeletons of the items of a list. -/
def skeletonItems : List Value → List Skeleton
  | [] => []
  | v :: items => skeleton v :: skeletonItems items

end

/-- The skeleton of one field. -/
def skeletonAt (key : String) (raw : Value) : Skeleton :=
  match Combinator.ofName? key with
  | none => .condition (entryOperator raw)
  | some _ =>
    match raw with
    | .list items => .list (skeletonItems items)
    | _ => .other

theorem skeletonFields_cons (key : String) (raw : Value) (fields : Fields) :
    skeletonFields ((key, raw) :: fields) = (key, skeletonAt key raw) :: skeletonFields fields := by
  rcases h : Combinator.ofName? key with _ | c <;> cases raw <;>
    simp [skeletonFields, skeletonAt, h, entryOperator]

/-! ## Stripped filters -/

/-- The condition with null in place of its value. -/
def Condition.stripped (c : Condition) : Condition := { c with value := .null }

mutual

/-- The filter with null in place of every value. -/
def stripped : Filter → Filter
  | .entries parts => .entries (allStripped parts)
  | .group c children => .group c (allStripped children)
  | .leaf c => .leaf c.stripped
  | f => f

/-- The filters with null in place of every value. -/
def allStripped : List Filter → List Filter
  | [] => []
  | f :: filters => stripped f :: allStripped filters

end

mutual

theorem leaves_stripped : ∀ f : Filter, leaves (stripped f) = (leaves f).map Condition.stripped
  | .entries parts => by rw [stripped, leaves, leaves, allLeaves_allStripped parts]
  | .group c children => by rw [stripped, leaves, leaves, allLeaves_allStripped children]
  | .leaf c => rfl
  | .refused r => rfl
  | .foreign v => rfl

theorem allLeaves_allStripped : ∀ filters : List Filter,
    allLeaves (allStripped filters) = (allLeaves filters).map Condition.stripped
  | [] => rfl
  | f :: filters => by
    rw [allStripped, allLeaves, allLeaves, List.map_append, leaves_stripped f,
      allLeaves_allStripped filters]

end

theorem width_map_stripped (cs : List Condition) :
    width (cs.map Condition.stripped) = width cs := by
  rw [width, List.countP_map]; rfl

mutual

/-- **The predicate of a filter does not depend on its values.** -/
theorem predicateAt_stripped (column : String) : ∀ (index : Nat) (f : Filter),
    predicateAt column index (stripped f) = predicateAt column index f
  | index, .entries parts => by
    rw [stripped, predicateAt, predicateAt, predicatesAt_allStripped column index parts]
  | index, .group c children => by
    rw [stripped, predicateAt, predicateAt, predicatesAt_allStripped column index children]
  | index, .leaf c => rfl
  | index, .refused r => rfl
  | index, .foreign v => rfl

theorem predicatesAt_allStripped (column : String) : ∀ (index : Nat) (filters : List Filter),
    predicatesAt column index (allStripped filters) = predicatesAt column index filters
  | index, [] => rfl
  | index, f :: filters => by
    rw [allStripped, predicatesAt, predicatesAt, predicateAt_stripped column index f,
      leaves_stripped, width_map_stripped, predicatesAt_allStripped column _ filters]

end

/-- The type of the parameter that an operator takes. -/
def parameterType : Operator → ParamType
  | .gt | .gte | .lt | .lte => .numeric
  | .oneOf => .textArray
  | .contains => .jsonb
  | _ => .text

theorem Condition.Binds.type_eq {c : Condition} {b : Binding} (h : c.Binds b) :
    b.type = parameterType c.operator := by
  cases h
  case number op hop =>
    simp only [List.mem_cons, List.not_mem_nil, or_false] at hop
    rcases hop with rfl | rfl | rfl | rfl <;> rfl
  all_goals rfl

theorem types_of_binds : ∀ {cs : List Condition} {bs : List Binding},
    List.Forall₂ Condition.Binds cs bs →
      bs.map (·.type) = cs.map fun c => parameterType c.operator
  | [], [], .nil => rfl
  | c :: cs, b :: bs, .cons h hs => by
    rw [List.map_cons, List.map_cons, h.type_eq, types_of_binds hs]

/-- The types of the parameters do not depend on the values. -/
theorem types_stripped {f : Filter} {bs : List Binding} (h : parameters f = .ok bs) :
    bs.map (·.type) =
      ((leaves (stripped f)).filter Condition.takesValue).map
        fun c => parameterType c.operator := by
  rw [types_of_binds (parameters_binds h), leaves_stripped, List.filter_map, List.map_map]
  rfl

/-! ## One skeleton, one text -/

/-- The predicate of a filter's condition depends on the key and the operator alone. -/
theorem stripped_eq_of_readFrom {key : String} {raw other : Value} {c d : Condition}
    (hc : ReadFrom (key, raw) c) (hd : ReadFrom (key, other) d)
    (h : entryOperator raw = entryOperator other) : c.stripped = d.stripped := by
  obtain ⟨path, op, hp, ho, rfl⟩ := hc.spec
  obtain ⟨path', op', hp', ho', rfl⟩ := hd.spec
  rw [hp] at hp'; cases hp'
  rw [ho, ho'] at h; cases h
  rfl

mutual

/-- **Accepted documents of one skeleton write one stripped filter.** -/
theorem Writes.stripped_eq : ∀ {v w : Value} {f g : Filter}, Writes v f → Writes w g →
    skeleton v = skeleton w → stripped f = stripped g
  | _, _, _, _, .object _ h, .object _ h', hs => by
    rw [skeleton, skeleton, Skeleton.object.injEq] at hs
    rw [stripped, stripped, h.stripped_eq h' hs]
termination_by structural _ _ _ _ h => h

theorem WritesEntry.stripped_eq : ∀ {key : String} {raw other : Value} {f g : Filter},
    WritesEntry key raw f → WritesEntry key other g →
      skeletonAt key raw = skeletonAt key other → stripped f = stripped g
  | _, _, _, _, _, .leaf hk hc, .leaf _ hd, hs => by
    simp only [skeletonAt, hk, Skeleton.condition.injEq] at hs
    rw [stripped, stripped, stripped_eq_of_readFrom hc hd hs]
  | _, _, _, _, _, .leaf hk _, .group hk' _ _, _ => by rw [hk] at hk'; cases hk'
  | _, _, _, _, _, .group hk _ _, .leaf hk' _, _ => by rw [hk] at hk'; cases hk'
  | _, _, _, _, _, .group hk _ h, .group hk' _ h', hs => by
    rw [hk] at hk'; cases hk'
    simp only [skeletonAt, hk, Skeleton.list.injEq] at hs
    rw [stripped, stripped, h.stripped_eq h' hs]
termination_by structural _ _ _ _ _ h => h

theorem WritesEntries.stripped_eq : ∀ {fields others : Fields} {filters gs : List Filter},
    WritesEntries fields filters → WritesEntries others gs →
      skeletonFields fields = skeletonFields others → allStripped filters = allStripped gs
  | _, _, _, _, .nil, .nil, _ => rfl
  | _, _, _, _, .nil, .cons _ _, hs | _, _, _, _, .cons _ _, .nil, hs => by
    rw [skeletonFields_cons, skeletonFields] at hs; cases hs
  | _, _, _, _, .cons h hr, .cons h' hr', hs => by
    rw [skeletonFields_cons, skeletonFields_cons, List.cons.injEq, Prod.mk.injEq] at hs
    obtain ⟨⟨rfl, he⟩, hs⟩ := hs
    rw [allStripped, allStripped, h.stripped_eq h' he, hr.stripped_eq hr' hs]
termination_by structural _ _ _ _ h => h

theorem WritesItems.stripped_eq : ∀ {items others : List Value} {filters gs : List Filter},
    WritesItems items filters → WritesItems others gs →
      skeletonItems items = skeletonItems others → allStripped filters = allStripped gs
  | _, _, _, _, .nil, .nil, _ => rfl
  | _, _, _, _, .nil, .cons _ _, hs | _, _, _, _, .cons _ _, .nil, hs => by
    rw [skeletonItems, skeletonItems] at hs; cases hs
  | _, _, _, _, .cons h hr, .cons h' hr', hs => by
    rw [skeletonItems, skeletonItems, List.cons.injEq] at hs
    rw [allStripped, allStripped, h.stripped_eq h' hs.1, hr.stripped_eq hr' hs.2]
termination_by structural _ _ _ _ h => h

end

/-- **Values never influence the text.**  Two filters of one skeleton that are accepted
    compile to the same text, and their parameters have the same types. -/
theorem sql_eq_of_skeleton_eq {v w : Value} {start : Nat} {column : String} {c d : Compiled}
    (h : skeleton v = skeleton w) (hv : compile v start column = .ok c)
    (hw : compile w start column = .ok d) :
    c.sql = d.sql ∧ c.bindings.map (·.type) = d.bindings.map (·.type) := by
  obtain ⟨bs, hb, rfl⟩ := (compile_eq_ok_iff column).1 hv
  obtain ⟨cs, hc, rfl⟩ := (compile_eq_ok_iff column).1 hw
  have hs := (writes_ofValue hb).stripped_eq (writes_ofValue hc) h
  constructor
  · simp only [Compiled.sql]
    rw [← predicateAt_stripped, hs, predicateAt_stripped]
  · simp only
    rw [types_stripped hb, types_stripped hc, hs]

/-- A filter of the skeleton of `shoes`. -/
def boots : Value :=
  .object [("brand", .object [("value", .text "' OR $9 = '"), ("operator", .text "eq")]),
    ("$or", .list [
      .object [("size", .object [("operator", .text "gte"), ("value", .text "38.5")]),
        ("sold", .object [("operator", .text "exists"), ("value", .bool true)])],
      .object [("color", .object [("operator", .text "in"), ("value", .list [.null])])]])]

theorem sql_boots : skeleton shoes = skeleton boots ∧ ∃ c d,
    compile shoes 2 "metadata" = .ok c ∧ compile boots 2 "metadata" = .ok d ∧ c.sql = d.sql := by
  have hs : skeleton shoes = skeleton boots := rfl
  have hd : compile boots 2 "metadata" = .ok ⟨shoesCompiled.predicate,
      [⟨.text "' OR $9 = '", .text⟩, ⟨.text "38.5", .numeric⟩, ⟨.list [.null], .textArray⟩], 2⟩ :=
    rfl
  exact ⟨hs, _, _, compile_shoes, hd, (sql_eq_of_skeleton_eq hs compile_shoes hd).1⟩

end VectorStore.Filter
