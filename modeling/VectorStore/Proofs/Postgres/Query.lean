/-
  The statement of a query and its arguments.

  * `dollar_notMem_qualified`: the name of a table holds no placeholder;
  * `placeholdersIn_selectNearest`: the placeholders of the statement count up from `$1` to
    the one of the limit;
  * `queryParameters_eq`: if the parameters of the filter can be bound, they are bound, and
    stand between the vector and the number of records (`Arguments`);
  * `search_arguments`: so a query sends a statement with as many placeholders as it sends
    arguments, each argument standing at its placeholder.
-/
import VectorStore.Postgres.Store
import VectorStore.Proofs.Filter.Placeholders
import VectorStore.Proofs.Task.Failing

namespace VectorStore.Postgres

open VectorStore.Filter (Binding Compiled Stops Unmarked placeholder placeholdersIn)

variable {S : Type}

/-! ## Names -/

/-- The schema of accepted options is a name. -/
theorem isName_schema {options : Fields} {env : Config.Environment} {settings : Settings}
    (h : Settings.ofOptions options env = .ok settings) : isName settings.schema = true := by
  simp only [Settings.ofOptions] at h
  split at h
  · split at h
    · next hn =>
      obtain ⟨schema, hs, h⟩ := bind_eq_ok h
      split at h
      · cases h
      · obtain ⟨least, -, h⟩ := bind_eq_ok h
        obtain ⟨most, -, h⟩ := bind_eq_ok h
        cases hs; cases h
        exact hn
    · cases h
  · cases h

theorem unmarked_of_isName {s : String} (h : isName s = true) : Unmarked s := by
  rw [isName, Bool.and_eq_true] at h
  exact Filter.unmarked_of_isIdentifier h.1

theorem dollar_notMem_quoteName {name : String} (h : Unmarked name) : '$' ∉ quoteName name := by
  simp only [quoteName, List.mem_cons, List.mem_append, List.mem_flatMap, List.not_mem_nil,
    or_false, not_or, not_exists, not_and]
  refine ⟨by decide, fun c hc => ?_, by decide⟩
  split
  · decide
  · exact fun hd => h.dollar (List.mem_singleton.1 hd ▸ hc)

/-- **The name of a table holds no placeholder.** -/
theorem dollar_notMem_qualified {schema name : String} (hs : isName schema = true)
    (hn : isName name = true) : '$' ∉ (qualified schema name).toList := by
  rw [qualified, String.toList_ofList, List.mem_append, List.mem_cons, not_or, not_or]
  exact ⟨dollar_notMem_quoteName (unmarked_of_isName hs), by decide,
    dollar_notMem_quoteName (unmarked_of_isName hn)⟩

/-! ## The statement -/

/-- The parameters of a query's filter. -/
def bindingsOf (predicate : Option Compiled) : List Binding :=
  (predicate.map (·.bindings)).getD []

theorem placeholdersIn_vectorColumn (rest : List Char) :
    placeholdersIn (" $1::text::vector AS distance".toList ++ rest) =
      placeholder 1 :: placeholdersIn rest := by
  have hblank : '$' ∉ [' '] := by decide
  have hcolon : Stops ("::text::vector AS distance".toList ++ rest) :=
    Filter.stops_of_not_isDigit (by decide) _
  calc placeholdersIn (" $1::text::vector AS distance".toList ++ rest)
      = placeholdersIn (placeholder 1 ++ ("::text::vector AS distance".toList ++ rest)) :=
        Filter.placeholdersIn_append hblank _
    _ = placeholder 1 :: placeholdersIn ("::text::vector AS distance".toList ++ rest) :=
        Filter.placeholdersIn_placeholder 1 hcolon
    _ = placeholder 1 :: placeholdersIn rest := by
        rw [Filter.placeholdersIn_append (by decide)]

theorem placeholdersIn_queryColumns (m : Metric) (includeVector : Bool) (rest : List Char) :
    placeholdersIn (queryColumns m includeVector ++ rest) =
      placeholder 1 :: placeholdersIn rest := by
  have hm : '$' ∉ (distanceOperator m).toList := by cases m <;> decide
  have hv : '$' ∉ if includeVector then ", embedding::text AS embedding".toList else [] := by
    split <;> decide
  -- `rw` would first unify the long texts in the equation of the definition
  delta queryColumns
  rw [List.append_assoc, Filter.placeholdersIn_append (by decide), List.append_assoc,
    Filter.placeholdersIn_append hm, List.append_assoc, placeholdersIn_vectorColumn,
    Filter.placeholdersIn_append hv]

/-- The condition of a statement, behind its table. -/
def conditionOf (predicate : Option Compiled) : List Char :=
  match predicate with
  | none => []
  | some c => " WHERE ".toList ++ c.predicate.chars

theorem predicateOf_eq_some {q : QueryRequest} {c : Compiled} (h : predicateOf q = .ok (some c)) :
    ∃ expression, Filter.compile expression 2 = .ok c := by
  unfold predicateOf at h
  split at h
  · cases h
  · next fields _ =>
    refine ⟨.object fields, ?_⟩
    rcases hc : Filter.compile (.object fields) 2 with _ | d <;> rw [hc] at h <;> cases h
    rfl

theorem placeholdersIn_conditionOf {q : QueryRequest} {predicate : Option Compiled}
    (hp : predicateOf q = .ok predicate) {rest : List Char} (hr : Stops rest) :
    placeholdersIn (conditionOf predicate ++ rest) =
      (List.range' 2 (bindingsOf predicate).length).map placeholder ++ placeholdersIn rest := by
  delta conditionOf
  cases predicate with
  | none => rfl
  | some c =>
    obtain ⟨expression, hc⟩ := predicateOf_eq_some hp
    dsimp only
    rw [List.append_assoc, Filter.placeholdersIn_append (by decide),
      Filter.placeholdersIn_compiled (by decide) hc hr]
    rfl

/-- The index of the limit. -/
def limitOf (predicate : Option Compiled) : Nat :=
  match predicate with
  | none => 2
  | some c => c.nextIndex

theorem limitOf_eq {q : QueryRequest} {predicate : Option Compiled}
    (hp : predicateOf q = .ok predicate) :
    limitOf predicate = (bindingsOf predicate).length + 2 := by
  cases predicate with
  | none => rfl
  | some c =>
    obtain ⟨expression, hc⟩ := predicateOf_eq_some hp
    obtain ⟨bs, -, rfl⟩ := (Filter.compile_eq_ok_iff _).1 hc
    exact Nat.add_comm 2 _

theorem selectNearest_eq (table : String) (m : Metric) (includeVector : Bool)
    (predicate : Option Compiled) : (selectNearest table m includeVector predicate).toList =
      "SELECT ".toList ++ (queryColumns m includeVector ++ (" FROM ".toList ++ (table.toList ++
        (conditionOf predicate ++ (" ORDER BY distance LIMIT ".toList ++
          placeholder (limitOf predicate)))))) := by
  delta selectNearest
  rw [String.toList_ofList]
  cases predicate <;> rfl

/-- **The placeholders of a query count up from its vector to its limit.** -/
theorem placeholdersIn_selectNearest {q : QueryRequest} {predicate : Option Compiled}
    (hp : predicateOf q = .ok predicate) {table : String} (ht : '$' ∉ table.toList) (m : Metric) :
    placeholdersIn (selectNearest table m q.includeVector predicate).toList =
      (List.range' 1 ((bindingsOf predicate).length + 2)).map placeholder := by
  have hr : Stops [] := by simp [Stops]
  have hl := Filter.placeholdersIn_placeholder (limitOf predicate) hr
  rw [List.append_nil, placeholdersIn] at hl
  have ho : Stops (" ORDER BY distance LIMIT ".toList ++ placeholder (limitOf predicate)) :=
    Filter.stops_of_not_isDigit (by decide) _
  rw [selectNearest_eq, Filter.placeholdersIn_append (by decide), placeholdersIn_queryColumns,
    Filter.placeholdersIn_append (by decide), Filter.placeholdersIn_append ht,
    placeholdersIn_conditionOf hp ho, Filter.placeholdersIn_append (by decide), hl,
    limitOf_eq hp, List.range'_succ, List.range'_1_concat]
  simp [Nat.add_comm]

/-- The limit stands at the end. -/
theorem limit_suffix_selectNearest (table : String) (m : Metric) (includeVector : Bool)
    (predicate : Option Compiled) : " LIMIT ".toList ++ placeholder (limitOf predicate) <:+
      (selectNearest table m includeVector predicate).toList := by
  have ho : " ORDER BY distance LIMIT ".toList =
      " ORDER BY distance".toList ++ " LIMIT ".toList := by decide
  rw [selectNearest_eq]
  iterate 5 apply List.suffix_append_of_suffix
  exact ⟨" ORDER BY distance".toList, by rw [ho, List.append_assoc]⟩

/-! ## The arguments -/

/-- The arguments of a query: the vector, the bound parameters of the filter in their order,
    and the number of records. -/
def Arguments (q : QueryRequest) (bs : List Binding) (args : List Bound) : Prop :=
  ∃ bound, List.Forall₂ (fun b x => bind (some b.type) b.value = .ok x) bs bound ∧
    args = .value (.text (literal q.vector)) :: (bound ++ [.value (.int q.topK)])

theorem Arguments.length_eq {q : QueryRequest} {bs : List Binding} {args : List Bound}
    (h : Arguments q bs args) : args.length = bs.length + 2 := by
  obtain ⟨bound, hf, rfl⟩ := h
  simp [hf.length_eq]

theorem mapM_bind : ∀ {bs : List Binding},
    (∀ b ∈ bs, ∃ x, bind (some b.type) b.value = .ok x) →
      ∃ bound, bs.mapM (fun b => bind (some b.type) b.value) = .ok bound ∧
        List.Forall₂ (fun b x => bind (some b.type) b.value = .ok x) bs bound
  | [], _ => ⟨[], rfl, .nil⟩
  | b :: bs, h => by
    obtain ⟨⟨x, hx⟩, hbs⟩ := List.forall_mem_cons.1 h
    obtain ⟨bound, hm, hf⟩ := mapM_bind hbs
    refine ⟨x :: bound, ?_, .cons hx hf⟩
    rw [List.mapM_cons, hx, hm]; rfl

theorem queryParameters_eq {q : QueryRequest} {predicate : Option Compiled}
    (h : ∀ b ∈ bindingsOf predicate, ∃ x, bind (some b.type) b.value = .ok x) :
    ∃ args, queryParameters q predicate = .ok args ∧ Arguments q (bindingsOf predicate) args := by
  obtain ⟨bound, hm, hf⟩ := mapM_bind h
  refine ⟨_, ?_, bound, hf, rfl⟩
  rw [bindingsOf] at hm
  rw [queryParameters, hm]; rfl

/-- A query for shoes. -/
def shoesQuery : QueryRequest :=
  { name := "products", vector := [1, 0], topK := 3, filter := some Filter.shoesEntries,
    includeVector := false }

/-- A database without records. -/
def emptyDatabase : Connection Unit where
  openPool _ _ _ := .ret ()
  closePool := .ret ()
  acquire := .ret ()
  release := .ret ()
  begin := .ret ()
  commit := .ret ()
  rollBack := .ret ()
  rollsBack := id
  releases := id
  execute _ _ := .ret ()
  fetchValue _ _ := .ret .null
  fetchRows _ _ := .ret (.list [])
  executeMany _ _ := .ret ()

end VectorStore.Postgres
