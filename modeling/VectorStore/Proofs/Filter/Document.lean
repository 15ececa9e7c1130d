/-
  Filters and the documents that write them.

  * `conditionEntries` lists the entries of a document that state a condition, in document
    order;
  * `Writes` relates an accepted document to its filter, entry by entry (`writes_ofValue`);
  * `Writes.leaves`: the conditions of the filter are read from just the listed entries.
-/
import VectorStore.Proofs.Filter.Compilation

namespace VectorStore.Filter

/-! ## Entries -/

mutual

/-- The entries of a filter document that state a condition, in document order. -/
def conditionEntries : Value → List (String × Value)
  | .object fields => fieldEntries fields
  | _ => []

/-- The entries among and below the fields of an object. -/
def fieldEntries : List (String × Value) → List (String × Value)
  | [] => []
  | (key, .list items) :: fields =>
    (match Combinator.ofName? key with
    | none => [(key, .list items)]
    | some _ => itemEntries items) ++ fieldEntries fields
  | (key, raw) :: fields =>
    (match Combinator.ofName? key with
    | none => [(key, raw)]
    | some _ => []) ++ fieldEntries fields

/-- The entries below the items of a list. -/
def itemEntries : List Value → List (String × Value)
  | [] => []
  | v :: items => conditionEntries v ++ itemEntries items

end

/-- The entries among and below one field. -/
def entriesAt (key : String) (raw : Value) : List (String × Value) := fieldEntries [(key, raw)]

/-- The filter that one field writes. -/
def ofEntry (key : String) (raw : Value) : Filter :=
  match Combinator.ofName? key with
  | none => ofCondition key raw
  | some c =>
    match raw with
    | .list items => if items.isEmpty then .refused (.noChildren c) else .group c (ofItems items)
    | _ => .refused (.noChildren c)

theorem ofFields_cons (key : String) (raw : Value) (fields : Fields) :
    ofFields ((key, raw) :: fields) = ofEntry key raw :: ofFields fields := by
  rcases h : Combinator.ofName? key with _ | c
  · cases raw <;> simp [ofFields, ofEntry, h]
  cases raw with
  | list items => cases items <;> simp [ofFields, ofEntry, h, ofCombinator, operands]
  | _ => simp [ofFields, ofEntry, h, ofCombinator, operands]

theorem fieldEntries_cons (key : String) (raw : Value) (fields : Fields) :
    fieldEntries ((key, raw) :: fields) = entriesAt key raw ++ fieldEntries fields := by
  cases raw <;> simp [fieldEntries, entriesAt]

theorem entriesAt_none {key : String} (h : Combinator.ofName? key = none) (raw : Value) :
    entriesAt key raw = [(key, raw)] := by
  cases raw <;> simp [entriesAt, fieldEntries, h]

theorem entriesAt_some {key : String} {c : Combinator} (h : Combinator.ofName? key = some c)
    (items : List Value) : entriesAt key (.list items) = itemEntries items := by
  simp [entriesAt, fieldEntries, h]

/-- The operator that an entry states; a literal stands for equality. -/
def entryOperator : Value → Option Operator
  | .object fields => (Fields.get? fields "operator").bind operatorOf?
  | _ => some .eq

/-- The value that an entry gives. -/
def entryValue : Value → Value
  | .object fields => Fields.orNull fields "value"
  | v => v

/-- A condition is read from an entry. -/
def ReadFrom (e : String × Value) (c : Condition) : Prop := Condition.ofValue e.1 e.2 = .ok c

theorem Condition.ofFields_eq_ok {key : String} {path : Path} {fields : Fields} {c : Condition}
    (h : ofFields key path fields = .ok c) :
    ∃ op, entryOperator (.object fields) = some op ∧
      c = ⟨key, path, op, entryValue (.object fields)⟩ := by
  unfold ofFields at h
  rcases hn : Fields.get? fields "operator" with _ | name <;> simp only [hn] at h
  · cases h
  rcases ho : operatorOf? name with _ | op <;> simp only [ho] at h
  · cases h
  split at h
  · cases h
  · cases h
    exact ⟨op, by simp [entryOperator, hn, ho], rfl⟩

/-- What a condition takes from its entry. -/
theorem ReadFrom.spec {key : String} {raw : Value} {c : Condition} (h : ReadFrom (key, raw) c) :
    ∃ path op, Path.ofText key = .ok path ∧ entryOperator raw = some op ∧
      c = ⟨key, path, op, entryValue raw⟩ := by
  simp only [ReadFrom, Condition.ofValue] at h
  split at h
  · cases h
  rcases hp : Path.ofText key with _ | path <;> rw [hp] at h
  · cases h
  cases raw with
  | object fields =>
    obtain ⟨op, ho, rfl⟩ := Condition.ofFields_eq_ok h
    exact ⟨path, op, rfl, ho, rfl⟩
  | _ => cases h; exact ⟨path, .eq, rfl, rfl, rfl⟩

theorem allParameters_cons {f : Filter} {filters : List Filter} {bs : List Binding}
    (h : allParameters (f :: filters) = .ok bs) :
    (∃ as, parameters f = .ok as) ∧ ∃ cs, allParameters filters = .ok cs := by
  rw [allParameters] at h
  rcases hf : parameters f with _ | as
  · rw [hf] at h; cases h
  rcases hfs : allParameters filters with _ | cs
  · rw [hf, hfs] at h; cases h
  exact ⟨⟨as, rfl⟩, ⟨cs, rfl⟩⟩

/-! ## Accepted documents -/

mutual

/-- An accepted document writes a filter. -/
inductive Writes : Value → Filter → Prop
  | object {fields parts} : parts ≠ [] → WritesEntries fields parts →
      Writes (.object fields) (.entries parts)

/-- An entry writes a condition, or a group of filters. -/
inductive WritesEntry : String → Value → Filter → Prop
  | leaf {key raw c} : Combinator.ofName? key = none → ReadFrom (key, raw) c →
      WritesEntry key raw (.leaf c)
  | group {key k items children} : Combinator.ofName? key = some k → children ≠ [] →
      WritesItems items children → WritesEntry key (.list items) (.group k children)

/-- The entries of an object write filters one by one. -/
inductive WritesEntries : Fields → List Filter → Prop
  | nil : WritesEntries [] []
  | cons {key raw fields f filters} : WritesEntry key raw f → WritesEntries fields filters →
      WritesEntries ((key, raw) :: fields) (f :: filters)

/-- The items of a list write filters one by one. -/
inductive WritesItems : List Value → List Filter → Prop
  | nil : WritesItems [] []
  | cons {v items f filters} : Writes v f → WritesItems items filters →
      WritesItems (v :: items) (f :: filters)

end

theorem ofItems_ne_nil {items : List Value} (h : ¬ items.isEmpty) : ofItems items ≠ [] := by
  cases items with
  | nil => exact absurd rfl h
  | cons => rw [ofItems]; exact List.cons_ne_nil _ _

mutual

/-- **A document whose parameters can be gathered is accepted.** -/
theorem writes_ofValue : ∀ {v : Value} {bs : List Binding}, parameters (ofValue v) = .ok bs →
    Writes v (ofValue v)
  | .object fields, bs, h => by
    rw [ofValue, parameters] at h
    split at h
    · cases h
    · next hn =>
      rw [ofValue]
      exact .object (fun he => hn (by rw [he]; rfl)) (writes_ofFields h)
  | .null, _, h | .bool _, _, h | .int _, _, h | .float _, _, h | .text _, _, h
  | .list _, _, h => by simp [ofValue, parameters] at h

theorem writes_ofEntry {key : String} : ∀ {raw : Value} {bs : List Binding},
    parameters (ofEntry key raw) = .ok bs → WritesEntry key raw (ofEntry key raw)
  | raw, bs, h => by
    rcases hk : Combinator.ofName? key with _ | k
    · simp only [ofEntry, hk, ofCondition] at h ⊢
      rcases hc : Condition.ofValue key raw with _ | c
      · rw [hc, parameters] at h; cases h
      · exact .leaf hk hc
    · cases raw with
      | list items =>
        simp only [ofEntry, hk] at h ⊢
        split at h
        · rw [parameters] at h; cases h
        · next hn =>
          rw [if_neg hn]
          rw [parameters] at h
          exact .group hk (ofItems_ne_nil hn) (writes_ofItems h)
      | _ => simp only [ofEntry, hk, parameters] at h; cases h

theorem writes_ofFields : ∀ {fields : Fields} {bs : List Binding},
    allParameters (ofFields fields) = .ok bs → WritesEntries fields (ofFields fields)
  | [], _, _ => .nil
  | (key, raw) :: fields, bs, h => by
    rw [ofFields_cons] at h ⊢
    obtain ⟨⟨as, hf⟩, ⟨cs, hfs⟩⟩ := allParameters_cons h
    exact .cons (writes_ofEntry hf) (writes_ofFields hfs)

theorem writes_ofItems : ∀ {items : List Value} {bs : List Binding},
    allParameters (ofItems items) = .ok bs → WritesItems items (ofItems items)
  | [], _, _ => .nil
  | v :: items, bs, h => by
    rw [ofItems] at h ⊢
    obtain ⟨⟨as, hf⟩, ⟨cs, hfs⟩⟩ := allParameters_cons h
    exact .cons (writes_ofValue hf) (writes_ofItems hfs)

end

mutual

/-- **The conditions of an accepted filter are read from the entries of its document.** -/
theorem Writes.leaves : ∀ {v : Value} {f : Filter}, Writes v f →
    List.Forall₂ ReadFrom (conditionEntries v) (leaves f)
  | _, _, .object _ h => by rw [conditionEntries, Filter.leaves]; exact h.leaves

theorem WritesEntry.leaves : ∀ {key : String} {raw : Value} {f : Filter}, WritesEntry key raw f →
    List.Forall₂ ReadFrom (entriesAt key raw) (leaves f)
  | _, _, _, .leaf hk hc => by rw [entriesAt_none hk]; exact .cons hc .nil
  | _, _, _, .group hk _ h => by rw [entriesAt_some hk, Filter.leaves]; exact h.leaves

theorem WritesEntries.leaves : ∀ {fields : Fields} {filters : List Filter},
    WritesEntries fields filters → List.Forall₂ ReadFrom (fieldEntries fields) (allLeaves filters)
  | _, _, .nil => .nil
  | _, _, .cons h hs => by
    rw [fieldEntries_cons, allLeaves]
    exact List.rel_append h.leaves hs.leaves

theorem WritesItems.leaves : ∀ {items : List Value} {filters : List Filter},
    WritesItems items filters → List.Forall₂ ReadFrom (itemEntries items) (allLeaves filters)
  | _, _, .nil => .nil
  | _, _, .cons h hs => by
    rw [itemEntries, allLeaves]
    exact List.rel_append h.leaves hs.leaves

end

/-! ## A filter over shoes -/

/-- Red or blue shoes of a brand, or sold ones from size 42 on. -/
def shoesEntries : Fields :=
  [("brand", .text "acme"), ("$or", .list [
    .object [("size", .object [("operator", .text "gte"), ("value", .int 42)]),
      ("sold", .object [("operator", .text "exists")])],
    .object [("color", .object [("operator", .text "in"), ("value", .text "red,blue")])]])]

/-- The filter over shoes. -/
def shoes : Value := .object shoesEntries

/-- The filter over shoes, compiled. -/
def shoesCompiled : Compiled where
  predicate := .group .and [
    .atom ⟨"metadata", ["brand"], .eq, 2⟩,
    .group .or [
      .group .and [.atom ⟨"metadata", ["size"], .gte, 3⟩,
        .atom ⟨"metadata", ["sold"], .present, 4⟩],
      .atom ⟨"metadata", ["color"], .oneOf, 4⟩]]
  bindings := [⟨.text "acme", .text⟩, ⟨.int 42, .numeric⟩,
    ⟨.list [.text "red", .text "blue"], .textArray⟩]
  startIndex := 2

theorem compile_shoes : compile shoes 2 "metadata" = .ok shoesCompiled := rfl

end VectorStore.Filter
