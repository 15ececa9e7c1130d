/-
  Metrics in the definitions of indexes.

  * `Text.occurs_append`, `Text.occurs_append_cons`: a text occurs in a longer one if it does in
    one of two parts of it, unless it straddles them;
  * `keyDefinition` and `vectorDefinition` are the definitions that the catalog has of a table;
    what an operator class occurs in is a name, or the class itself
    (`occursIn_keyDefinition`, `occursIn_vectorDefinition`);
  * `metricOf_definitions`: so they encode the metric of the table, or one that the schema or
    the table is named after (`namedMetric?`).
-/
import Mathlib.Data.List.Infix
import VectorStore.Postgres.Statement

namespace VectorStore

/-! ## Occurrences -/

namespace Text

theorem occurs_iff {part cs : List Char} : occurs part cs = true ↔ part <:+: cs := by
  induction cs with
  | nil => simp [occurs]
  | cons c cs ih => rw [occurs, Bool.or_eq_true, List.isPrefixOf_iff_prefix, ih, List.infix_cons_iff]

/-- A text does not straddle the place before another one: no proper end of it begins that. -/
def Clear (part next : List Char) : Prop := ∀ q ∈ part.tails, q ≠ part → q <+: next → q = []

instance (part next : List Char) : Decidable (Clear part next) :=
  inferInstanceAs (Decidable (∀ q ∈ part.tails, _))

theorem prefix_append_of_clear {part a b : List Char} (h : Clear part b) (ha : a ≠ [])
    (hp : part <+: a ++ b) : part <+: a := by
  rcases List.prefix_or_prefix_of_prefix hp (List.prefix_append a b) with hp | ⟨q, rfl⟩
  · exact hp
  · have hq : q <+: b := (List.prefix_append_right_inj a).1 hp
    have hne : q ≠ a ++ q := fun he => ha (List.append_left_eq_self.1 he.symm)
    rw [h q ((List.mem_tails _ _).2 (List.suffix_append a q)) hne hq, List.append_nil]

theorem occurs_append {part : List Char} (a : List Char) {b : List Char} (h : Clear part b) :
    occurs part (a ++ b) = (occurs part a || occurs part b) := by
  rw [Bool.eq_iff_iff, Bool.or_eq_true, occurs_iff, occurs_iff, occurs_iff]
  induction a with
  | nil =>
    rw [List.nil_append, List.infix_nil]
    exact ⟨.inr, fun hp => hp.elim (fun he => he ▸ List.nil_infix) id⟩
  | cons c a ih =>
    rw [List.cons_append, List.infix_cons_iff, ih, List.infix_cons_iff, or_assoc]
    refine or_congr_left ⟨fun hp => ?_, fun hp => ?_⟩
    · exact prefix_append_of_clear h (List.cons_ne_nil c a) hp
    · exact hp.trans (List.prefix_append (c :: a) b)

/-- A text does not straddle a character that it does not have. -/
theorem occurs_append_cons {part : List Char} (hne : part ≠ []) (a : List Char) {c : Char}
    (hc : c ∉ part) (b : List Char) :
    occurs part (a ++ c :: b) = (occurs part a || occurs part b) := by
  have hmem {q : List Char} (hq : q ≠ []) (hp : q <+: c :: b) : c ∈ q := by
    cases q with
    | nil => exact absurd rfl hq
    | cons d q => rw [(List.cons_prefix_cons.1 hp).1]; exact List.mem_cons_self
  have hclear : Clear part (c :: b) := fun q hq _ hp => by
    by_contra hn
    exact hc (((List.mem_tails _ _).1 hq).subset (hmem hn hp))
  have hfirst : part.isPrefixOf (c :: b) = false := by
    rw [← Bool.not_eq_true, List.isPrefixOf_iff_prefix]
    exact fun hp => hc (hmem hne hp)
  rw [occurs_append a hclear, occurs.eq_2, hfirst, Bool.false_or]

end Text

namespace Postgres

open Text (occurs occursIn)

/-! ## Operator classes -/

/-- The operator class of a metric. -/
def operatorClass (m : Metric) : String := Mapper.pgvector.toNative m

theorem operatorClass_ne_nil (m : Metric) : (operatorClass m).toList ≠ [] := by
  cases m <;> decide

/-- An operator class stands in one of two words with a blank between them. -/
theorem occurs_blank (m : Metric) (a b : List Char) : occurs (operatorClass m).toList
    (a ++ ' ' :: b) = (occurs (operatorClass m).toList a || occurs (operatorClass m).toList b) :=
  Text.occurs_append_cons (operatorClass_ne_nil m) a (by cases m <;> decide) b

@[inherit_doc occurs_blank]
theorem occurs_dot (m : Metric) (a b : List Char) : occurs (operatorClass m).toList
    (a ++ '.' :: b) = (occurs (operatorClass m).toList a || occurs (operatorClass m).toList b) :=
  Text.occurs_append_cons (operatorClass_ne_nil m) a (by cases m <;> decide) b

/-! ## Definitions -/

/-- How the catalog writes the definition of an index over a table. -/
def definition (kind suffix method schema name : String) : String :=
  String.ofList ("CREATE".toList ++ ' ' :: (kind.toList ++ ' ' :: ((name.toList ++ suffix.toList) ++
    ' ' :: ("ON".toList ++ ' ' :: (schema.toList ++ '.' :: (name.toList ++
      ' ' :: ("USING".toList ++ ' ' :: method.toList)))))))

/-- The definition of the index over a table's ids. -/
def keyDefinition (schema name : String) : String :=
  definition "UNIQUE INDEX" "_pkey" "btree (id)" schema name

/-- The definition of the index over a table's vectors. -/
def vectorDefinition (schema name : String) (m : Metric) : String :=
  definition "INDEX" "_embedding_idx" s!"hnsw (embedding {operatorClass m})" schema name

/-- Whether a schema or a table is named after a metric's operator class. -/
def isNamedAfter (schema name : String) (m : Metric) : Bool :=
  occursIn (operatorClass m) schema || occursIn (operatorClass m) name

/-- The first metric that a schema or a table is named after. -/
def namedMetric? (schema name : String) : Option Metric :=
  Metric.all.find? (isNamedAfter schema name)

example : keyDefinition "public" "docs" =
    "CREATE UNIQUE INDEX docs_pkey ON public.docs USING btree (id)" := by decide

example : vectorDefinition "public" "docs" .euclidean =
    "CREATE INDEX docs_embedding_idx ON public.docs USING hnsw (embedding vector_l2_ops)" := by
  decide

theorem toList_definition (kind suffix method schema name : String) :
    (definition kind suffix method schema name).toList = "CREATE".toList ++ ' ' ::
      (kind.toList ++ ' ' :: ((name.toList ++ suffix.toList) ++ ' ' :: ("ON".toList ++ ' ' ::
        (schema.toList ++ '.' :: (name.toList ++ ' ' :: ("USING".toList ++ ' ' ::
          method.toList)))))) :=
  String.toList_ofList

/-- A definition has an operator class in the names or in the method. -/
theorem occursIn_definition {kind suffix : String} (m : Metric) (method schema name : String)
    (hkind : occurs (operatorClass m).toList kind.toList = false)
    (hsuffix : occurs (operatorClass m).toList suffix.toList = false)
    (hclear : Text.Clear (operatorClass m).toList suffix.toList) :
    occursIn (operatorClass m) (definition kind suffix method schema name) =
      (isNamedAfter schema name m || occursIn (operatorClass m) method) := by
  have hcreate : occurs (operatorClass m).toList "CREATE".toList = false := by cases m <;> decide
  have hon : occurs (operatorClass m).toList "ON".toList = false := by cases m <;> decide
  have husing : occurs (operatorClass m).toList "USING".toList = false := by cases m <;> decide
  rw [occursIn, toList_definition]
  -- `rw` would unfold the texts of the words to find a gap in them
  generalize "CREATE".toList = w₁ at hcreate ⊢
  generalize "ON".toList = w₂ at hon ⊢
  generalize "USING".toList = w₃ at husing ⊢
  simp only [occurs_blank, occurs_dot]
  rw [Text.occurs_append _ hclear, hcreate, hon, husing, hkind, hsuffix, isNamedAfter, occursIn,
    occursIn, occursIn]
  generalize occurs (operatorClass m).toList name.toList = inName
  cases inName <;> simp

theorem occursIn_keyDefinition (schema name : String) (m : Metric) :
    occursIn (operatorClass m) (keyDefinition schema name) = isNamedAfter schema name m := by
  have hmethod : occursIn (operatorClass m) "btree (id)" = false := by cases m <;> decide
  rw [keyDefinition, occursIn_definition m _ schema name (by cases m <;> decide)
    (by cases m <;> decide) (by cases m <;> decide), hmethod, Bool.or_false]

theorem occursIn_vectorDefinition (schema name : String) (m k : Metric) :
    occursIn (operatorClass k) (vectorDefinition schema name m) =
      (isNamedAfter schema name k || decide (k = m)) := by
  have hmethod : occursIn (operatorClass k) s!"hnsw (embedding {operatorClass m})" =
      decide (k = m) := by
    cases m <;> cases k <;> decide
  rw [vectorDefinition, occursIn_definition k _ schema name (by cases k <;> decide)
    (by cases k <;> decide) (by cases k <;> decide), hmethod]

/-! ## Metrics -/

theorem metricIn_eq (definition : String) : metricIn definition =
    Metric.all.find? fun m => occursIn (operatorClass m) definition := rfl

theorem metricIn_keyDefinition (schema name : String) :
    metricIn (keyDefinition schema name) = namedMetric? schema name := by
  simp only [metricIn_eq, occursIn_keyDefinition, namedMetric?]

/-- The first metric that has a property or is a given one is that one or the first that has it. -/
theorem find?_or_eq {l : List Metric} (p : Metric → Bool) {m : Metric} (hm : m ∈ l) :
    ∃ k, (l.find? fun k => p k || decide (k = m)) = some k ∧ (k = m ∨ l.find? p = some k) := by
  induction l with
  | nil => cases hm
  | cons a l ih =>
    by_cases ha : p a = true
    · exact ⟨a, by simp [ha], .inr (by simp [ha])⟩
    · by_cases he : a = m
      · exact ⟨a, by simp [he], .inl he⟩
      · obtain ⟨k, hk, hkm⟩ := ih ((List.mem_cons.1 hm).resolve_left (Ne.symm he))
        exact ⟨k, by simpa [ha, he] using hk, by simpa [ha] using hkm⟩

/-- The definition of the vectors' index encodes the table's metric, unless it is named after one
    that is tried before. -/
theorem metricIn_vectorDefinition (schema name : String) (m : Metric) :
    ∃ k, metricIn (vectorDefinition schema name m) = some k ∧
      (k = m ∨ namedMetric? schema name = some k) := by
  simp only [metricIn_eq, occursIn_vectorDefinition, namedMetric?]
  exact find?_or_eq (isNamedAfter schema name) (Metric.mem_all m)

/-- **The definitions of a table encode its metric or the one that it is named after**, in
    whatever order they come. -/
theorem metricOf_definitions {schema name : String} {m : Metric} {definitions : List String}
    (h : definitions.Perm [vectorDefinition schema name m, keyDefinition schema name]) :
    ∃ k, metricOf definitions = some k ∧ (k = m ∨ namedMetric? schema name = some k) := by
  obtain ⟨v, hv, hvm⟩ := metricIn_vectorDefinition schema name m
  have hsome : (metricOf definitions).isSome = true :=
    List.findSome?_isSome_iff.2 ⟨_, h.mem_iff.2 List.mem_cons_self, by rw [hv]; rfl⟩
  obtain ⟨k, hk⟩ := Option.isSome_iff_exists.1 hsome
  refine ⟨k, hk, ?_⟩
  obtain ⟨d, hd, hdk⟩ := List.exists_of_findSome?_eq_some hk
  rcases List.mem_pair.1 (h.mem_iff.1 hd) with rfl | rfl
  · rw [hv] at hdk
    cases hdk
    exact hvm
  · rw [metricIn_keyDefinition] at hdk
    exact .inr hdk

end Postgres

end VectorStore
