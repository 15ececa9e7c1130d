/-
  What a compiled filter means.

  * `Formula.value` evaluates a formula in the three-valued logic of SQL, each atom having
    the truth value of its position; it is true where `Formula.holds`, which takes unknown
    for false, is (`isTrue_value`);
  * `holds` evaluates a filter with two values, and a stored document is matched the same
    way (`matchFilter_eq_holds`);
  * `Whole` filters have no flaw and no empty group: just those have a predicate whose
    formula holds where they do (`holds_formula`);
  * `read_sql_true_iff`: the text of a compiled filter, read back, is true just where the
    filter holds.
-/
import VectorStore.Memory.Match
import VectorStore.Proofs.Filter.Reading

namespace VectorStore

/-! ## Truth values -/

/-- A truth value of SQL, `none` being unknown. -/
abbrev Truth := Option Bool

/-- Whether a truth value is true; unknown is not. -/
def Truth.isTrue (t : Truth) : Bool := t == some true

namespace Combinator

/-- The connective in three-valued logic. -/
def truth : Combinator → Truth → Truth → Truth
  | and, some false, _ | and, _, some false => some false
  | and, some true, some true => some true
  | or, some true, _ | or, _, some true => some true
  | or, some false, some false => some false
  | _, _, _ => none

/-- The connective in two-valued logic. -/
def bool : Combinator → Bool → Bool → Bool
  | and, a, b => a && b
  | or, a, b => a || b

/-- The value of no parts. -/
def unit : Combinator → Bool
  | and => true
  | or => false

theorem isTrue_truth (k : Combinator) (a b : Truth) :
    (k.truth a b).isTrue = k.bool a.isTrue b.isTrue := by
  rcases a with _ | _ | _ <;> rcases b with _ | _ | _ <;> cases k <;> rfl

theorem bool_unit (k : Combinator) (a : Bool) : k.bool a k.unit = a := by
  cases k <;> cases a <;> rfl

theorem bool_assoc (k : Combinator) (a b c : Bool) :
    k.bool (k.bool a b) c = k.bool a (k.bool b c) := by
  cases k <;> cases a <;> rfl

theorem bool_mono (k : Combinator) {a a' b b' : Bool} (ha : a = true → a' = true)
    (hb : b = true → b' = true) (h : k.bool a b = true) : k.bool a' b' = true := by
  cases k <;> simp only [bool, Bool.and_eq_true, Bool.or_eq_true] at h ⊢
  · exact h.imp ha hb
  · exact h.imp ha hb

end Combinator

namespace Filter

/-! ## Values of formulas -/

/-- The atoms of a formula from left to right. -/
def Formula.atoms : Formula → List (List Char)
  | .atom text => [text]
  | .join _ left right => left.atoms ++ right.atoms

/-- The value of a formula whose first atom has the given position. -/
def Formula.value (v : Nat → Truth) : Nat → Formula → Truth
  | i, .atom _ => v i
  | i, .join k left right =>
    k.truth (left.value v i) (right.value v (i + left.atoms.length))

/-- Whether a formula holds, each atom being true or false. -/
def Formula.holds (b : Nat → Bool) : Nat → Formula → Bool
  | i, .atom _ => b i
  | i, .join k left right => k.bool (left.holds b i) (right.holds b (i + left.atoms.length))

/-- **Unknown counts as false.** -/
theorem isTrue_value (v : Nat → Truth) : ∀ (i : Nat) (f : Formula),
    (f.value v i).isTrue = f.holds (fun j => (v j).isTrue) i
  | i, .atom _ => rfl
  | i, .join k left right => by
    rw [Formula.value, Formula.holds, k.isTrue_truth, isTrue_value v i left, isTrue_value v _ right]

/-- Formulas in a row, put together by a connective. -/
def Formula.holdsAll (b : Nat → Bool) (k : Combinator) : Nat → List Formula → Bool
  | _, [] => k.unit
  | i, f :: fs => k.bool (f.holds b i) (holdsAll b k (i + f.atoms.length) fs)

theorem atoms_foldl (k : Combinator) (f : Formula) (fs : List Formula) :
    (fs.foldl (.join k) f).atoms = f.atoms ++ fs.flatMap Formula.atoms := by
  induction fs generalizing f with
  | nil => simp
  | cons g fs ih => rw [List.foldl_cons, ih, Formula.atoms, List.flatMap_cons, List.append_assoc]

theorem holds_foldl (b : Nat → Bool) (k : Combinator) (i : Nat) (f : Formula)
    (fs : List Formula) : (fs.foldl (.join k) f).holds b i =
      k.bool (f.holds b i) (Formula.holdsAll b k (i + f.atoms.length) fs) := by
  induction fs generalizing f with
  | nil => exact (k.bool_unit _).symm
  | cons g fs ih =>
    rw [List.foldl_cons, ih, Formula.holds, k.bool_assoc, Formula.holdsAll, Formula.atoms,
      List.length_append, Nat.add_assoc]

theorem atoms_chain (k : Combinator) : ∀ {fs : List Formula}, fs ≠ [] →
    (Formula.chain k fs).atoms = fs.flatMap Formula.atoms
  | [], h => absurd rfl h
  | f :: fs, _ => atoms_foldl k f fs

theorem holds_chain (b : Nat → Bool) (k : Combinator) (i : Nat) : ∀ {fs : List Formula}, fs ≠ [] →
    (Formula.chain k fs).holds b i = Formula.holdsAll b k i fs
  | [], h => absurd rfl h
  | f :: fs, _ => holds_foldl b k i f fs

/-! ## Filters -/

mutual

/-- Whether a filter holds whose first condition has the given position. -/
def holds (b : Nat → Bool) : Nat → Filter → Bool
  | i, .entries parts => holdsParts b .and i parts
  | i, .group k children => holdsParts b k i children
  | i, .leaf _ => b i
  | _, .refused _ | _, .foreign _ => false

/-- Several filters, put together by a connective. -/
def holdsParts (b : Nat → Bool) (k : Combinator) : Nat → List Filter → Bool
  | _, [] => k.unit
  | i, f :: filters => k.bool (holds b i f) (holdsParts b k (i + (leaves f).length) filters)

end

mutual

/-- A filter holds still if more of its conditions do. -/
theorem holds_mono {b b' : Nat → Bool} (h : ∀ i, b i = true → b' i = true) :
    ∀ {i : Nat} {f : Filter}, holds b i f = true → holds b' i f = true
  | _, .entries _, hf => holdsParts_mono h .and hf
  | _, .group k _, hf => holdsParts_mono h k hf
  | i, .leaf _, hf => h i hf
  | _, .refused _, hf | _, .foreign _, hf => by cases hf

theorem holdsParts_mono {b b' : Nat → Bool} (h : ∀ i, b i = true → b' i = true)
    (k : Combinator) : ∀ {i : Nat} {filters : List Filter},
      holdsParts b k i filters = true → holdsParts b' k i filters = true
  | _, [], hf => hf
  | i, f :: filters, hf => by
    rw [holdsParts] at hf ⊢
    exact k.bool_mono (holds_mono h) (holdsParts_mono h k) hf

end

/-- A filter without flaws and without empty groups. -/
inductive Whole : Filter → Prop
  | entries {parts} : parts ≠ [] → (∀ f ∈ parts, Whole f) → Whole (.entries parts)
  | group {k children} : children ≠ [] → (∀ f ∈ children, Whole f) → Whole (.group k children)
  | leaf {c} : Whole (.leaf c)

mutual

/-- **An accepted filter is whole.** -/
theorem Writes.whole : ∀ {v : Value} {f : Filter}, Writes v f → Whole f
  | _, _, .object hn h => .entries hn h.whole

theorem WritesEntry.whole : ∀ {key : String} {raw : Value} {f : Filter}, WritesEntry key raw f →
    Whole f
  | _, _, _, .leaf _ _ => .leaf
  | _, _, _, .group _ hn h => .group hn h.whole

theorem WritesEntries.whole : ∀ {fields : Fields} {filters : List Filter},
    WritesEntries fields filters → ∀ f ∈ filters, Whole f
  | _, _, .nil => by simp
  | _, _, .cons h hs => List.forall_mem_cons.2 ⟨h.whole, hs.whole⟩

theorem WritesItems.whole : ∀ {items : List Value} {filters : List Filter},
    WritesItems items filters → ∀ f ∈ filters, Whole f
  | _, _, .nil => by simp
  | _, _, .cons h hs => List.forall_mem_cons.2 ⟨h.whole, hs.whole⟩

end

/-! ## Predicates -/

theorem formula_conjunction (parts : List Predicate) :
    (conjunction parts).formula = .chain .and (formulas parts) := by
  unfold conjunction
  split <;> rfl

theorem formulas_ne_nil {column : String} {index : Nat} {filters : List Filter}
    (h : filters ≠ []) : formulas (predicatesAt column index filters) ≠ [] := by
  cases filters with
  | nil => exact absurd rfl h
  | cons => simp [predicatesAt, formulas]

theorem length_fragmentsFrom (column : String) (index : Nat) (cs : List Condition) :
    (fragmentsFrom column index cs).length = cs.length := by
  induction cs generalizing index with
  | nil => rfl
  | cons c cs ih => rw [fragmentsFrom, List.length_cons, List.length_cons, ih]

variable (column : String)

mutual

/-- **The atoms are the conditions in document order.** -/
theorem atoms_formula : ∀ (index : Nat) {f : Filter}, Whole f →
    (predicateAt column index f).formula.atoms =
      (fragmentsFrom column index (leaves f)).map Fragment.chars
  | index, .entries parts, .entries hn hw => by
    rw [predicateAt, formula_conjunction, atoms_chain _ (formulas_ne_nil hn), leaves,
      atoms_formulas index hw]
  | index, .group k children, .group hn hw => by
    rw [predicateAt, Predicate.formula, atoms_chain _ (formulas_ne_nil hn), leaves,
      atoms_formulas index hw]
  | index, .leaf c, _ => rfl

theorem atoms_formulas : ∀ (index : Nat) {filters : List Filter}, (∀ f ∈ filters, Whole f) →
    (formulas (predicatesAt column index filters)).flatMap Formula.atoms =
      (fragmentsFrom column index (allLeaves filters)).map Fragment.chars
  | index, [], _ => rfl
  | index, f :: filters, hw => by
    obtain ⟨hf, hfs⟩ := List.forall_mem_cons.1 hw
    rw [predicatesAt, formulas, List.flatMap_cons, allLeaves, fragmentsFrom_append,
      List.map_append, atoms_formula index hf, atoms_formulas _ hfs]

end

theorem length_atoms (index : Nat) {f : Filter} (h : Whole f) :
    (predicateAt column index f).formula.atoms.length = (leaves f).length := by
  rw [atoms_formula column index h, List.length_map, length_fragmentsFrom]

variable (b : Nat → Bool)

mutual

/-- **The formula of a predicate holds where the filter does.** -/
theorem holds_formula : ∀ (index i : Nat) {f : Filter}, Whole f →
    (predicateAt column index f).formula.holds b i = holds b i f
  | index, i, .entries parts, .entries hn hw => by
    rw [predicateAt, formula_conjunction, holds_chain b _ i (formulas_ne_nil hn), holds,
      holdsAll_formulas .and index i hw]
  | index, i, .group k children, .group hn hw => by
    rw [predicateAt, Predicate.formula, holds_chain b _ i (formulas_ne_nil hn), holds,
      holdsAll_formulas k index i hw]
  | index, i, .leaf c, _ => rfl

theorem holdsAll_formulas (k : Combinator) : ∀ (index i : Nat) {filters : List Filter},
    (∀ f ∈ filters, Whole f) →
      Formula.holdsAll b k i (formulas (predicatesAt column index filters)) =
        holdsParts b k i filters
  | index, i, [], _ => rfl
  | index, i, f :: filters, hw => by
    obtain ⟨hf, hfs⟩ := List.forall_mem_cons.1 hw
    rw [predicatesAt, formulas, Formula.holdsAll, holdsParts, length_atoms column index hf,
      holds_formula index i hf, holdsAll_formulas k _ _ hfs]

end

/-! ## Stored documents -/

/-- A stored document answers conditions in a row, the first one having the given position. -/
def Answers (doc : Value) (b : Nat → Bool) (i : Nat) (cs : List Condition) : Prop :=
  ∀ j c, cs[j]? = some c → Memory.matchCondition doc c = .ok (b (i + j))

theorem answers_append {doc : Value} {b : Nat → Bool} {i : Nat} {cs ds : List Condition}
    (h : Answers doc b i (cs ++ ds)) :
    Answers doc b i cs ∧ Answers doc b (i + cs.length) ds := by
  refine ⟨fun j c hc => h j c ?_, fun j c hc => ?_⟩
  · rw [List.getElem?_append_left (List.getElem?_eq_some_iff.1 hc).1, hc]
  · have hj := h (cs.length + j) c
    rw [List.getElem?_append_right (Nat.le_add_right _ _), Nat.add_sub_cancel_left,
      ← Nat.add_assoc] at hj
    exact hj hc

variable {doc : Value} {b : Nat → Bool}

mutual

/-- **A stored document is matched by the two-valued evaluation.** -/
theorem matchFilter_eq_holds : ∀ {i : Nat} {f : Filter}, Whole f → Answers doc b i (leaves f) →
    Memory.matchFilter doc f = .ok (holds b i f)
  | _, .entries _, .entries _ hw, h => matchAll_eq_holdsParts hw h
  | _, .group .and _, .group _ hw, h => matchAll_eq_holdsParts hw h
  | _, .group .or _, .group _ hw, h => matchAny_eq_holdsParts hw h
  | _, .leaf c, _, h => h 0 c rfl

theorem matchAll_eq_holdsParts : ∀ {i : Nat} {filters : List Filter}, (∀ f ∈ filters, Whole f) →
    Answers doc b i (allLeaves filters) →
      Memory.matchAll doc filters = .ok (holdsParts b .and i filters)
  | i, [], _, _ => rfl
  | i, f :: filters, hw, h => by
    obtain ⟨hf, hfs⟩ := List.forall_mem_cons.1 hw
    obtain ⟨ha, has⟩ := answers_append h
    rw [Memory.matchAll, matchFilter_eq_holds hf ha, holdsParts]
    cases holds b i f with
    | true => exact matchAll_eq_holdsParts hfs has
    | false => rfl

theorem matchAny_eq_holdsParts : ∀ {i : Nat} {filters : List Filter}, (∀ f ∈ filters, Whole f) →
    Answers doc b i (allLeaves filters) →
      Memory.matchAny doc filters = .ok (holdsParts b .or i filters)
  | i, [], _, _ => rfl
  | i, f :: filters, hw, h => by
    obtain ⟨hf, hfs⟩ := List.forall_mem_cons.1 hw
    obtain ⟨ha, has⟩ := answers_append h
    rw [Memory.matchAny, matchFilter_eq_holds hf ha, holdsParts]
    cases holds b i f with
    | true => rfl
    | false => exact matchAny_eq_holdsParts hfs has

end

/-- **The text of a filter keeps its meaning.**  Read back, the text of a compiled filter has
    the texts of its conditions for atoms, and whatever truth values these have, it is true
    if and only if the filter holds with unknown counting as false; and so is a stored
    document matched that meets just the conditions which are true. -/
theorem read_sql_true_iff {expression : Value} {start : Nat} {column : String} {c : Compiled}
    (hc : isIdentifier column = true) (h : compile expression start column = .ok c)
    (v : Nat → Truth) :
    (Formula.read c.sql.toList).atoms =
        (fragmentsFrom column start (leaves (ofValue expression))).map Fragment.chars ∧
      ((Formula.read c.sql.toList).value v 0 = some true ↔
        holds (fun i => (v i).isTrue) 0 (ofValue expression) = true) ∧
      ∀ doc, (∀ i d, (leaves (ofValue expression))[i]? = some d →
          Memory.matchCondition doc d = .ok (v i).isTrue) →
        Memory.matchFilter doc (ofValue expression) =
          .ok (holds (fun i => (v i).isTrue) 0 (ofValue expression)) := by
  have hs := sound_of_compile hc h
  obtain ⟨bs, hb, rfl⟩ := (compile_eq_ok_iff column).1 h
  have hw : Whole (ofValue expression) := (writes_ofValue hb).whole
  have hr : Formula.read (predicateAt column start (ofValue expression)).text.toList =
      (predicateAt column start (ofValue expression)).formula := by
    rw [Predicate.text, String.toList_ofList, read_chars hs]
  rw [Compiled.sql, hr]
  refine ⟨atoms_formula column start hw, ?_, fun doc hd => ?_⟩
  · rw [← holds_formula column _ start 0 hw, ← isTrue_value, Truth.isTrue, beq_iff_eq]
  · exact matchFilter_eq_holds hw fun j d hj => by rw [Nat.zero_add]; exact hd j d hj

/-- Shoes without a size. -/
def slippers : Value :=
  .object [("brand", .text "acme"), ("sold", .bool false), ("color", .text "red")]

theorem read_shoes : isIdentifier "metadata" = true ∧ ∃ c, compile shoes 2 "metadata" = .ok c ∧
    (Formula.read c.sql.toList).value (fun i => if i = 1 then none else some true) 0 = some true ∧
      Memory.matchFilter slippers (ofValue shoes) = .ok true := by
  have hc : isIdentifier "metadata" = true := by decide
  obtain ⟨-, hr, hm⟩ :=
    read_sql_true_iff hc compile_shoes fun i => if i = 1 then none else some true
  refine ⟨hc, shoesCompiled, compile_shoes, hr.2 rfl, hm slippers ?_⟩
  rintro (_ | _ | _ | _ | i) d hd <;> cases hd <;> rfl

end Filter

end VectorStore
