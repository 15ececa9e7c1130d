/-
  What containment asks of a field.

  A containment is translated to one clause for each scalar of its value, under the name that leads
  to it from the field.

  * `Below`: a name is that of a field, or of something in it;
  * `flatten_fold`: a value at a path is flattened under the name of the path, and all names are
    below it (`below_of_mem_flatten`);
  * `scalars`: what is found in a document (`mem_scalars_iff`), in its order and each once
    (`pairwise_scalars`);
  * `flatten_lists`: so flattening lists every scalar under the names on the way to it;
  * `isHollow` holds of values without any scalar (`flatten_eq_nil_iff`);
  * `contains_constrains`: so all clauses are about the field, and there is none just if the value
    is hollow; then the field is not even asked for.
-/
import VectorStore.Proofs.Filter.Atoms
import VectorStore.Proofs.Memory.Containment
import VectorStore.Proofs.Qdrant.Refusals

namespace VectorStore.Qdrant

open VectorStore.Filter (Condition Path leaves ofValue parameters validate)
open VectorStore.Memory (isScalar)

/-! ## Names -/

/-- The name is that of the field, or of something in it. -/
def Below (stem name : String) : Prop := name = stem ∨ ∃ more, name = stem ++ "." ++ more

theorem isEmpty_eq_false {stem : String} (h : stem ≠ "") : stem.isEmpty = false := by
  simpa using h

theorem append_ne_empty {stem : String} (h : stem ≠ "") (more : String) : stem ++ more ≠ "" := by
  simpa using fun he => absurd he h

/-- One segment of a path after another becomes part of the name. -/
theorem flatten_fold_cons (stem segment : String) (path : Path) (v : Value) :
    flatten stem (Path.fold (segment :: path) v) =
      flatten (if stem.isEmpty then segment else stem ++ "." ++ segment) (path.fold v) := by
  rw [Path.fold_cons, flatten, flattenFields, flattenFields, List.append_nil]

/-- Names with dots between them, the first two of which are joined before. -/
theorem intercalate_dotted (stem name : String) (names : List String) :
    ".".intercalate (stem :: name :: names) = ".".intercalate ((stem ++ "." ++ name) :: names) :=
  rfl

theorem below_intercalate (stem : String) : ∀ names : List String,
    Below stem (".".intercalate (stem :: names))
  | [] => .inl String.intercalate_singleton
  | _ :: _ => .inr ⟨_, String.intercalate_cons_cons⟩

/-- Below a name a value at a path is flattened under the name and the path. -/
theorem flatten_fold_below {stem : String} (hstem : stem ≠ "") (path : Path) (v : Value) :
    flatten stem (path.fold v) = flatten (".".intercalate (stem :: path)) v := by
  induction path generalizing stem with
  | nil =>
    rw [String.intercalate_singleton]
    rfl
  | cons segment path ih =>
    rw [intercalate_dotted, ← ih (append_ne_empty (append_ne_empty hstem _) _), flatten_fold_cons,
      isEmpty_eq_false hstem]
    rfl

theorem flatten_fold_cons_of_ne {segment : String} (hsegment : segment ≠ "") (path : Path)
    (v : Value) : flatten "" (Path.fold (segment :: path) v) =
      flatten (Path.text (segment :: path)) v := by
  rw [Path.text, ← flatten_fold_below hsegment, flatten_fold_cons]
  rfl

/-- **A value at a path is flattened under the name of the path.** -/
theorem flatten_fold {path : Path} (hpath : path ≠ []) (hsegments : ∀ s ∈ path, s ≠ "")
    (v : Value) : flatten "" (path.fold v) = flatten path.text v := by
  obtain ⟨segment, path, rfl⟩ := List.exists_cons_of_ne_nil hpath
  exact flatten_fold_cons_of_ne (hsegments segment (List.mem_cons_self ..)) path v

/-- Of all paths only one that goes on from an empty segment may have another name: there the first
    dot is missing. -/
theorem flatten_fold_of_ne {path : Path} (hpath : ∀ second more, path ≠ "" :: second :: more)
    (v : Value) : flatten "" (path.fold v) = flatten path.text v := by
  rcases path with _ | ⟨segment, _ | ⟨second, more⟩⟩
  · rfl
  · rw [Path.text, String.intercalate_singleton, flatten_fold_cons]
    rfl
  · have hsegment : segment ≠ "" := by
      rintro rfl
      exact hpath second more rfl
    exact flatten_fold_cons_of_ne hsegment _ v

/-! ## Scalars -/

/-- A scalar in a document: the positions that lead to it, outermost first, the names of the fields
    among them, and its value. -/
structure Scalar where
  place : List Nat
  names : List String
  value : Value

/-- The scalar as it is found from a field. -/
def Scalar.inField (i : Nat) (name : String) (s : Scalar) : Scalar :=
  ⟨i :: s.place, name :: s.names, s.value⟩

/-- The scalar as it is found from an item of a list, which has no name. -/
def Scalar.inItem (i : Nat) (s : Scalar) : Scalar := ⟨i :: s.place, s.names, s.value⟩

/-- The scalar under the name of a field and the names that lead on from there, with dots between
    them. -/
def Scalar.named (stem : String) (s : Scalar) : String × Value :=
  (".".intercalate (stem :: s.names), s.value)

/-- The scalar is found in the document. -/
inductive Occurs : Value → Scalar → Prop
  | scalar {v : Value} (hv : isScalar v = true) : Occurs v ⟨[], [], v⟩
  | field {fields : Fields} {i : Nat} {name : String} {v : Value} {s : Scalar}
      (hi : fields[i]? = some (name, v)) (hs : Occurs v s) :
      Occurs (.object fields) (s.inField i name)
  | item {items : List Value} {i : Nat} {v : Value} {s : Scalar}
      (hi : items[i]? = some v) (hs : Occurs v s) : Occurs (.list items) (s.inItem i)

mutual

/-- The scalars of a document, from its beginning to its end. -/
def scalars : Value → List Scalar
  | .object fields => scalarsOfFields 0 fields
  | .list items => scalarsOfItems 0 items
  | v => [⟨[], [], v⟩]

/-- The scalars of fields, the first of which has position `i`. -/
def scalarsOfFields (i : Nat) : List (String × Value) → List Scalar
  | [] => []
  | (name, v) :: fields => (scalars v).map (·.inField i name) ++ scalarsOfFields (i + 1) fields

/-- The scalars of items, the first of which has position `i`. -/
def scalarsOfItems (i : Nat) : List Value → List Scalar
  | [] => []
  | v :: items => (scalars v).map (·.inItem i) ++ scalarsOfItems (i + 1) items

end

theorem scalarsOfFields_eq (i : Nat) (fields : Fields) : scalarsOfFields i fields =
    (fields.zipIdx i).flatMap fun f => (scalars f.1.2).map (·.inField f.2 f.1.1) := by
  induction fields generalizing i with
  | nil => rfl
  | cons f fields ih => rw [scalarsOfFields, ih, List.zipIdx_cons, List.flatMap_cons]

theorem scalarsOfItems_eq (i : Nat) (items : List Value) : scalarsOfItems i items =
    (items.zipIdx i).flatMap fun v => (scalars v.1).map (·.inItem v.2) := by
  induction items generalizing i with
  | nil => rfl
  | cons v items ih => rw [scalarsOfItems, ih, List.zipIdx_cons, List.flatMap_cons]

theorem scalars_of_isScalar {v : Value} (hv : isScalar v = true) : scalars v = [⟨[], [], v⟩] := by
  cases v <;> first | rfl | cases hv

/-- What holds of scalars, and of lists and objects if it holds of their parts, holds of all
    documents. -/
@[elab_as_elim]
theorem parts_induction {motive : Value → Prop} (scalar : ∀ v, isScalar v = true → motive v)
    (list : ∀ items, (∀ v ∈ items, motive v) → motive (.list items))
    (object : ∀ fields, (∀ f ∈ fields, motive f.2) → motive (.object fields)) (v : Value) :
    motive v :=
  @Value.rec motive (fun items => ∀ v ∈ items, motive v) (fun fields => ∀ f ∈ fields, motive f.2)
    (fun f => motive f.2) (scalar _ rfl) (fun _ => scalar _ rfl) (fun _ => scalar _ rfl)
    (fun _ => scalar _ rfl) (fun _ => scalar _ rfl) list object
    nofun (fun _ _ hv hitems => List.forall_mem_cons.2 ⟨hv, hitems⟩)
    nofun (fun _ _ hf hfields => List.forall_mem_cons.2 ⟨hf, hfields⟩) (fun _ _ h => h) v

/-- **The scalars that are listed are those found in the document.** -/
theorem mem_scalars_iff {v : Value} : ∀ {s : Scalar}, s ∈ scalars v ↔ Occurs v s := by
  induction v using parts_induction with
  | scalar v hv =>
    intro s
    rw [scalars_of_isScalar hv, List.mem_singleton]
    constructor
    · rintro rfl
      exact .scalar hv
    · rintro (_ | _ | _)
      · rfl
      · cases hv
      · cases hv
  | list items ih =>
    intro s
    rw [scalars, scalarsOfItems_eq, List.mem_flatMap]
    constructor
    · rintro ⟨⟨v, i⟩, hi, h⟩
      obtain ⟨t, ht, rfl⟩ := List.mem_map.1 h
      have hv : items[i]? = some v := List.mem_zipIdx_iff_getElem?.1 hi
      exact .item hv ((ih v (List.mem_of_getElem? hv)).1 ht)
    · rintro (hv | _ | ⟨hi, hs⟩)
      · cases hv
      · refine ⟨(_, _), List.mem_zipIdx_iff_getElem?.2 hi, List.mem_map.2 ⟨_, ?_, rfl⟩⟩
        exact (ih _ (List.mem_of_getElem? hi)).2 hs
  | object fields ih =>
    intro s
    rw [scalars, scalarsOfFields_eq, List.mem_flatMap]
    constructor
    · rintro ⟨⟨⟨name, v⟩, i⟩, hi, h⟩
      obtain ⟨t, ht, rfl⟩ := List.mem_map.1 h
      have hv : fields[i]? = some (name, v) := List.mem_zipIdx_iff_getElem?.1 hi
      exact .field hv ((ih (name, v) (List.mem_of_getElem? hv)).1 ht)
    · rintro (hv | ⟨hi, hs⟩ | _)
      · cases hv
      · refine ⟨(_, _), List.mem_zipIdx_iff_getElem?.2 hi, List.mem_map.2 ⟨_, ?_, rfl⟩⟩
        exact (ih _ (List.mem_of_getElem? hi)).2 hs

/-- Scalars that are found from one part after another are in order, if those from each part are. -/
theorem pairwise_place_flatMap {α : Type} {parts : List α} {f : α × Nat → List Scalar}
    (hpart : ∀ a ∈ parts, ∀ i, (f (a, i)).Pairwise fun s t => s.place < t.place)
    (hplace : ∀ a i, ∀ s ∈ f (a, i), s.place.head? = some i) :
    (parts.zipIdx.flatMap f).Pairwise fun s t => s.place < t.place := by
  have hindices : parts.zipIdx.Pairwise fun a b => a.2 < b.2 := by
    rw [← List.pairwise_map (f := Prod.snd), List.zipIdx_map_snd]
    exact List.pairwise_lt_range'
  refine List.pairwise_flatMap.2 ⟨fun a ha => ?_, hindices.imp fun {a b} hlt s hs t ht => ?_⟩
  · exact hpart a.1 (List.fst_mem_of_mem_zipIdx ha) a.2
  · obtain ⟨more, hs⟩ := List.head?_eq_some_iff.1 (hplace a.1 a.2 s hs)
    obtain ⟨more', ht⟩ := List.head?_eq_some_iff.1 (hplace b.1 b.2 t ht)
    rw [hs, ht]
    exact List.cons_lt_cons_iff.2 (.inl hlt)

/-- Scalars found from one part keep their order. -/
theorem pairwise_place_map {ss : List Scalar} {f : Scalar → Scalar} {i : Nat}
    (hplace : ∀ s, (f s).place = i :: s.place) (h : ss.Pairwise fun s t => s.place < t.place) :
    (ss.map f).Pairwise fun s t => s.place < t.place := by
  refine List.pairwise_map.2 (h.imp fun hlt => ?_)
  rw [hplace, hplace]
  exact List.cons_lt_cons_iff.2 (.inr ⟨rfl, hlt⟩)

/-- **The scalars are listed from the beginning of the document to its end**, so none is listed
    twice. -/
theorem pairwise_scalars (v : Value) : (scalars v).Pairwise fun s t => s.place < t.place := by
  induction v using parts_induction with
  | scalar v hv =>
    rw [scalars_of_isScalar hv]
    exact List.pairwise_singleton ..
  | list items ih =>
    rw [scalars, scalarsOfItems_eq]
    refine pairwise_place_flatMap (fun v hv i => pairwise_place_map (fun _ => rfl) (ih v hv)) ?_
    intro v i s hs
    obtain ⟨t, -, rfl⟩ := List.mem_map.1 hs
    rfl
  | object fields ih =>
    rw [scalars, scalarsOfFields_eq]
    refine pairwise_place_flatMap (fun f hf i => pairwise_place_map (fun _ => rfl) (ih f hf)) ?_
    intro f i s hs
    obtain ⟨t, -, rfl⟩ := List.mem_map.1 hs
    rfl

theorem named_inField (stem : String) (i : Nat) (name : String) (s : Scalar) :
    (s.inField i name).named stem = s.named (stem ++ "." ++ name) :=
  Prod.ext (intercalate_dotted stem name s.names) rfl

/-- **Flattening lists the scalars under their names.** -/
theorem flatten_eq_map_scalars {v : Value} : ∀ {stem : String}, stem ≠ "" →
    flatten stem v = (scalars v).map (·.named stem) := by
  induction v using parts_induction with
  | scalar v hv =>
    intro stem _
    rw [scalars_of_isScalar hv, List.map_singleton, Scalar.named, String.intercalate_singleton]
    cases v <;> first | rfl | cases hv
  | list items ih =>
    intro stem hstem
    rw [flatten, scalars]
    generalize 0 = i
    induction items generalizing i with
    | nil => rfl
    | cons v items ihItems =>
      obtain ⟨hv, hitems⟩ := List.forall_mem_cons.1 ih
      rw [flattenItems, scalarsOfItems, List.map_append, List.map_map, ← ihItems hitems, hv hstem]
      rfl
  | object fields ih =>
    intro stem hstem
    rw [flatten, scalars]
    generalize 0 = i
    induction fields generalizing i with
    | nil => rfl
    | cons f fields ihFields =>
      obtain ⟨name, v⟩ := f
      obtain ⟨hv, hfields⟩ := List.forall_mem_cons.1 ih
      rw [flattenFields, isEmpty_eq_false hstem, if_neg Bool.false_ne_true, scalarsOfFields,
        List.map_append, List.map_map, ← ihFields hfields,
        hv (append_ne_empty (append_ne_empty hstem _) _)]
      exact congrArg (· ++ _) (List.map_congr_left fun s _ => (named_inField stem i name s).symm)

/-- **All names are below that of the field.** -/
theorem below_of_mem_flatten {stem : String} (hstem : stem ≠ "") {v : Value}
    {leaf : String × Value} (h : leaf ∈ flatten stem v) : Below stem leaf.1 := by
  rw [flatten_eq_map_scalars hstem] at h
  obtain ⟨s, -, rfl⟩ := List.mem_map.1 h
  exact below_intercalate stem s.names

/-- **Flattening lists every scalar once, under its name.**  The scalars are those found in the
    document, from its beginning to its end; below a name each has this name and those of the fields
    on the way to it, with dots between them.  A value at a path is flattened under the name of the
    path: at every path that is written, and at any other that does not go on from an empty segment,
    where the first dot would be missing. -/
theorem flatten_lists (v : Value) :
    (∀ s, s ∈ scalars v ↔ Occurs v s) ∧
    (scalars v).Pairwise (fun s t => s.place < t.place) ∧
    (∀ stem, stem ≠ "" → flatten stem v = (scalars v).map (·.named stem)) ∧
    (∀ key path, Path.ofText key = .ok path → flatten "" (path.fold v) = flatten path.text v) ∧
    ∀ path : Path, (∀ second more, path ≠ "" :: second :: more) →
      flatten "" (path.fold v) = flatten path.text v := by
  refine ⟨fun s => mem_scalars_iff, pairwise_scalars v, fun stem hstem =>
    flatten_eq_map_scalars hstem, fun key path hkey => ?_, fun path hpath =>
    flatten_fold_of_ne hpath v⟩
  refine flatten_fold_of_ne ?_ v
  rintro second more rfl
  cases Filter.isSegment_of_ofText hkey "" (List.mem_cons_self ..)

/-- Sizes in a list of lists and objects. -/
def sizes : Value :=
  .object [("eu", .list [.int 41, .list [.int 42, .object [("half", .bool true)]]]), ("", .null)]

theorem flatten_lists_sizes :
    flatten "shoe" sizes = [("shoe.eu", .int 41), ("shoe.eu", .int 42),
      ("shoe.eu.half", .bool true), ("shoe.", .null)] ∧
    Path.ofText "shop.shoe" = .ok ["shop", "shoe"] ∧
    flatten "" (Path.fold ["shop", "shoe"] sizes) = flatten "shop.shoe" sizes ∧
    flatten "" (Path.fold ["shop", ""] sizes) = flatten "shop." sizes := by
  obtain ⟨-, -, hlists, hwritten, hfold⟩ := flatten_lists sizes
  have hshoe : Path.ofText "shop.shoe" = .ok ["shop", "shoe"] := rfl
  exact ⟨hlists "shoe" (by decide), hshoe, hwritten _ _ hshoe, hfold ["shop", ""] (by simp)⟩

/-- The first dot is missing where a path goes on from an empty segment. -/
example : flatten "" (Path.fold ["", "shoe"] .null) = [("shoe", .null)] ∧
    flatten (Path.text ["", "shoe"]) .null = [(".shoe", .null)] := ⟨rfl, rfl⟩

/-! ## Hollow values -/

mutual

/-- Whether a value has no scalar: it is made of lists and objects only. -/
def isHollow : Value → Bool
  | .object fields => areHollowFields fields
  | .list items => areHollow items
  | _ => false

/-- Whether the values of all fields are hollow. -/
def areHollowFields : List (String × Value) → Bool
  | [] => true
  | (_, v) :: fields => isHollow v && areHollowFields fields

/-- Whether all values are hollow. -/
def areHollow : List Value → Bool
  | [] => true
  | v :: items => isHollow v && areHollow items

end

mutual

/-- **Only hollow values are flattened to nothing.** -/
theorem flatten_eq_nil_iff {stem : String} : ∀ {v : Value},
    flatten stem v = [] ↔ isHollow v = true
  | .object fields => by rw [flatten, isHollow, flattenFields_eq_nil_iff]
  | .list items => by rw [flatten, isHollow, flattenItems_eq_nil_iff]
  | .null | .bool _ | .int _ | .float _ | .text _ => by simp [flatten, isHollow]

theorem flattenFields_eq_nil_iff {stem : String} : ∀ {fields : Fields},
    flattenFields stem fields = [] ↔ areHollowFields fields = true
  | [] => by simp [flattenFields, areHollowFields]
  | (name, v) :: fields => by
    rw [flattenFields, areHollowFields, List.append_eq_nil_iff, Bool.and_eq_true,
      flatten_eq_nil_iff, flattenFields_eq_nil_iff]

theorem flattenItems_eq_nil_iff {stem : String} : ∀ {items : List Value},
    flattenItems stem items = [] ↔ areHollow items = true
  | [] => by simp [flattenItems, areHollow]
  | v :: items => by
    rw [flattenItems, areHollow, List.append_eq_nil_iff, Bool.and_eq_true,
      flatten_eq_nil_iff, flattenItems_eq_nil_iff]

end

/-! ## Containment -/

/-- A point without the field: no test holds of the field or of something in it. -/
def Facts.Lacks (facts : Facts) (name : String) : Prop :=
  ∀ key test, Below name key → facts.test key test = false

/-- The clauses of a containment. -/
theorem ofCondition_contains {c : Condition} {clause : Clause} (ho : c.operator = .contains)
    (h : Clause.ofCondition c = .ok clause) :
    clause = .must ((flatten "" (c.path.fold c.value)).map fun leaf =>
      .field leaf.1 (equalTest leaf.2)) := by
  obtain ⟨key, path, op, v⟩ := c
  subst ho
  simp only [Clause.ofCondition] at h
  rcases hs : (flatten "" (path.fold v)).mapM (fun leaf => equals leaf.1 leaf.2) with e | clauses
  · rw [hs] at h; cases h
  · rw [hs] at h
    cases h
    rw [eq_map_of_mapM_equals hs]

/-- **What a translated containment asks for.**  Alone its clause is the whole filter; all that must
    hold is about its field or something in it, and there is something unless the value is hollow.
    So it holds of a point without the field just if the value is hollow. -/
theorem contains_constrains {expression : Value} (hv : validate expression = .ok ()) {c : Condition}
    (hc : c ∈ leaves (ofValue expression)) (ho : c.operator = .contains) {clause : Clause}
    (h : Clause.ofCondition c = .ok clause) :
    Clause.ofFilter (.entries [.leaf c]) = .ok clause ∧
    ∃ clauses, clause = .must clauses ∧
      (∀ d ∈ clauses, ∃ key test, d = .field key test ∧ Below c.path.text key) ∧
      (clauses = [] ↔ isHollow c.value = true) ∧
      ∀ facts : Facts, facts.Lacks c.path.text →
        (clause.holds facts = true ↔ isHollow c.value = true) := by
  obtain ⟨bs, hb⟩ : ∃ bs, parameters (ofValue expression) = .ok bs := by
    rw [Filter.validate_eq] at hv
    rcases hb : parameters (ofValue expression) with r | bs
    · rw [hb] at hv; cases hv
    · exact ⟨bs, rfl⟩
  have hpath := Filter.ofText_ne_nil (Filter.ofText_of_mem_leaves hb hc)
  have hsegments : ∀ s ∈ c.path, s ≠ "" := by
    rintro s hs rfl
    cases Filter.isSegment_of_mem_leaves hb hc "" hs
  have hname : c.path.text ≠ "" := by
    obtain ⟨segment, path, hcons⟩ := List.exists_cons_of_ne_nil hpath
    have hsegment := hsegments segment (hcons ▸ List.mem_cons_self ..)
    rw [Path.text, hcons]
    cases path with
    | nil => rwa [String.intercalate_singleton]
    | cons second rest =>
      rw [String.intercalate_cons_cons]
      exact append_ne_empty (append_ne_empty hsegment _) _
  have hclause := ofCondition_contains ho h
  rw [flatten_fold hpath hsegments] at hclause
  have hnil : flatten c.path.text c.value = [] ↔ isHollow c.value = true := flatten_eq_nil_iff
  refine ⟨?_, _, hclause, ?_, by rw [List.map_eq_nil_iff, hnil], fun facts hlacks => ?_⟩
  · rw [Clause.ofFilter, Clause.ofFilters, Clause.ofFilter, h, hclause]
    rfl
  · intro d hd
    obtain ⟨leaf, hleaf, rfl⟩ := List.mem_map.1 hd
    exact ⟨_, _, rfl, below_of_mem_flatten hname hleaf⟩
  · rw [hclause, Clause.holds, ← hnil]
    rcases hleaves : flatten c.path.text c.value with _ | ⟨leaf, leaves⟩
    · simp [Clause.allHold]
    · have hbelow : Below c.path.text leaf.1 :=
        below_of_mem_flatten hname (hleaves ▸ List.mem_cons_self ..)
      simp [Clause.allHold, Clause.holds, hlacks _ _ hbelow]

/-- A containment of a tag and a size. -/
def sized : Value :=
  .object [("item", .object [("operator", .text "contains"),
    ("value", .object [("tags", .list [.text "new"]), ("size", .int 42)])])]

theorem contains_constrains_sized : validate sized = .ok () ∧
    Clause.ofFilter (ofValue sized) = .ok (.must [
      .field "item.tags" (.value (.text "new")), .field "item.size" (.value (.int 42))]) ∧
    ∀ facts : Facts, facts.Lacks "item" → (Clause.must [.field "item.tags" (.value (.text "new")),
      .field "item.size" (.value (.int 42))]).holds facts ≠ true := by
  have hv : validate sized = .ok () := rfl
  have hl : leaves (ofValue sized) = [⟨"item", ["item"], .contains,
      .object [("tags", .list [.text "new"]), ("size", .int 42)]⟩] := rfl
  obtain ⟨halone, _, -, -, -, hlacks⟩ :=
    contains_constrains hv (hl ▸ List.mem_singleton_self _) rfl rfl
  exact ⟨hv, halone, fun facts h hholds => by cases (hlacks facts h).1 hholds⟩

/-- A containment of an object without fields. -/
def untagged : Value :=
  .object [("tags", .object [("operator", .text "contains"), ("value", .object [])])]

/-- The containment of a hollow value asks for nothing: it holds of every point. -/
theorem ofFilter_untagged : validate untagged = .ok () ∧
    Clause.ofFilter (ofValue untagged) = .ok (.must []) ∧
    ∀ facts : Facts, (Clause.must []).holds facts = true := ⟨rfl, rfl, fun _ => rfl⟩

end VectorStore.Qdrant
