/-
  The three lists of a write, side by side.

  Records are built from all entries or not at all.

  * `MadeOf` says what a record is made of: the vector, the metadata and the id of one entry, or
    an id of the supply where none is given; `ofEntry_eq_ok_iff`: so a record is built from an
    entry;
  * `Aligned` says that records and entries go together, position by position;
    `buildRecords_eq_ok_iff`: the records that are built are those that are aligned, and no others;
  * `Malformed` says what may be wrong with the three lists; `buildRecords_eq_error_iff`: these
    are just the writes that have no records;
  * `buildRecords_aligned`: a malformed write is refused before a backend is asked for anything.
-/
import VectorStore.Proofs.Store.Arguments
import VectorStore.Proofs.Store.Records
import VectorStore.Proofs.Store.Runs

namespace VectorStore

/-! ## Arguments -/

namespace Value

/-- The items, if the document is a list. -/
def listed : Value → List Value
  | .list items => items
  | _ => []

/-- The entry at a position, null if there is none. -/
def entry (v : Value) (k : Nat) : Value := v.listed.getD k .null

/-- How many of the first entries are null. -/
def leftOut (v : Value) (k : Nat) : Nat := (List.range k).countP fun j => (v.entry j).isNull

/-- The document goes with so many vectors: it is left out, or it has as many entries. -/
def GoesWith (n : Nat) (v : Value) : Prop :=
  v = .null ∨ ∃ items, v = .list items ∧ items.length = n

/-- The double of a number; truth values have none. -/
def DoubleOf (v : Value) (x : Float) : Prop :=
  v = .float x ∨ ∃ n, v = .int n ∧ Number.ofInt? n = some x

theorem doubleOf_iff {v : Value} {x : Float} :
    v.DoubleOf x ↔ Record.isNumber v = true ∧ v.toFloat = .ok x := by
  cases v with
  | int n =>
    rcases h : Number.ofInt? n with _ | y
    · simp [DoubleOf, Record.isNumber, toFloat, h]
    · simp [DoubleOf, Record.isNumber, toFloat, h]
  | float y => simp [DoubleOf, Record.isNumber, toFloat]
  | _ => simp [DoubleOf, Record.isNumber]

end Value

namespace Record

variable {position drawn drawn' : Nat} {vectors metadata ids : Value}
  {es : List (Value × Value × Value)} {rs : List Record} {r : Record}

/-! ## One entry -/

/-- What a record is made of: the vector, the metadata and the id of its entry, or the next id
    after those that were drawn. -/
structure MadeOf (drawn : Nat) (v m i : Value) (r : Record) : Prop where
  vector : ∃ xs, v = .list xs ∧ xs ≠ [] ∧ List.Forall₂ Value.DoubleOf xs r.vector
  metadata : m = .null ∧ r.metadata = [] ∨ m = .object r.metadata
  id : i = .text r.id ∧ r.id ≠ "" ∨ i = .null ∧ r.id = generatedText (drawn + 1)

/-- How many ids are left out. -/
def unnamed (is : List Value) : Nat := is.countP Value.isNull

theorem forall₂_doubleOf_iff {items : List Value} {xs : List Float} :
    List.Forall₂ Value.DoubleOf items xs ↔
      (∀ v ∈ items, isNumber v = true) ∧ Value.toFloats items = .ok xs := by
  rw [Value.toFloats, Store.mapM_eq_ok_iff, ← List.forall₂_and_left]
  exact ⟨List.Forall₂.imp fun _ _ => Value.doubleOf_iff.1,
    List.Forall₂.imp fun _ _ => Value.doubleOf_iff.2⟩

theorem idOf_eq_ok_iff {i : Value} {id : String} {next : Nat} :
    idOf position drawn i = .ok (id, next) ↔
      (i = .text id ∧ id ≠ "" ∨ i = .null ∧ id = generatedText (drawn + 1)) ∧
        next = drawn + unnamed [i] := by
  cases i with
  | null => simp [idOf, unnamed, Value.isNull, eq_comm]
  | text s =>
    by_cases hs : s = ""
    · subst hs
      simp [idOf]
    · rw [idOf, if_neg (by simpa using hs)]
      constructor
      · intro h
        cases h
        exact ⟨.inl ⟨rfl, hs⟩, rfl⟩
      · rintro ⟨⟨h, -⟩ | ⟨h, -⟩, rfl⟩ <;> cases h
        rfl
  | _ => simp [idOf]

/-- A record is built from an entry just if it is made of it. -/
theorem ofEntry_eq_ok_iff {v m i : Value} {next : Nat} :
    ofEntry position drawn v m i = .ok (r, next) ↔
      MadeOf drawn v m i r ∧ next = drawn + unnamed [i] := by
  constructor
  · intro h
    obtain ⟨hv, hm, hi⟩ := ofEntry_ok h
    obtain ⟨xs, rfl, hne, hxs⟩ := Store.vectorOf_eq_ok_iff.1 hv
    obtain ⟨hid, hnext⟩ := idOf_eq_ok_iff.1 hi
    exact ⟨⟨⟨xs, rfl, hne, forall₂_doubleOf_iff.2 hxs⟩, metadataOf_eq_ok_iff.1 hm, hid⟩, hnext⟩
  · rintro ⟨⟨⟨xs, rfl, hne, hxs⟩, hm, hid⟩, hnext⟩
    have hv : vectorOf s!"vectors[{Number.natText position}]" (.list xs) = .ok r.vector :=
      Store.vectorOf_eq_ok_iff.2 ⟨xs, rfl, hne, forall₂_doubleOf_iff.1 hxs⟩
    rw [ofEntry, hv, metadataOf_eq_ok_iff.2 hm, idOf_eq_ok_iff.2 ⟨hid, hnext⟩]
    rfl

/-! ## Entries -/

theorem unnamed_cons (i : Value) (is : List Value) :
    unnamed (i :: is) = unnamed [i] + unnamed is := by
  rw [unnamed, unnamed, unnamed, ← List.countP_append, List.singleton_append]

/-- Records are built from entries just if each is made of its own, with as many ids drawn before
    it as are left out before it. -/
theorem ofEntries_eq_ok_iff : ofEntries position drawn es = (.ok rs, drawn') ↔
    (rs.length = es.length ∧ ∀ (k : Nat) (v m i : Value) (r : Record), es[k]? = some (v, m, i) →
      rs[k]? = some r → MadeOf (drawn + unnamed ((es.map (·.2.2)).take k)) v m i r) ∧
    drawn' = drawn + unnamed (es.map (·.2.2)) := by
  induction es generalizing position drawn rs with
  | nil =>
    constructor
    · intro h
      cases h
      exact ⟨⟨rfl, nofun⟩, rfl⟩
    · rintro ⟨⟨hlen, -⟩, rfl⟩
      rw [List.eq_nil_of_length_eq_zero hlen]
      rfl
  | cons e es ih =>
    obtain ⟨v, m, i⟩ := e
    rw [List.map_cons, unnamed_cons, ← Nat.add_assoc]
    constructor
    · intro h
      obtain ⟨r, next, rest, he, hrest, rfl⟩ := ofEntries_cons_ok h
      obtain ⟨hmade, rfl⟩ := ofEntry_eq_ok_iff.1 he
      obtain ⟨⟨hlen, hall⟩, rfl⟩ := ih.1 hrest
      refine ⟨⟨congrArg (· + 1) hlen, fun k v' m' i' r' hk hr => ?_⟩, rfl⟩
      cases k with
      | zero =>
        cases hk
        cases hr
        exact hmade
      | succ k =>
        -- before a later entry an id is drawn for the first one, if it is left out
        rw [List.take_succ_cons, unnamed_cons, ← Nat.add_assoc]
        exact hall k v' m' i' r' hk hr
    · rintro ⟨⟨hlen, hall⟩, rfl⟩
      obtain ⟨r, rest, rfl⟩ := List.exists_cons_of_length_eq_add_one hlen
      have he : ofEntry position drawn v m i = .ok (r, drawn + unnamed [i]) :=
        ofEntry_eq_ok_iff.2 ⟨hall 0 v m i r rfl rfl, rfl⟩
      refine ofEntries_cons he (ih.2 ⟨⟨Nat.succ.inj hlen, fun k v' m' i' r' hk hr => ?_⟩, rfl⟩)
      have hmade := hall (k + 1) v' m' i' r' hk hr
      rwa [List.take_succ_cons, unnamed_cons, ← Nat.add_assoc] at hmade

/-! ## The three lists -/

theorem companions_eq_ok_iff {name : String} {n : Nat} {v : Value} {items : List Value} :
    companions name n v = .ok items ↔ v.GoesWith n ∧ items = given n v := by
  cases v with
  | null => simp [companions, Value.GoesWith, given, eq_comm]
  | list items' =>
    by_cases hlen : items'.length = n
    · simp [companions, Value.GoesWith, given, hlen, eq_comm]
    · simp [companions, Value.GoesWith, hlen]
  | _ => simp [companions, Value.GoesWith]

theorem given_eq {n : Nat} {v : Value} (h : v.GoesWith n) :
    given n v = (List.range n).map v.entry := by
  obtain rfl | ⟨items, rfl, rfl⟩ := h
  · show List.replicate n .null = (List.range n).map fun _ => Value.null
    rw [List.map_const', List.length_range]
  · refine List.ext_getElem (by simp [given]) fun k hk hk' => ?_
    have hlt : k < items.length := hk
    simp [given, Value.entry, Value.listed, hlt]

/-- The first entries of three lists, side by side. -/
def sideBySide (vectors metadata ids : Value) (n : Nat) : List (Value × Value × Value) :=
  (List.range n).map fun k => (vectors.entry k, metadata.entry k, ids.entry k)

theorem zip_given {vs : List Value} (hm : metadata.GoesWith vs.length)
    (hi : ids.GoesWith vs.length) :
    vs.zip ((given vs.length metadata).zip (given vs.length ids)) =
      sideBySide (.list vs) metadata ids vs.length := by
  have hvs : given vs.length (.list vs) = (List.range vs.length).map (Value.list vs).entry :=
    given_eq (.inr ⟨vs, rfl, rfl⟩)
  calc vs.zip ((given vs.length metadata).zip (given vs.length ids))
    _ = (given vs.length (.list vs)).zip
          ((given vs.length metadata).zip (given vs.length ids)) := rfl
    _ = sideBySide (.list vs) metadata ids vs.length := by
        rw [hvs, given_eq hm, given_eq hi, List.zip_map', List.zip_map']
        rfl

theorem entries_eq_ok_iff : entries vectors metadata ids = .ok es ↔
    ∃ vs, vectors = .list vs ∧ vs ≠ [] ∧ metadata.GoesWith vs.length ∧ ids.GoesWith vs.length ∧
      es = sideBySide vectors metadata ids vs.length := by
  constructor
  · intro h
    obtain ⟨v, vs, ms, is, rfl, hm, hi, rfl⟩ := entries_ok h
    obtain ⟨hmgoes, rfl⟩ := companions_eq_ok_iff.1 hm
    obtain ⟨higoes, rfl⟩ := companions_eq_ok_iff.1 hi
    exact ⟨_, rfl, List.cons_ne_nil v vs, hmgoes, higoes, zip_given hmgoes higoes⟩
  · rintro ⟨vs, rfl, hne, hm, hi, rfl⟩
    rw [← zip_given hm hi]
    obtain ⟨v, vs, rfl⟩ := List.exists_cons_of_ne_nil hne
    rw [entries, companions_eq_ok_iff.2 ⟨hm, rfl⟩, companions_eq_ok_iff.2 ⟨hi, rfl⟩]
    rfl

theorem getElem?_sideBySide {n k : Nat} {e : Value × Value × Value} :
    (sideBySide vectors metadata ids n)[k]? = some e ↔
      k < n ∧ (vectors.entry k, metadata.entry k, ids.entry k) = e := by
  by_cases hk : k < n <;> simp [sideBySide, hk]

theorem unnamed_sideBySide {n k : Nat} (hk : k ≤ n) :
    unnamed (((sideBySide vectors metadata ids n).map (·.2.2)).take k) = ids.leftOut k := by
  rw [sideBySide, List.map_map, ← List.map_take, List.take_range, Nat.min_eq_left hk, unnamed,
    List.countP_map]
  rfl

theorem length_sideBySide (vectors metadata ids : Value) (n : Nat) :
    (sideBySide vectors metadata ids n).length = n := by
  rw [sideBySide, List.length_map, List.length_range]

theorem ofEntries_sideBySide {n : Nat} :
    ofEntries 0 drawn (sideBySide vectors metadata ids n) = (.ok rs, drawn') ↔
      (rs.length = n ∧ ∀ (k : Nat) (r : Record), rs[k]? = some r →
        MadeOf (drawn + ids.leftOut k) (vectors.entry k) (metadata.entry k) (ids.entry k) r) ∧
      drawn' = drawn + ids.leftOut n := by
  have hall : unnamed ((sideBySide vectors metadata ids n).map (·.2.2)) = ids.leftOut n := by
    have hlen : ((sideBySide vectors metadata ids n).map (·.2.2)).length = n := by
      rw [List.length_map, length_sideBySide]
    rw [← unnamed_sideBySide (Nat.le_refl n), List.take_of_length_le (Nat.le_of_eq hlen)]
  rw [ofEntries_eq_ok_iff, length_sideBySide, hall]
  refine and_congr_left fun _ => and_congr_right fun hlen => ⟨fun h k r hr => ?_, ?_⟩
  · obtain ⟨hk, -⟩ := List.getElem?_eq_some_iff.1 hr
    rw [hlen] at hk
    have hmade := h k _ _ _ r (getElem?_sideBySide.2 ⟨hk, rfl⟩) hr
    rwa [unnamed_sideBySide (Nat.le_of_lt hk)] at hmade
  · intro h k v m i r he hr
    obtain ⟨hk, he⟩ := getElem?_sideBySide.1 he
    cases he
    rw [unnamed_sideBySide (Nat.le_of_lt hk)]
    exact h k r hr

/-- The records and the entries of three lists go together: as many of each, and each record is
    made of the entries at its position, with an id drawn for each that is left out before it. -/
structure Aligned (drawn : Nat) (vectors metadata ids : Value) (rs : List Record) : Prop where
  nonempty : rs ≠ []
  vectors_list : ∃ vs, vectors = .list vs ∧ vs.length = rs.length
  metadata_goesWith : metadata.GoesWith rs.length
  ids_goesWith : ids.GoesWith rs.length
  madeOf : ∀ (k : Nat) (r : Record), rs[k]? = some r →
    MadeOf (drawn + ids.leftOut k) (vectors.entry k) (metadata.entry k) (ids.entry k) r

/-- The records that are built are those that are aligned. -/
theorem buildRecords_eq_ok_iff : buildRecords drawn vectors metadata ids = (.ok rs, drawn') ↔
    Aligned drawn vectors metadata ids rs ∧ drawn' = drawn + ids.leftOut rs.length := by
  constructor
  · intro h
    obtain ⟨es, he, h⟩ := buildRecords_ok h
    obtain ⟨vs, rfl, hne, hm, hi, rfl⟩ := entries_eq_ok_iff.1 he
    obtain ⟨⟨hlen, hmade⟩, hdrawn⟩ := ofEntries_sideBySide.1 h
    rw [← hlen] at hm hi hdrawn
    have hrs : rs ≠ [] := by
      rintro rfl
      exact hne (List.eq_nil_of_length_eq_zero hlen.symm)
    exact ⟨⟨hrs, ⟨vs, rfl, hlen.symm⟩, hm, hi, hmade⟩, hdrawn⟩
  · rintro ⟨⟨hrs, ⟨vs, rfl, hlen⟩, hm, hi, hmade⟩, hdrawn⟩
    rw [← hlen] at hm hi hdrawn
    have hvs : vs ≠ [] := by
      rintro rfl
      exact hrs (List.eq_nil_of_length_eq_zero hlen.symm)
    rw [buildRecords, entries_eq_ok_iff.2 ⟨vs, rfl, hvs, hm, hi, rfl⟩]
    exact ofEntries_sideBySide.2 ⟨⟨hlen.symm, hmade⟩, hdrawn⟩

/-! ## What may be wrong -/

/-- What may be wrong with the three lists of a write: there are no vectors, there are more or less
    metadata or ids than vectors, a vector is no list of numbers or is empty, a number has no
    double, an entry of the metadata is no object, or an id is no text or is empty. -/
inductive Malformed (vectors metadata ids : Value) : Prop
  | vectors (h : ∀ vs, vectors = .list vs → vs = [])
  | metadata (h : ¬metadata.GoesWith vectors.listed.length)
  | ids (h : ¬ids.GoesWith vectors.listed.length)
  | vector (k : Nat) (hk : k < vectors.listed.length)
      (h : ∀ xs, vectors.entry k = .list xs → xs = [])
  | number (k : Nat) (xs : List Value) (x : Value) (hv : vectors.entry k = .list xs) (hx : x ∈ xs)
      (h : isNumber x = false)
  | double (k : Nat) (xs : List Value) (n : Int) (hv : vectors.entry k = .list xs)
      (hx : .int n ∈ xs) (h : Number.ofInt? n = none)
  | object (k : Nat) (hm : metadata.entry k ≠ .null)
      (h : ∀ fields, metadata.entry k ≠ .object fields)
  | text (k : Nat) (hi : ids.entry k ≠ .null) (h : ∀ s, ids.entry k = .text s → s = "")

theorem lt_length_of_entry_ne {v : Value} {k : Nat} (h : v.entry k ≠ .null) :
    k < v.listed.length := by
  by_contra hk
  refine h ?_
  rw [Value.entry, List.getD_eq_getElem?_getD, List.getElem?_eq_none (Nat.le_of_not_lt hk)]
  rfl

theorem length_listed_le {n : Nat} {v : Value} (h : v.GoesWith n) : v.listed.length ≤ n := by
  obtain rfl | ⟨items, rfl, rfl⟩ := h
  · exact Nat.zero_le n
  · exact Nat.le_refl _

/-- No records are aligned with malformed lists. -/
theorem Malformed.not_aligned (h : Malformed vectors metadata ids) :
    ¬Aligned drawn vectors metadata ids rs := by
  rintro ⟨hrs, ⟨vs, rfl, hlen⟩, hm, hi, hmade⟩
  have hat {k : Nat} (hk : k < rs.length) := hmade k rs[k] (List.getElem?_eq_getElem hk)
  have hdoubles {k : Nat} {xs : List Value} (hv : (Value.list vs).entry k = .list xs) :
      ∀ x ∈ xs, isNumber x = true ∧ ∃ y, x.toFloat = .ok y := by
    have hk : k < vs.length := lt_length_of_entry_ne (by rw [hv]; exact nofun)
    obtain ⟨xs', hv', -, hxs⟩ := (hat (hlen ▸ hk)).vector
    rw [hv] at hv'
    cases hv'
    obtain ⟨hnumbers, hfloats⟩ := forall₂_doubleOf_iff.1 hxs
    exact fun x hx => ⟨hnumbers x hx, Store.mapM_iff.1 ⟨_, hfloats⟩ x hx⟩
  cases h with
  | vectors h =>
    rw [h vs rfl] at hlen
    exact hrs (List.eq_nil_of_length_eq_zero hlen.symm)
  | metadata h => exact h (hlen ▸ hm)
  | ids h => exact h (hlen ▸ hi)
  | vector k hk h =>
    obtain ⟨xs, hv, hne, -⟩ := (hat (hlen ▸ hk)).vector
    exact hne (h xs hv)
  | number k xs x hv hx h =>
    rw [(hdoubles hv x hx).1] at h
    cases h
  | double k xs n hv hx h =>
    obtain ⟨y, hy⟩ := (hdoubles hv _ hx).2
    rw [Value.toFloat, h] at hy
    cases hy
  | object k hk h =>
    have hlt := Nat.lt_of_lt_of_le (lt_length_of_entry_ne hk) (length_listed_le hm)
    obtain ⟨hnull, -⟩ | hobject := (hat hlt).metadata
    · exact hk hnull
    · exact h _ hobject
  | text k hk h =>
    have hlt := Nat.lt_of_lt_of_le (lt_length_of_entry_ne hk) (length_listed_le hi)
    obtain ⟨htext, hne⟩ | ⟨hnull, -⟩ := (hat hlt).id
    · exact hne (h _ htext)
    · exact hk hnull

theorem exists_madeOf {v m i : Value} (drawn : Nat)
    (hv : ∃ xs, v = .list xs ∧ xs ≠ [] ∧ ∀ x ∈ xs, isNumber x = true ∧ ∃ y, x.toFloat = .ok y)
    (hm : m = .null ∨ ∃ fields, m = .object fields) (hi : i = .null ∨ ∃ s, i = .text s ∧ s ≠ "") :
    ∃ r, MadeOf drawn v m i r := by
  obtain ⟨xs, rfl, hne, hxs⟩ := hv
  obtain ⟨ys, hys⟩ := Store.mapM_iff.2 fun x hx => (hxs x hx).2
  have hvector := forall₂_doubleOf_iff.2 ⟨fun x hx => (hxs x hx).1, hys⟩
  obtain ⟨fields, hfields⟩ : ∃ fields : Fields, m = .null ∧ fields = [] ∨ m = .object fields := by
    obtain rfl | ⟨fields, rfl⟩ := hm
    · exact ⟨[], .inl ⟨rfl, rfl⟩⟩
    · exact ⟨fields, .inr rfl⟩
  obtain ⟨id, hid⟩ :
      ∃ id, i = .text id ∧ id ≠ "" ∨ i = .null ∧ id = generatedText (drawn + 1) := by
    obtain rfl | ⟨s, rfl, hs⟩ := hi
    · exact ⟨_, .inr ⟨rfl, rfl⟩⟩
    · exact ⟨s, .inl ⟨rfl, hs⟩⟩
  exact ⟨⟨id, ys, fields⟩, ⟨xs, rfl, hne, hvector⟩, hfields, hid⟩

theorem exists_ofEntries (h : ∀ e ∈ es, ∀ drawn, ∃ r, MadeOf drawn e.1 e.2.1 e.2.2 r) :
    ∃ rs last, ofEntries position drawn es = (.ok rs, last) := by
  induction es generalizing position drawn with
  | nil => exact ⟨[], drawn, rfl⟩
  | cons e es ih =>
    obtain ⟨v, m, i⟩ := e
    obtain ⟨he, hes⟩ := List.forall_mem_cons.1 h
    obtain ⟨r, hr⟩ := he drawn
    obtain ⟨rest, last, hrest⟩ := ih hes
    exact ⟨_, last, ofEntries_cons (ofEntry_eq_ok_iff.2 ⟨hr, rfl⟩) hrest⟩

theorem exists_numbers (h : ¬Malformed vectors metadata ids) {k : Nat}
    (hk : k < vectors.listed.length) :
    ∃ xs, vectors.entry k = .list xs ∧ xs ≠ [] ∧
      ∀ x ∈ xs, isNumber x = true ∧ ∃ y, x.toFloat = .ok y := by
  obtain ⟨xs, hxs, hne⟩ : ∃ xs, vectors.entry k = .list xs ∧ xs ≠ [] := by
    by_contra hlist
    exact h (.vector k hk fun xs hxs => by_contra fun hne => hlist ⟨xs, hxs, hne⟩)
  refine ⟨xs, hxs, hne, fun x hx => ?_⟩
  have hnumber : isNumber x = true :=
    Bool.of_not_eq_false fun hx' => h (.number k xs x hxs hx hx')
  refine ⟨hnumber, ?_⟩
  cases x with
  | int n =>
    rcases hn : Number.ofInt? n with _ | y
    · exact absurd (.double k xs n hxs hx hn) h
    · exact ⟨y, by rw [Value.toFloat, hn]⟩
  | float y => exact ⟨y, rfl⟩
  | _ => cases hnumber

/-- Records can be built from lists that are not malformed. -/
theorem exists_buildRecords (drawn : Nat) (h : ¬Malformed vectors metadata ids) :
    ∃ rs last, buildRecords drawn vectors metadata ids = (.ok rs, last) := by
  obtain ⟨vs, rfl, hne⟩ : ∃ vs, vectors = .list vs ∧ vs ≠ [] := by
    by_contra hvectors
    exact h (.vectors fun vs hvs => by_contra fun hne => hvectors ⟨vs, hvs, hne⟩)
  have hm : metadata.GoesWith vs.length := by_contra fun hm => h (.metadata hm)
  have hi : ids.GoesWith vs.length := by_contra fun hi => h (.ids hi)
  rw [buildRecords, entries_eq_ok_iff.2 ⟨vs, rfl, hne, hm, hi, rfl⟩]
  refine exists_ofEntries fun e he drawn => ?_
  obtain ⟨k, hk⟩ := List.mem_iff_getElem?.1 he
  obtain ⟨hlt, rfl⟩ := getElem?_sideBySide.1 hk
  refine exists_madeOf drawn (exists_numbers h hlt) ?_ ?_
  · by_contra hm'
    obtain ⟨hnull, hobject⟩ := not_or.1 hm'
    exact h (.object k hnull fun fields hf => hobject ⟨fields, hf⟩)
  · by_contra hi'
    obtain ⟨hnull, htext⟩ := not_or.1 hi'
    exact h (.text k hnull fun s hs => by_contra fun hne => htext ⟨s, hs, hne⟩)

/-- Malformed lists, and no others, have no records. -/
theorem buildRecords_eq_error_iff :
    (∃ f, (buildRecords drawn vectors metadata ids).1 = .error f) ↔
      Malformed vectors metadata ids := by
  constructor
  · rintro ⟨f, hf⟩
    by_contra h
    obtain ⟨rs, last, hrs⟩ := exists_buildRecords drawn h
    rw [hrs] at hf
    cases hf
  · intro h
    rcases hb : buildRecords drawn vectors metadata ids with ⟨f | rs, last⟩
    · exact ⟨f, rfl⟩
    · exact absurd (buildRecords_eq_ok_iff.1 hb).1 h.not_aligned

end Record

/-! ## Refusals -/

namespace Store

variable {drawn : Nat} {name vectors metadata ids : Value}

/-- A write fails in one way whatever its store, its session and its context are, since its name or
    its records are refused: it draws ids and does nothing else, so that a backend is not asked for
    anything. -/
def FailsUnasked (drawn : Nat) (name vectors metadata ids : Value) : Prop :=
  ∃ f last,
    (requireText "name" name = .error f ∧ last = drawn ∨
      Record.buildRecords drawn vectors metadata ids = (.error f, last)) ∧
    ∀ (β : Type) (st : Store β) (s : Session β) (ctx : Option Context), s.drawn = drawn →
      (st.upsert name vectors metadata ids ctx).run s = (.error f, { s with drawn := last }) ∧
      (st.upsertWithReport name vectors metadata ids ctx).run s =
        (.error f, { s with drawn := last })

theorem failsUnasked_of_runUpsert {f : Failure} {last : Nat}
    (hf : requireText "name" name = .error f ∧ last = drawn ∨
      Record.buildRecords drawn vectors metadata ids = (.error f, last))
    (hrun : ∀ (β : Type) (st : Store β) (s : Session β) (operation : String)
      (ctx : Option Context), s.drawn = drawn →
        (st.runUpsert operation name vectors metadata ids ctx).run s =
          (.error f, { s with drawn := last })) :
    FailsUnasked drawn name vectors metadata ids :=
  ⟨f, last, hf, fun β st s ctx hs =>
    ⟨Task.run_bind_error (hrun β st s "upsert" ctx hs) _, hrun β st s _ ctx hs⟩⟩

/-- A write of malformed lists fails before a backend is asked for anything. -/
theorem failsUnasked_of_malformed (h : Record.Malformed vectors metadata ids) (drawn : Nat)
    (name : Value) : FailsUnasked drawn name vectors metadata ids := by
  -- the name is checked before the lists, and no id is drawn for a write without a name
  rcases hn : requireText "name" name with f | n
  · refine failsUnasked_of_runUpsert (.inl ⟨hn, rfl⟩) fun β st s operation ctx hs => ?_
    rw [runUpsert_eq, hn, ← hs]
    rfl
  · rcases hb : Record.buildRecords drawn vectors metadata ids with ⟨f | rs, last⟩
    · refine failsUnasked_of_runUpsert (.inr hb) fun β st s operation ctx hs => ?_
      have htake : (takeRecords vectors metadata ids).run s =
          (.error f, { s with drawn := last }) := by
        rw [run_takeRecords, drawnFor, hs, hb]
      rw [runUpsert_eq, hn]
      exact Task.run_bind_error htake _
    · exact absurd (Record.buildRecords_eq_ok_iff.1 hb).1 h.not_aligned

end Store

/-! ## All or nothing -/

namespace Record

/-- **Records are built from all entries or not at all.**  The records that are built are as many
    as the vectors and go with their entries, position by position; none are built just if the
    lists are malformed, and then a write fails before a backend is asked for anything. -/
theorem buildRecords_aligned (drawn : Nat) (vectors metadata ids : Value) :
    (∀ (rs : List Record) (last : Nat),
      buildRecords drawn vectors metadata ids = (.ok rs, last) ↔
        Aligned drawn vectors metadata ids rs ∧ last = drawn + ids.leftOut rs.length) ∧
    ((∃ f, (buildRecords drawn vectors metadata ids).1 = .error f) ↔
      Malformed vectors metadata ids) ∧
    (Malformed vectors metadata ids →
      ∀ name, Store.FailsUnasked drawn name vectors metadata ids) :=
  ⟨fun _ _ => buildRecords_eq_ok_iff, buildRecords_eq_error_iff,
    fun h name => Store.failsUnasked_of_malformed h drawn name⟩

theorem buildRecords_aligned_three :
    let vectors : Value := .list [.list [.float 0.5], .list [.float 1.5], .list [.float 2.5]]
    let metadata : Value := .list [.null, .object [("size", .int 3)], .object []]
    Aligned 4 vectors metadata (.list [.null, .text "b", .null])
      [⟨generatedText 5, [0.5], []⟩, ⟨"b", [1.5], [("size", .int 3)]⟩,
        ⟨generatedText 6, [2.5], []⟩] ∧
    Malformed vectors metadata (.list [.null, .text "b", .text ""]) ∧
    (∃ f, (buildRecords 4 vectors metadata (.list [.null, .text "b", .text ""])).1 = .error f) ∧
    Store.FailsUnasked 4 (.text "docs") vectors metadata (.list [.null, .text "b", .text ""]) := by
  intro vectors metadata
  obtain ⟨haligned, -, -⟩ :=
    buildRecords_aligned 4 vectors metadata (.list [.null, .text "b", .null])
  obtain ⟨-, herror, hfails⟩ :=
    buildRecords_aligned 4 vectors metadata (.list [.null, .text "b", .text ""])
  have hbad : Malformed vectors metadata (.list [.null, .text "b", .text ""]) :=
    .text 2 nofun fun s hs => (Value.text.inj hs).symm
  exact ⟨((haligned _ 6).1 rfl).1, hbad, herror.2 hbad, hfails hbad (.text "docs")⟩

end Record

end VectorStore
