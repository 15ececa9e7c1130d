/-
  The records of a write.

  * `buildRecords_firstItems`: the first entries of the three lists alone give the first
    records;
  * `buildRecords_getElem?`: the record at a position is made of the vector and the metadata at
    this position;
  * `map_id_buildRecords`: the ids are those that are given, and where none is the next ones of
    the supply, in the order of the entries (`idsFrom`);
  * `buildRecords_of_explicit`: if all ids are given, the supply is nothing to the records.
-/
import Mathlib.Data.List.Basic
import VectorStore.Store.Record

namespace VectorStore

/-- The document with no more than the first `n` items, if it is a list. -/
def Value.firstItems (n : Nat) : Value → Value
  | .list items => .list (items.take n)
  | v => v

namespace Record

variable {position drawn drawn' : Nat} {vectors metadata ids : Value}
  {es : List (Value × Value × Value)} {rs : List Record}

/-! ## Entries -/

theorem idOf_ok {v : Value} {id : String} {next : Nat}
    (h : idOf position drawn v = .ok (id, next)) :
    (v = .text id ∧ next = drawn) ∨
      (v = .null ∧ id = generatedText (drawn + 1) ∧ next = drawn + 1) := by
  cases v with
  | null =>
    obtain ⟨hid, hnext⟩ := Prod.mk.inj (Except.ok.inj h)
    exact .inr ⟨rfl, hid.symm, hnext.symm⟩
  | text s =>
    rw [idOf] at h
    split at h <;> cases h
    exact .inl ⟨rfl, rfl⟩
  | _ => cases h

theorem metadataOf_eq_ok_iff {m : Value} {fields : Fields} :
    metadataOf position m = .ok fields ↔ m = .null ∧ fields = [] ∨ m = .object fields := by
  cases m with
  | null => simp [metadataOf, eq_comm]
  | _ => simp [metadataOf]

/-- What the record of an entry is made of. -/
theorem ofEntry_ok {v m i : Value} {r : Record} {next : Nat}
    (h : ofEntry position drawn v m i = .ok (r, next)) :
    vectorOf s!"vectors[{Number.natText position}]" v = .ok r.vector ∧
      metadataOf position m = .ok r.metadata ∧ idOf position drawn i = .ok (r.id, next) := by
  rw [ofEntry] at h
  rcases hv : vectorOf s!"vectors[{Number.natText position}]" v with f | xs <;> rw [hv] at h
  · cases h
  rcases hm : metadataOf position m with f | fields <;> rw [hm] at h
  · cases h
  rcases hi : idOf position drawn i with f | ⟨id, d⟩ <;> rw [hi] at h
  · cases h
  cases h
  exact ⟨rfl, rfl, rfl⟩

/-- The records of entries are the record of the first one and those of the others. -/
theorem ofEntries_cons_ok {v m i : Value}
    (h : ofEntries position drawn ((v, m, i) :: es) = (.ok rs, drawn')) :
    ∃ r next rest, ofEntry position drawn v m i = .ok (r, next) ∧
      ofEntries (position + 1) next es = (.ok rest, drawn') ∧ rs = r :: rest := by
  rw [ofEntries] at h
  rcases he : ofEntry position drawn v m i with f | ⟨r, next⟩ <;> rw [he] at h
  · cases h
  dsimp only at h
  rcases hrest : ofEntries (position + 1) next es with ⟨f | rest, d⟩ <;> rw [hrest] at h
  · cases h
  cases h
  exact ⟨r, next, rest, rfl, hrest, rfl⟩

theorem ofEntries_cons {v m i : Value} {r : Record} {next : Nat} {rest : List Record}
    (he : ofEntry position drawn v m i = .ok (r, next))
    (h : ofEntries (position + 1) next es = (.ok rest, drawn')) :
    ofEntries position drawn ((v, m, i) :: es) = (.ok (r :: rest), drawn') := by
  rw [ofEntries, he]
  simp only [h]
  rfl

theorem length_ofEntries (h : ofEntries position drawn es = (.ok rs, drawn')) :
    rs.length = es.length := by
  induction es generalizing position drawn rs with
  | nil =>
    cases h
    rfl
  | cons e es ih =>
    obtain ⟨r, next, rest, -, hrest, rfl⟩ := ofEntries_cons_ok h
    rw [List.length_cons, ih hrest, List.length_cons]

/-- The record at a position is made of the entry at this position. -/
theorem ofEntries_getElem? (h : ofEntries position drawn es = (.ok rs, drawn')) {k : Nat}
    {v m i : Value} (hk : es[k]? = some (v, m, i)) :
    ∃ r, rs[k]? = some r ∧ vectorOf s!"vectors[{Number.natText (position + k)}]" v = .ok r.vector ∧
      metadataOf (position + k) m = .ok r.metadata := by
  induction es generalizing position drawn rs k with
  | nil => cases hk
  | cons e es ih =>
    obtain ⟨r, next, rest, he, hrest, rfl⟩ := ofEntries_cons_ok h
    cases k with
    | zero =>
      cases hk
      obtain ⟨hv, hm, -⟩ := ofEntry_ok he
      exact ⟨r, rfl, hv, hm⟩
    | succ k =>
      have hrec := ih hrest hk
      rwa [Nat.add_right_comm] at hrec

/-- The first entries alone give the first records. -/
theorem ofEntries_take (h : ofEntries position drawn es = (.ok rs, drawn')) (n : Nat) :
    ∃ last, ofEntries position drawn (es.take n) = (.ok (rs.take n), last) := by
  induction es generalizing position drawn rs n with
  | nil =>
    cases h
    exact ⟨_, by rw [List.take_nil, List.take_nil]; rfl⟩
  | cons e es ih =>
    obtain ⟨r, next, rest, he, hrest, rfl⟩ := ofEntries_cons_ok h
    cases n with
    | zero => exact ⟨_, rfl⟩
    | succ n =>
      obtain ⟨last, ht⟩ := ih hrest n
      exact ⟨last, ofEntries_cons he ht⟩

/-- The ids that records get: those that are given, and where none is the next ones of the
    supply. -/
def idsFrom (drawn : Nat) : List Value → List String
  | [] => []
  | .text s :: given => s :: idsFrom drawn given
  | _ :: given => generatedText (drawn + 1) :: idsFrom (drawn + 1) given

theorem map_id_ofEntries (h : ofEntries position drawn es = (.ok rs, drawn')) :
    rs.map Record.id = idsFrom drawn (es.map (·.2.2)) := by
  induction es generalizing position drawn rs with
  | nil =>
    cases h
    rfl
  | cons e es ih =>
    obtain ⟨r, next, rest, he, hrest, rfl⟩ := ofEntries_cons_ok h
    rw [List.map_cons, ih hrest, List.map_cons]
    rcases idOf_ok (ofEntry_ok he).2.2 with ⟨hid, rfl⟩ | ⟨hid, hr, rfl⟩
    · rw [hid, idsFrom]
    · rw [hid, idsFrom, hr]
      nofun

/-- If all ids are given, the supply is nothing to the records. -/
theorem ofEntries_of_explicit (hes : ∀ e ∈ es, e.2.2 ≠ .null)
    (h : ofEntries position drawn es = (.ok rs, drawn')) (supply : Nat) :
    ofEntries position supply es = (.ok rs, supply) := by
  induction es generalizing position drawn rs with
  | nil =>
    cases h
    rfl
  | cons e es ih =>
    obtain ⟨v, m, i⟩ := e
    obtain ⟨r, next, rest, he, hrest, rfl⟩ := ofEntries_cons_ok h
    have hrest' := ih (fun e' he' => hes e' (List.mem_cons_of_mem _ he')) hrest
    refine ofEntries_cons ?_ hrest'
    obtain ⟨hv, hm, hi⟩ := ofEntry_ok he
    rcases idOf_ok hi with ⟨rfl, -⟩ | ⟨rfl, -, -⟩
    · have hi' : idOf position supply (.text r.id) = .ok (r.id, supply) := by
        rw [idOf] at hi ⊢
        split at hi
        · cases hi
        · rw [if_neg ‹_›]
      rw [ofEntry, hv, hm, hi']
      rfl
    · exact absurd rfl (hes _ (List.mem_cons_self ..))

/-! ## The three lists -/

/-- The entries that are given, nulls if there are none. -/
def given (n : Nat) : Value → List Value
  | .list items => items
  | _ => List.replicate n .null

theorem companions_ok {name : String} {n : Nat} {v : Value} {items : List Value}
    (h : companions name n v = .ok items) : items = given n v ∧ items.length = n := by
  cases v with
  | null =>
    cases h
    exact ⟨rfl, List.length_replicate ..⟩
  | list items' =>
    rw [companions] at h
    dsimp only at h
    split at h <;> cases h
    exact ⟨rfl, ‹_›⟩
  | _ => cases h

theorem companions_firstItems {name : String} {n : Nat} {v : Value} {items : List Value}
    (h : companions name n v = .ok items) (m : Nat) :
    companions name (min m n) (v.firstItems m) = .ok (items.take m) := by
  cases v with
  | null =>
    cases h
    exact congrArg Except.ok (List.take_replicate ..).symm
  | list items' =>
    rw [companions] at h
    dsimp only at h
    split at h <;> cases h
    rw [Value.firstItems, companions]
    exact if_pos (by rw [List.length_take, ‹items.length = n›])
  | _ => cases h

/-- The three lists of a write, as many entries in each of them. -/
theorem entries_ok (h : entries vectors metadata ids = .ok es) :
    ∃ v vs ms is, vectors = .list (v :: vs) ∧
      companions "metadata" (v :: vs).length metadata = .ok ms ∧
      companions "ids" (v :: vs).length ids = .ok is ∧ es = (v :: vs).zip (ms.zip is) := by
  cases vectors with
  | list items =>
    cases items with
    | nil => cases h
    | cons v vs =>
      rw [entries] at h
      rcases hm : companions "metadata" (v :: vs).length metadata with f | ms <;> rw [hm] at h
      · cases h
      rcases hi : companions "ids" (v :: vs).length ids with f | is <;> rw [hi] at h
      · cases h
      cases h
      exact ⟨v, vs, ms, is, rfl, hm, hi, rfl⟩
  | _ => cases h

theorem entries_firstItems (h : entries vectors metadata ids = .ok es) {n : Nat} (hn : 0 < n) :
    entries (vectors.firstItems n) (metadata.firstItems n) (ids.firstItems n) =
      .ok (es.take n) := by
  obtain ⟨v, vs, ms, is, rfl, hm, hi, rfl⟩ := entries_ok h
  obtain ⟨n, rfl⟩ := Nat.exists_eq_succ_of_ne_zero (Nat.ne_of_gt hn)
  have hlen : (v :: vs.take n).length = min (n + 1) (v :: vs).length :=
    List.length_take (i := n + 1) (l := v :: vs)
  have hm' := companions_firstItems hm (n + 1)
  have hi' := companions_firstItems hi (n + 1)
  rw [← hlen] at hm' hi'
  show entries (.list (v :: vs.take n)) _ _ = _
  rw [entries, hm', hi']
  show Except.ok (((v :: vs).take (n + 1)).zip _) = _
  simp only [List.zip, List.take_zipWith]

theorem buildRecords_ok (h : buildRecords drawn vectors metadata ids = (.ok rs, drawn')) :
    ∃ es, entries vectors metadata ids = .ok es ∧ ofEntries 0 drawn es = (.ok rs, drawn') := by
  rw [buildRecords] at h
  rcases he : entries vectors metadata ids with f | es <;> rw [he] at h
  · cases h
  · exact ⟨es, rfl, h⟩

/-- As many vectors, metadata and ids as there are records. -/
theorem buildRecords_lists (h : buildRecords drawn vectors metadata ids = (.ok rs, drawn')) :
    ∃ vs, vectors = .list vs ∧ rs ≠ [] ∧ vs.length = rs.length ∧
      (given rs.length metadata).length = rs.length ∧ (given rs.length ids).length = rs.length ∧
      ofEntries 0 drawn (vs.zip ((given rs.length metadata).zip (given rs.length ids))) =
        (.ok rs, drawn') := by
  obtain ⟨es, he, h⟩ := buildRecords_ok h
  obtain ⟨v, vs, ms, is, rfl, hm, hi, rfl⟩ := entries_ok he
  obtain ⟨rfl, hmlen⟩ := companions_ok hm
  obtain ⟨rfl, hilen⟩ := companions_ok hi
  have hlen : rs.length = (v :: vs).length := by
    rw [length_ofEntries h, List.length_zip, List.length_zip, hmlen, hilen, Nat.min_self,
      Nat.min_self]
  rw [← hlen] at h hmlen hilen
  exact ⟨v :: vs, rfl, List.ne_nil_of_length_eq_add_one hlen, hlen.symm, hmlen, hilen, h⟩

/-- **The first entries of the three lists alone give the first records.** -/
theorem buildRecords_firstItems (h : buildRecords drawn vectors metadata ids = (.ok rs, drawn'))
    {n : Nat} (hn : 0 < n) :
    ∃ last, buildRecords drawn (vectors.firstItems n) (metadata.firstItems n) (ids.firstItems n) =
      (.ok (rs.take n), last) := by
  obtain ⟨es, he, h⟩ := buildRecords_ok h
  rw [buildRecords, entries_firstItems he hn]
  exact ofEntries_take h n

/-- The record at a position is made of the vector and the metadata at this position. -/
theorem buildRecords_getElem? (h : buildRecords drawn vectors metadata ids = (.ok rs, drawn'))
    {k : Nat} {v m : Value} (hv : (given rs.length vectors)[k]? = some v)
    (hm : (given rs.length metadata)[k]? = some m) :
    ∃ r, rs[k]? = some r ∧ vectorOf s!"vectors[{Number.natText k}]" v = .ok r.vector ∧
      metadataOf k m = .ok r.metadata := by
  obtain ⟨vs, rfl, -, hlen, hmlen, hilen, h⟩ := buildRecords_lists h
  obtain ⟨i, hi⟩ : ∃ i, (given rs.length ids)[k]? = some i := by
    obtain ⟨hlt, -⟩ := List.getElem?_eq_some_iff.1 hm
    exact ⟨_, List.getElem?_eq_getElem (by rw [hilen, ← hmlen]; exact hlt)⟩
  have hk : (vs.zip ((given rs.length metadata).zip (given rs.length ids)))[k]? =
      some (v, m, i) := by
    rw [List.getElem?_zip_eq_some, List.getElem?_zip_eq_some]
    exact ⟨hv, hm, hi⟩
  have hrecord := ofEntries_getElem? h hk
  rwa [Nat.zero_add] at hrecord

/-- **The ids are those that are given**, and where none is the next ones of the supply. -/
theorem map_id_buildRecords (h : buildRecords drawn vectors metadata ids = (.ok rs, drawn')) :
    rs.map Record.id = idsFrom drawn (given rs.length ids) := by
  obtain ⟨vs, rfl, -, hlen, hmlen, hilen, h⟩ := buildRecords_lists h
  have hthird : (vs.zip ((given rs.length metadata).zip (given rs.length ids))).map (·.2.2) =
      given rs.length ids := by
    have hthen : (fun e : Value × Value × Value => e.2.2) = Prod.snd ∘ Prod.snd := rfl
    rw [hthen, ← List.map_map, List.map_snd_zip, List.map_snd_zip]
    · exact Nat.le_of_eq (hilen.trans hmlen.symm)
    · exact Nat.le_of_eq (by rw [List.length_zip, hlen, hmlen, hilen, Nat.min_self])
  rw [map_id_ofEntries h, hthird]

/-- If all ids are given, the supply is nothing to the records. -/
theorem buildRecords_of_explicit {items : List Value} (hids : ∀ v ∈ items, v ≠ .null)
    (h : buildRecords drawn vectors metadata (.list items) = (.ok rs, drawn')) (supply : Nat) :
    buildRecords supply vectors metadata (.list items) = (.ok rs, supply) := by
  obtain ⟨es, he, h⟩ := buildRecords_ok h
  rw [buildRecords, he]
  refine ofEntries_of_explicit (fun e hmem => ?_) h supply
  obtain ⟨v, vs, ms, is, rfl, hm, hi, rfl⟩ := entries_ok he
  obtain ⟨rfl, -⟩ := companions_ok hi
  exact hids _ (List.of_mem_zip (List.of_mem_zip hmem).2).2

end Record

end VectorStore
