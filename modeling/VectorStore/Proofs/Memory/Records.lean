/-
  Maps in the order of their keys, and records that are inserted into them.

  * `keys_put`, `mem_put`, `put_of_get?`, `put_comm_of_mem`: setting a field;
  * `get?_insertAll`: of the records inserted under an id the last one stays;
  * `keys_insertAll`: the ids that are new come behind the others, in the order in which they
    were written first;
  * `insertAll_insertAll`: inserting the same records once more changes nothing;
  * `insertCopies_ok`, `insertCopies_uncopied`: copies are inserted up to the first record that
    cannot be copied, and those before it stay.
-/
import Mathlib.Data.List.Nodup
import VectorStore.Memory.Store

namespace VectorStore

namespace Fields

variable {α : Type} {fields : List (String × α)} {name other : String} {value v : α}

/-! ## Fields as a map -/

/-- The names of the fields. -/
def keys (fields : List (String × α)) : List String := fields.map (·.1)

theorem get?_eq_none_iff : get? fields name = none ↔ name ∉ keys fields := by
  fun_induction get? fields name <;> simp_all [keys, eq_comm]

theorem mem_of_get? (h : get? fields name = some v) : (name, v) ∈ fields := by
  fun_induction get? fields name with
  | case1 => cases h
  | case2 => cases h; exact List.mem_cons_self ..
  | case3 _ _ _ _ ih => exact List.mem_cons_of_mem _ (ih h)

theorem get?_of_mem (hn : (keys fields).Nodup) (h : (name, v) ∈ fields) :
    get? fields name = some v := by
  induction fields with
  | nil => cases h
  | cons f fields ih =>
    obtain ⟨hf, hn⟩ := List.nodup_cons.1 hn
    rcases List.mem_cons.1 h with rfl | h
    · exact if_pos rfl
    · have hne : f.1 ≠ name := fun he => hf (List.mem_map.2 ⟨_, h, he.symm⟩)
      exact (if_neg hne).trans (ih hn h)

theorem keys_put (fields : List (String × α)) (name : String) (value : α) :
    keys (put fields name value) =
      if name ∈ keys fields then keys fields else keys fields ++ [name] := by
  fun_induction put fields name value with
  | case1 => rfl
  | case2 => simp [keys]
  | case3 n v rest hne ih =>
    have hmem : name ∈ keys ((n, v) :: rest) ↔ name ∈ keys rest := by
      simp [keys, Ne.symm hne]
    show n :: keys (put rest name value) = _
    rw [ih]
    by_cases h : name ∈ keys rest
    · rw [if_pos h, if_pos (hmem.2 h)]
      rfl
    · rw [if_neg h, if_neg (mt hmem.1 h)]
      rfl

theorem nodup_keys_put (h : (keys fields).Nodup) : (keys (put fields name value)).Nodup := by
  rw [keys_put]
  split
  · exact h
  · exact List.nodup_append'.2 ⟨h, List.nodup_singleton _, by simpa⟩

theorem mem_put {f : String × α} (h : f ∈ put fields name value) :
    f = (name, value) ∨ f ∈ fields := by
  fun_induction put fields name value with
  | case1 => exact .inl (List.mem_singleton.1 h)
  | case2 => exact (List.mem_cons.1 h).imp_right (List.mem_cons_of_mem _)
  | case3 _ _ _ _ ih =>
    rcases List.mem_cons.1 h with rfl | h
    · exact .inr (List.mem_cons_self ..)
    · exact (ih h).imp_right (List.mem_cons_of_mem _)

/-- A field set to what it is. -/
theorem put_of_get? (h : get? fields name = some value) : put fields name value = fields := by
  fun_induction put fields name value with
  | case1 => cases h
  | case2 v rest =>
    rw [get?, if_pos rfl] at h
    cases h
    rfl
  | case3 n v rest hn ih =>
    rw [get?, if_neg hn] at h
    rw [ih h]

/-- A new field goes to the end. -/
theorem put_of_get?_eq_none (h : get? fields name = none) (value : α) :
    put fields name value = fields ++ [(name, value)] := by
  fun_induction put fields name value with
  | case1 => rfl
  | case2 => simp [get?] at h
  | case3 n v rest hn ih =>
    rw [get?, if_neg hn] at h
    rw [ih h, List.cons_append]

/-- What is the same of the value before and of the one that is set is so of all fields. -/
theorem map_put {β : Type} {f : String × α → β} (h : get? fields name = some v)
    (hf : f (name, value) = f (name, v)) : (put fields name value).map f = fields.map f := by
  fun_induction put fields name value with
  | case1 => cases h
  | case2 =>
    rw [get?, if_pos rfl] at h
    cases h
    rw [List.map_cons, List.map_cons, hf]
  | case3 n w rest hn ih =>
    rw [get?, if_neg hn] at h
    rw [List.map_cons, List.map_cons, ih h]

/-- Of two values of a field the second stays. -/
theorem put_put_self (fields : List (String × α)) (name : String) (v value : α) :
    put (put fields name v) name value = put fields name value := by
  fun_induction put fields name v <;> simp_all [put]

/-- A field that is there may be set before another one or behind it. -/
theorem put_comm_of_mem (h : name ∈ keys fields) (hne : name ≠ other) (v value : α) :
    put (put fields name v) other value = put (put fields other value) name v := by
  induction fields with
  | nil => cases h
  | cons f fields ih =>
    by_cases hn : f.1 = name
    · have ho : f.1 ≠ other := hn.trans_ne hne
      simp [put, hn, hne]
    · by_cases ho : f.1 = other
      · simp [put, ho, hne.symm]
      · have h' := (List.mem_cons.1 h).resolve_left (Ne.symm hn)
        simp [put, hn, ho, ih h']

theorem keys_erase (fields : List (String × α)) (name : String) :
    keys (erase fields name) = (keys fields).filter (· ≠ name) := by
  rw [keys, erase, keys, List.filter_map]
  rfl

end Fields

namespace Memory

open Fields

/-! ## Inserted records -/

variable {records : List (String × Record)} {r : Record} {id : String}

/-- The records with more of them written, one after another. -/
def insertAll (records : List (String × Record)) (more : List Record) : List (String × Record) :=
  more.foldl (fun acc r => put acc r.id r) records

/-- The last record of an id. -/
def lastOf? (more : List Record) (id : String) : Option Record := more.reverse.find? (·.id = id)

theorem lastOf?_cons (r : Record) (more : List Record) (id : String) :
    lastOf? (r :: more) id = (lastOf? more id).or (if r.id = id then some r else none) := by
  rw [lastOf?, List.reverse_cons, List.find?_append]
  simp [lastOf?, List.find?_cons]
  split <;> simp_all

theorem lastOf?_isSome_iff {more : List Record} :
    (lastOf? more id).isSome ↔ id ∈ more.map (·.id) := by
  simp [lastOf?, List.find?_isSome]

/-- **Of the records inserted under an id the last one stays.** -/
theorem get?_insertAll (records : List (String × Record)) (more : List Record) (id : String) :
    get? (insertAll records more) id = (lastOf? more id).or (get? records id) := by
  induction more generalizing records with
  | nil => rfl
  | cons r more ih =>
    have hcons : insertAll records (r :: more) = insertAll (put records r.id r) more := rfl
    rw [hcons, ih, lastOf?_cons, Option.or_assoc]
    congr 1
    by_cases h : r.id = id
    · subst h
      rw [get?_put_self, if_pos rfl]
      rfl
    · rw [get?_put_of_ne _ _ (Ne.symm h), if_neg h]
      rfl

/-- **New ids come behind the others**, in the order in which they were written first. -/
theorem keys_insertAll (records : List (String × Record)) (more : List Record) :
    keys (insertAll records more) =
      keys records ++ ((more.map (·.id)).removeAll (keys records)).eraseDups := by
  induction more generalizing records with
  | nil => exact (List.append_nil _).symm
  | cons r more ih =>
    have hcons : insertAll records (r :: more) = insertAll (put records r.id r) more := rfl
    rw [hcons, ih, keys_put]
    by_cases h : r.id ∈ keys records
    · simp [h, List.removeAll]
    · have hfilter : (more.map (·.id)).removeAll (keys records ++ [r.id]) =
          ((more.map (·.id)).removeAll (keys records)).filter fun id => !id == r.id := by
        simp [List.removeAll, List.filter_filter, Bool.and_comm, Bool.beq_eq_decide_eq]
      have hhead : ((r :: more).map (·.id)).removeAll (keys records) =
          r.id :: (more.map (·.id)).removeAll (keys records) := by
        simp [List.removeAll, h]
      rw [if_neg h, hfilter, hhead, List.eraseDups_cons, List.append_assoc]
      rfl

theorem nodup_keys_insertAll (h : (keys records).Nodup) (more : List Record) :
    (keys (insertAll records more)).Nodup := by
  induction more generalizing records with
  | nil => exact h
  | cons r more ih => exact ih (nodup_keys_put h)

theorem mem_insertAll {more : List Record} {f : String × Record}
    (h : f ∈ insertAll records more) : f ∈ records ∨ f.2 ∈ more ∧ f.1 = f.2.id := by
  induction more generalizing records with
  | nil => exact .inl h
  | cons r more ih =>
    rcases ih h with h | ⟨hm, hid⟩
    · rcases mem_put h with rfl | h
      · exact .inr ⟨List.mem_cons_self .., rfl⟩
      · exact .inl h
    · exact .inr ⟨List.mem_cons_of_mem _ hm, hid⟩

theorem insertAll_append (records : List (String × Record)) (more others : List Record) :
    insertAll records (more ++ others) = insertAll (insertAll records more) others :=
  List.foldl_append

/-- A record whose id is there already, and is written later on, leaves no trace. -/
theorem insertAll_put {more : List Record} (hid : r.id ∈ more.map (·.id))
    (h : r.id ∈ keys records) : insertAll (put records r.id r) more = insertAll records more := by
  induction more generalizing records with
  | nil => cases hid
  | cons r' more ih =>
    show insertAll (put (put records r.id r) r'.id r') more = insertAll (put records r'.id r') more
    by_cases he : r.id = r'.id
    · rw [he, put_put_self]
    · have hin : r.id ∈ keys (put records r'.id r') := by
        rw [keys_put]
        split
        · exact h
        · exact List.mem_append_left _ h
      rw [put_comm_of_mem h he]
      exact ih ((List.mem_cons.1 hid).resolve_left he) hin

/-- Records whose ids all stand for what would stay in the end are in place already. -/
theorem insertAll_of_get? {more : List Record}
    (h : ∀ id ∈ more.map (·.id), get? records id = lastOf? more id) :
    insertAll records more = records := by
  induction more generalizing records with
  | nil => rfl
  | cons r more ih =>
    have hmore : ∀ id ∈ more.map (·.id), get? records id = lastOf? more id := fun id hid => by
      obtain ⟨last, hlast⟩ := Option.isSome_iff_exists.1 (lastOf?_isSome_iff.2 hid)
      rw [h id (List.mem_cons_of_mem _ hid), lastOf?_cons, hlast]
      rfl
    have hr := h r.id (List.mem_cons_self ..)
    show insertAll (put records r.id r) more = records
    by_cases hid : r.id ∈ more.map (·.id)
    · have hkey : r.id ∈ keys records := by
        by_contra hk
        rw [hmore _ hid] at hr
        have hsome := lastOf?_isSome_iff.2 hid
        rw [← hmore _ hid, get?_eq_none_iff.2 hk] at hsome
        cases hsome
      rw [insertAll_put hid hkey, ih hmore]
    · have hnone : lastOf? more r.id = none := by
        rw [← Option.not_isSome_iff_eq_none, lastOf?_isSome_iff]
        exact hid
      rw [lastOf?_cons, hnone, if_pos rfl] at hr
      rw [put_of_get? hr, ih hmore]

/-! ## Copies of records -/

variable {copy : Fields → Except Fault Fields}

/-- Records that can be copied are all inserted, and then what comes behind them. -/
theorem insertCopies_append {good : List Record}
    (h : ∀ r ∈ good, copy r.metadata = .ok r.metadata) (records : List (String × Record))
    (rest : List Record) :
    insertCopies copy records (good ++ rest) =
      insertCopies copy (insertAll records good) rest := by
  induction good generalizing records with
  | nil => rfl
  | cons r good ih =>
    rw [List.cons_append, insertCopies, h r (List.mem_cons_self ..)]
    exact ih (fun r' hr' => h r' (List.mem_cons_of_mem r hr')) _

/-- Where everything can be copied all records are inserted. -/
theorem insertCopies_ok (records : List (String × Record)) (more : List Record) :
    insertCopies .ok records more = (insertAll records more, .ok ()) := by
  have h : insertCopies .ok records (more ++ []) = insertCopies .ok (insertAll records more) [] :=
    insertCopies_append (fun _ _ => rfl) records []
  rwa [List.append_nil] at h

/-- **Of the records before one that cannot be copied all stay**, and of the others none does. -/
theorem insertCopies_uncopied {good rest : List Record} {bad : Record} {e : Fault}
    (h : ∀ r ∈ good, copy r.metadata = .ok r.metadata) (hbad : copy bad.metadata = .error e)
    (records : List (String × Record)) :
    insertCopies copy records (good ++ bad :: rest) = (insertAll records good, .error e) := by
  rw [insertCopies_append h, insertCopies, hbad]

/-- Whatever can be copied, what is inserted has the ids and the vectors of what is written. -/
theorem exists_insertCopies (copy : Fields → Except Fault Fields)
    (records : List (String × Record)) (more : List Record) :
    ∃ rs, (insertCopies copy records more).1 = insertAll records rs ∧
      ∀ r ∈ rs, ∃ r' ∈ more, r.id = r'.id ∧ r.vector = r'.vector := by
  induction more generalizing records with
  | nil => exact ⟨[], rfl, by simp⟩
  | cons r more ih =>
    rw [insertCopies]
    rcases copy r.metadata with e | metadata
    · exact ⟨[], rfl, by simp⟩
    · obtain ⟨rs, hrs, hof⟩ := ih (put records r.id { r with metadata })
      refine ⟨{ r with metadata } :: rs, hrs, List.forall_mem_cons.2 ⟨?_, fun r' hr' => ?_⟩⟩
      · exact ⟨r, List.mem_cons_self .., rfl, rfl⟩
      · obtain ⟨r'', hmem, hsame⟩ := hof r' hr'
        exact ⟨r'', List.mem_cons_of_mem r hmem, hsame⟩

/-- **Inserting the same records once more changes nothing.** -/
theorem insertAll_insertAll (records : List (String × Record)) (more : List Record) :
    insertAll (insertAll records more) more = insertAll records more := by
  refine insertAll_of_get? fun id hid => ?_
  obtain ⟨last, hlast⟩ := Option.isSome_iff_exists.1 (lastOf?_isSome_iff.2 hid)
  rw [get?_insertAll, hlast]
  rfl

end Memory

end VectorStore
