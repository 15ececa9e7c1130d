/-
  Services' names for the metrics.

  A table of names is a mapping: it has no metric twice.

  * `exists_ofTable_iff`: a table is accepted just if all metrics are in it and no name is twice;
  * `toNative_eq_iff`, `fromNative_eq_ok_iff`: both directions of a mapper read its table;
  * `Exact` says that the two directions undo each other, and refuse everything outside the table
    (`Refused`);
    `ofTable_exact`: so they do for every table that is accepted.
-/
import Mathlib.Data.List.Nodup
import VectorStore.Metric.Mapper

namespace VectorStore

variable {α : Type}

/-- A result that is refused as not valid because of a value, which is shown; if there is no text
    of the value, all there is to report is the fault of making one. -/
def Refused (shown : Value) (r : Except Failure α) : Prop :=
  (shown.isWritable = true → ∃ e, r = .error (.error e) ∧ e.category = .validation) ∧
  (shown.isWritable = false → r = .error (.fault .intTooLong))

theorem refused_showing {shown : Value} {e : StoreError} (h : e.category = .validation) :
    Refused shown (.error (.showing shown e) : Except Failure α) := by
  refine ⟨fun hs => ⟨e, ?_, h⟩, fun hs => ?_⟩
  · rw [Failure.showing, if_pos hs]
  · rw [Failure.showing, hs]
    rfl

/-! ## Canonical names -/

namespace Metric

theorem ofName?_eq_some_iff {s : String} {m : Metric} : ofName? s = some m ↔ s = m.name := by
  constructor
  · intro h
    have hname : (m.name == s) = true := List.find?_some (p := fun m : Metric => m.name == s) h
    exact (beq_iff_eq.1 hname).symm
  · rintro rfl
    exact ofName?_name m

/-- A document names a metric just if it is its canonical name. -/
theorem ofValue_eq_ok_iff {v : Value} {m : Metric} : ofValue v = .ok m ↔ v = .text m.name := by
  cases v with
  | text s =>
    rw [ofValue, Value.text.injEq, ← ofName?_eq_some_iff]
    cases ofName? s <;> simp
  | _ => exact iff_of_false nofun nofun

/-- All other documents are refused. -/
theorem refused_ofValue {v : Value} (h : ∀ m : Metric, v ≠ .text m.name) :
    Refused v (ofValue v) := by
  unfold ofValue
  split
  · next s =>
    split
    · next m hm => exact absurd (congrArg Value.text (ofName?_eq_some_iff.1 hm)) (h m)
    · exact refused_showing rfl
  · exact refused_showing rfl

end Metric

namespace Mapper

variable {service s : String} {table : List (Metric × String)} {mapper : Mapper} {m : Metric}
  {native : NativeMetric}

/-! ## Tables that are accepted -/

theorem missingFrom_eq_nil_iff : missingFrom table = [] ↔ ∀ m, ∃ s, (m, s) ∈ table := by
  have hfound (m : Metric) : (table.lookup m).isSome = true ↔ ∃ s, (m, s) ∈ table := by
    rw [← not_iff_not, Bool.not_eq_true, Option.isSome_eq_false_iff, Option.isNone_iff_eq_none,
      List.lookup_eq_none_iff]
    simp only [Prod.forall, bne_iff_ne, not_exists]
    constructor
    · intro h s hs
      exact h m s hs rfl
    · rintro h m' s hs rfl
      exact h s hs
  rw [missingFrom, List.filter_eq_nil_iff]
  constructor
  · intro h m
    exact (hfound m).1 (by simpa using h m (Metric.mem_all m))
  · intro h m _
    simpa using (hfound m).2 (h m)

theorem firstRepeated_eq_none_iff {seen names : List String} :
    firstRepeated seen names = none ↔ names.Nodup ∧ ∀ n ∈ names, n ∉ seen := by
  refine ⟨nodup_of_firstRepeated, ?_⟩
  induction names generalizing seen with
  | nil => exact fun _ => rfl
  | cons n names ih =>
    rintro ⟨hnodup, hseen⟩
    obtain ⟨hn, hnames⟩ := List.nodup_cons.1 hnodup
    rw [firstRepeated, if_neg (hseen n (List.mem_cons_self ..))]
    refine ih ⟨hnames, fun k hk hmem => ?_⟩
    rcases List.mem_cons.1 hmem with rfl | hmem
    · exact hn hk
    · exact hseen k (List.mem_cons_of_mem _ hk) hmem

/-- **A table is accepted just if all metrics are in it and no name is there twice.** -/
theorem exists_ofTable_iff : (∃ mapper, ofTable service table = .ok mapper) ↔
    (∀ m, ∃ s, (m, s) ∈ table) ∧ (table.map (·.2)).Nodup := by
  have hnodup : firstRepeated [] (table.map (·.2)) = none ↔ (table.map (·.2)).Nodup := by
    simp [firstRepeated_eq_none_iff]
  rw [← missingFrom_eq_nil_iff, ← hnodup]
  unfold ofTable
  split
  · next hm =>
    split
    · next hr => simp [hr]
    · next hr => simp [hm, hr]
  · next hm => simp [hm]

/-- The table of a mapper is the one that it was made of. -/
theorem table_of_ofTable (h : ofTable service table = .ok mapper) : mapper.table = table := by
  unfold ofTable at h
  split at h
  · split at h <;> cases h
    rfl
  · cases h

/-! ## The two directions -/

theorem toNative_mem (mapper : Mapper) (m : Metric) : (m, mapper.toNative m) ∈ mapper.table := by
  have hlookup : mapper.table.lookup m = some (mapper.toNative m) := (Option.some_get _).symm
  obtain ⟨before, after, htable, -⟩ := List.lookup_eq_some_iff.1 hlookup
  rw [htable]
  exact List.mem_append_right _ (List.mem_cons_self ..)

/-- In a mapping a metric has its name from the table. -/
theorem toNative_eq_iff (hkeys : (mapper.table.map (·.1)).Nodup) :
    mapper.toNative m = s ↔ (m, s) ∈ mapper.table := by
  constructor
  · rintro rfl
    exact toNative_mem mapper m
  · intro hs
    have hentry := List.inj_on_of_nodup_map hkeys (toNative_mem mapper m) hs rfl
    exact (Prod.mk.inj hentry).2

theorem ofName?_eq_some_iff : mapper.ofName? s = some m ↔ (m, s) ∈ mapper.table := by
  rw [ofName?, Option.map_eq_some_iff]
  constructor
  · rintro ⟨⟨m', s'⟩, hfind, rfl⟩
    obtain rfl : s' = s := by simpa using List.find?_some hfind
    exact List.mem_of_find?_eq_some hfind
  · intro hm
    obtain ⟨p, hp⟩ := Option.isSome_iff_exists.1 <|
      List.find?_isSome (p := fun p => p.2 == s) |>.2 ⟨(m, s), hm, beq_self_eq_true s⟩
    -- no other entry has the name
    have hentry : p = (m, s) := List.inj_on_of_nodup_map mapper.distinct
      (List.mem_of_find?_eq_some hp) hm (by simpa using List.find?_some hp)
    exact ⟨p, hp, congrArg Prod.fst hentry⟩

/-- A service's name stands for a metric just if the table has it for this metric. -/
theorem fromNative_eq_ok_iff : mapper.fromNative native = .ok m ↔
    ∃ s, native.value = .text s ∧ (m, s) ∈ mapper.table := by
  unfold fromNative
  split
  · next s hs =>
    rw [hs]
    simp only [Value.text.injEq, exists_eq_left', ← ofName?_eq_some_iff]
    cases mapper.ofName? s <;> simp
  · next hs => exact iff_of_false nofun fun ⟨s, h, _⟩ => hs s h

/-- All other names are refused. -/
theorem refused_fromNative (h : ∀ s ∈ mapper.table.map (·.2), native.value ≠ .text s) :
    Refused native.value (mapper.fromNative native) := by
  rcases hr : mapper.fromNative native with f | m
  · have hf : f = mapper.refusal native := by
      unfold fromNative at hr
      split at hr
      · split at hr <;> cases hr
        rfl
      · cases hr
        rfl
    exact hf ▸ refused_showing rfl
  · obtain ⟨s, hs, hm⟩ := fromNative_eq_ok_iff.1 hr
    exact absurd hs (h s (List.mem_map.2 ⟨_, hm, rfl⟩))

/-- The service's name for the metric that a document names. -/
def nativeOf (mapper : Mapper) (v : Value) : Except Failure String :=
  (Metric.ofValue v).map mapper.toNative

/-- The two directions of a mapper undo each other on a table, and refuse what is outside. -/
structure Exact (mapper : Mapper) (table : List (Metric × String)) : Prop where
  /-- a metric has its name from the table -/
  named (m : Metric) : (m, mapper.toNative m) ∈ table
  /-- and is meant by its canonical name -/
  canonical (m : Metric) : mapper.nativeOf (.text m.name) = .ok (mapper.toNative m)
  /-- a metric is read back from its name, -/
  readBack (m : Metric) {native : NativeMetric} :
    native.value = .text (mapper.toNative m) → mapper.fromNative native = .ok m
  /-- and a name of the table is that of the metric which it stands for -/
  writtenBack {s : String} {native : NativeMetric} : s ∈ table.map (·.2) →
    native.value = .text s → ∃ m, mapper.fromNative native = .ok m ∧ mapper.toNative m = s
  noMetric {v : Value} : (∀ m : Metric, v ≠ .text m.name) → Refused v (mapper.nativeOf v)
  noName {n : NativeMetric} : (∀ s ∈ table.map (·.2), n.value ≠ .text s) →
    Refused n.value (mapper.fromNative n)

theorem exact_table (hkeys : (mapper.table.map (·.1)).Nodup) : mapper.Exact mapper.table where
  named := toNative_mem mapper
  canonical m := by rw [nativeOf, Metric.ofValue_eq_ok_iff.2 rfl]; rfl
  readBack m := fromNative_toNative mapper
  writtenBack {s native} hs hv := by
    obtain ⟨⟨m, s⟩, hm, rfl⟩ := List.mem_map.1 hs
    exact ⟨m, fromNative_eq_ok_iff.2 ⟨s, hv, hm⟩, (toNative_eq_iff hkeys).2 hm⟩
  noMetric hv := by
    obtain ⟨hshown, hbare⟩ := Metric.refused_ofValue hv
    refine ⟨fun h => ?_, fun h => ?_⟩
    · obtain ⟨e, he, hcategory⟩ := hshown h
      exact ⟨e, by rw [nativeOf, he]; rfl, hcategory⟩
    · rw [nativeOf, hbare h]
      rfl
  noName := refused_fromNative

/-- A table in which a metric has the canonical name of another one. -/
def crossed : List (Metric × String) :=
  [(.dotproduct, "cosine"), (.cosine, "angular"), (.euclidean, "L2")]

end Mapper

end VectorStore
