/-
  What operations are refused with.

  The failure of a batched write of which some chunks were written has a category of its own.
  Every other failure is one of the whole operation (`Failure.Whole`); so are all refusals of
  arguments (`FailsWhole`).  An argument that is not refused is what it has to be
  (`requireText_ok`, `requirePositive_ok`, `metric_ok`).
-/
import Mathlib.Tactic.SplitIfs
import VectorStore.Store.Operations

namespace VectorStore

variable {ε α β : Type}

/-- The category of a failure that is a store error. -/
def Failure.category? (f : Failure) : Option Category := f.storeError?.map (·.category)

/-- A failure of an operation as a whole, not of a write at one of its chunks. -/
def Failure.Whole (f : Failure) : Prop := f.category? ≠ some .batchUpsert

theorem Failure.whole_fault (f : Fault) : (Failure.fault f).Whole := nofun

theorem Failure.whole_error {e : StoreError} (h : e.category ≠ .batchUpsert) :
    (Failure.error e).Whole := fun he => h (Option.some.inj he)

theorem Failure.isCancellation_showing (v : Value) (e : StoreError) :
    (Failure.showing v e).isCancellation = false := by
  rw [Failure.showing]
  split <;> rfl

theorem Store.asTimeout_showing (v : Value) (e : StoreError) :
    asTimeout (.showing v e) = .showing v e := by
  rw [Failure.showing]
  split <;> rfl

theorem Failure.whole_showing {v : Value} {e : StoreError} (h : e.category ≠ .batchUpsert) :
    (Failure.showing v e).Whole := by
  rw [Failure.showing]
  split
  · exact Failure.whole_error h
  · exact Failure.whole_fault _

/-- Where a result is a failure, it is one of the whole operation. -/
def FailsWhole (r : Except Failure α) : Prop := ∀ f, r = .error f → f.Whole

theorem failsWhole_ok (a : α) : FailsWhole (.ok a) := nofun

theorem failsWhole_error {f : Failure} (h : f.Whole) : FailsWhole (.error f : Except Failure α) :=
  fun _ he => Except.error.inj he ▸ h

theorem failsWhole_fault (r : Except Fault α) : FailsWhole (r.mapError .fault) := by
  rcases r with f | a
  · exact failsWhole_error (Failure.whole_fault f)
  · exact failsWhole_ok a

theorem failsWhole_mapError {e : ε → Failure} (he : ∀ x, (e x).Whole) (r : Except ε α) :
    FailsWhole (r.mapError e) := by
  rcases r with x | a
  · exact failsWhole_error (he x)
  · exact failsWhole_ok a

theorem FailsWhole.bind {r : Except Failure α} {f : α → Except Failure β} (hr : FailsWhole r)
    (hf : ∀ a, FailsWhole (f a)) : FailsWhole (r >>= f) := by
  rcases r with e | a
  · exact failsWhole_error (hr e rfl)
  · exact hf a

theorem FailsWhole.map {r : Except Failure α} (hr : FailsWhole r) (f : α → β) :
    FailsWhole (r.map f) := by
  rcases r with e | a
  · exact failsWhole_error (hr e rfl)
  · exact failsWhole_ok (f a)

/-! ## Arguments -/

/-- A refusal of a filter is a validation error, or the fault of a value without a text. -/
theorem Filter.Refusal.failure_cases (r : Filter.Refusal) :
    (∃ e : StoreError, r.failure = .error e ∧ e.category = .validation) ∨
      r.failure = .fault .intTooLong := by
  have hshowing (v : Value) (e : StoreError) (he : e.category = .validation) :
      (∃ e', Failure.showing v e = .error e' ∧ e'.category = .validation) ∨
        Failure.showing v e = .fault .intTooLong := by
    rw [Failure.showing]
    split
    · exact .inl ⟨e, rfl, he⟩
    · exact .inr rfl
  cases r with
  | badKey v | unknownOperator _ v | badColumn v => exact hshowing v _ rfl
  | unwritable => exact .inr rfl
  | _ => exact .inl ⟨_, rfl, rfl⟩

/-- A refused filter is a failure of the whole operation. -/
theorem Filter.Refusal.whole_failure (r : Filter.Refusal) : r.failure.Whole := by
  obtain ⟨e, he, hcategory⟩ | hf := r.failure_cases
  · rw [he]
    exact Failure.whole_error (by rw [hcategory]; decide)
  · rw [hf]
    exact Failure.whole_fault _

theorem failsWhole_refusal (r : Except Filter.Refusal α) :
    FailsWhole (r.mapError Filter.Refusal.failure) :=
  failsWhole_mapError Filter.Refusal.whole_failure r

namespace Store

theorem whole_invalid (message : String) (details : Fields) : (invalid message details).Whole :=
  nofun

theorem failsWhole_requireText (name : String) (v : Value) : FailsWhole (requireText name v) := by
  unfold requireText
  split
  · split
    · exact failsWhole_error (whole_invalid _ _)
    · exact failsWhole_ok _
  · exact failsWhole_error (whole_invalid _ _)

theorem requireText_ok {name s : String} {v : Value} (h : requireText name v = .ok s) :
    v = .text s ∧ Text.allBlank s = false := by
  unfold requireText at h
  split at h
  · split at h
    · cases h
    · cases h
      exact ⟨rfl, Bool.eq_false_iff.2 ‹_›⟩
  · cases h

theorem requireText_text {s : String} (h : Text.allBlank s = false) (name : String) :
    requireText name (.text s) = .ok s := by
  rw [requireText, h]
  rfl

theorem failsWhole_requirePositive (name : String) (v : Value) :
    FailsWhole (requirePositive name v) := by
  unfold requirePositive
  split
  · exact failsWhole_ok _
  · exact failsWhole_error (Failure.whole_showing nofun)

theorem requirePositive_ok {name : String} {v : Value} {n : Nat}
    (h : requirePositive name v = .ok n) : v = .int n ∧ 0 < n := by
  unfold requirePositive at h
  split at h
  · next m hm =>
    cases h
    unfold Batch.positive? at hm
    split at hm
    · split at hm
      · cases hm
        exact ⟨congrArg Value.int (by omega), by omega⟩
      · cases hm
    · cases hm
  · cases h

theorem failsWhole_requireBool (name : String) (v : Value) : FailsWhole (requireBool name v) := by
  unfold requireBool
  split
  · exact failsWhole_ok _
  · exact failsWhole_error (whole_invalid _ _)

theorem failsWhole_requireFilter (v : Value) : FailsWhole (requireFilter v) := by
  unfold requireFilter
  split
  · exact failsWhole_ok _
  · exact failsWhole_ok _
  · exact (failsWhole_refusal _).bind fun _ => failsWhole_ok _
  · exact failsWhole_error (whole_invalid _ _)

theorem failsWhole_metric (v : Value) : FailsWhole (Metric.ofValue v) := by
  unfold Metric.ofValue
  split
  · split
    · exact failsWhole_ok _
    · exact failsWhole_error (Failure.whole_showing nofun)
  · exact failsWhole_error (Failure.whole_showing nofun)

theorem metric_ok {v : Value} {m : Metric} (h : Metric.ofValue v = .ok m) :
    v = .text m.name := by
  unfold Metric.ofValue at h
  split at h
  · split at h
    · next s _ m' hm =>
      cases h
      have hname : (m.name == s) = true := List.find?_some (p := fun m : Metric => m.name == s) hm
      exact congrArg Value.text (beq_iff_eq.1 hname).symm
    · cases h
  · cases h

theorem failsWhole_checkIndex (caps : Capabilities) (dimension : Nat) (m : Metric) :
    FailsWhole (checkIndex caps dimension m) := by
  unfold checkIndex
  dsimp only
  split_ifs
  · exact failsWhole_error (Failure.whole_showing nofun)
  · exact failsWhole_error (Failure.whole_showing nofun)
  · exact failsWhole_error nofun
  · exact failsWhole_ok _

theorem failsWhole_checkTopK (config : Config) (caps : Capabilities) (topK : Nat) :
    FailsWhole (checkTopK config caps topK) := by
  unfold checkTopK
  split
  · exact failsWhole_ok _
  · split
    · exact failsWhole_error (Failure.whole_showing nofun)
    · exact failsWhole_ok _

end Store

namespace Record

theorem failsWhole_vectorOf (name : String) (v : Value) : FailsWhole (vectorOf name v) := by
  unfold vectorOf
  split
  · split
    · exact failsWhole_fault _
    · exact failsWhole_error nofun
  · exact failsWhole_error nofun

theorem failsWhole_metadataOf (position : Nat) (v : Value) : FailsWhole (metadataOf position v) := by
  unfold metadataOf
  split
  · exact failsWhole_ok _
  · exact failsWhole_ok _
  · exact failsWhole_error nofun

theorem failsWhole_idOf (position drawn : Nat) (v : Value) : FailsWhole (idOf position drawn v) := by
  unfold idOf
  split
  · exact failsWhole_ok _
  · split
    · exact failsWhole_error nofun
    · exact failsWhole_ok _
  · exact failsWhole_error nofun

theorem failsWhole_ofEntry (position drawn : Nat) (vector metadata id : Value) :
    FailsWhole (ofEntry position drawn vector metadata id) :=
  (failsWhole_vectorOf _ _).bind fun _ => (failsWhole_metadataOf _ _).bind fun _ =>
    (failsWhole_idOf _ _ _).bind fun _ => failsWhole_ok _

theorem failsWhole_ofEntries (position drawn : Nat) (es : List (Value × Value × Value)) :
    FailsWhole (ofEntries position drawn es).1 := by
  fun_induction ofEntries position drawn es with
  | case1 => exact failsWhole_ok _
  | case2 _ _ _ _ _ _ f h => exact failsWhole_error (failsWhole_ofEntry _ _ _ _ _ f h)
  | case3 _ _ _ _ _ _ r _ _ rs _ h ih =>
    rw [h] at ih
    exact ih.map (r :: ·)

theorem failsWhole_companions (name : String) (n : Nat) (v : Value) :
    FailsWhole (companions name n v) := by
  unfold companions
  split
  · exact failsWhole_ok _
  · split
    · exact failsWhole_ok _
    · exact failsWhole_error nofun
  · exact failsWhole_error nofun

theorem failsWhole_entries (vectors metadata ids : Value) :
    FailsWhole (entries vectors metadata ids) := by
  unfold entries
  split
  · exact (failsWhole_companions _ _ _).bind fun _ => (failsWhole_companions _ _ _).bind fun _ =>
      failsWhole_ok _
  · exact failsWhole_error nofun

theorem failsWhole_buildRecords (drawn : Nat) (vectors metadata ids : Value) :
    FailsWhole (buildRecords drawn vectors metadata ids).1 := by
  unfold buildRecords
  split
  · next f h => exact failsWhole_error (failsWhole_entries _ _ _ f h)
  · exact failsWhole_ofEntries _ _ _

end Record

end VectorStore
