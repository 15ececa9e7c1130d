/-
  The arguments of a query.

  Arguments make a request if and only if they are in order (`exists_requestOf_iff`).  A request may
  be given to a backend if, besides, it keeps to the limits and its filter need not be refused
  (`Admits`, `admits_iff`).
-/
import VectorStore.Proofs.Batch.Placement
import VectorStore.Proofs.Store.Queries

namespace VectorStore.Store

variable {α : Type}

/-- The filter has entries. -/
def HasEntries (filter : Value) : Prop := ∃ f fields, filter = .object (f :: fields)

/-- The arguments of a query are in order. -/
structure InOrder (name vector topK filter includeVector : Value) : Prop where
  named : ∃ n, name = .text n ∧ Text.allBlank n = false
  numeric : ∃ items, vector = .list items ∧ items ≠ [] ∧
    ∀ v ∈ items, Record.isNumber v = true ∧ ∃ x, v.toFloat = .ok x
  positive : ∃ k : Int, topK = .int k ∧ 0 < k
  wellFormed : filter = .null ∨ filter = .object [] ∨
    ∃ fields, filter = .object fields ∧ Filter.validate filter = .ok ()
  flag : ∃ b, includeVector = .bool b

/-- A query may be given to a backend. -/
structure Admits (config : Config) (caps : Capabilities)
    (name vector topK filter includeVector : Value) : Prop
    extends InOrder name vector topK filter includeVector where
  withinConfig : ∀ k : Int, topK = .int k → ∀ m ∈ config.maxTopK, k ≤ m
  withinCaps : ∀ k : Int, topK = .int k → ∀ m ∈ caps.maxTopK, k ≤ m
  enforced : ¬(HasEntries filter ∧ config.strictFilters.isVoid = false ∧
    caps.enforcesFilters = false)

theorem requireText_iff {name : String} {v : Value} :
    (∃ s, requireText name v = .ok s) ↔ ∃ n, v = .text n ∧ Text.allBlank n = false := by
  constructor
  · rintro ⟨s, h⟩
    exact ⟨s, requireText_ok h⟩
  · rintro ⟨n, rfl, hn⟩
    exact ⟨n, requireText_text hn name⟩

theorem mapM_eq_ok_iff {ε γ : Type} {f : α → Except ε γ} {l : List α} {ys : List γ} :
    l.mapM f = .ok ys ↔ List.Forall₂ (fun x y => f x = .ok y) l ys := by
  refine ⟨Batch.forall₂_of_mapM, fun h => ?_⟩
  induction h with
  | nil => rfl
  | cons hx _ ih =>
    rw [List.mapM_cons, hx, ih]
    rfl

theorem mapM_iff {ε γ : Type} {f : α → Except ε γ} {l : List α} :
    (∃ ys, l.mapM f = .ok ys) ↔ ∀ x ∈ l, ∃ y, f x = .ok y := by
  constructor
  · rintro ⟨ys, h⟩ x hx
    obtain ⟨i, hi, rfl⟩ := List.mem_iff_getElem.1 hx
    have hys := Batch.forall₂_of_mapM h
    exact ⟨_, (List.forall₂_iff_get.1 hys).2 i hi (hys.length_eq ▸ hi)⟩
  · intro h
    rcases hm : l.mapM f with e | ys
    · obtain ⟨x, hx, he⟩ := Batch.exists_of_mapM hm
      obtain ⟨y, hy⟩ := h x hx
      rw [hy] at he
      cases he
    · exact ⟨ys, rfl⟩

theorem vectorOf_eq_ok_iff {name : String} {v : Value} {xs : List Float} :
    Record.vectorOf name v = .ok xs ↔ ∃ items, v = .list items ∧ items ≠ [] ∧
      (∀ v ∈ items, Record.isNumber v = true) ∧ Value.toFloats items = .ok xs := by
  unfold Record.vectorOf
  split
  · next x items =>
    by_cases hall : (x :: items).all Record.isNumber = true
    · have hnumbers := List.all_eq_true.1 hall
      rw [if_pos hall]
      constructor
      · intro h
        rcases hf : Value.toFloats (x :: items) with f | ys <;> rw [hf] at h <;> cases h
        exact ⟨_, rfl, List.cons_ne_nil _ _, hnumbers, hf⟩
      · rintro ⟨_, hitems, -, -, hf⟩
        cases hitems
        rw [hf]
        rfl
    · rw [if_neg hall]
      constructor
      · nofun
      · rintro ⟨_, hitems, -, hnumbers, -⟩
        cases hitems
        exact absurd (List.all_eq_true.2 hnumbers) hall
  · next hv =>
    constructor
    · nofun
    · rintro ⟨items, rfl, hne, -⟩
      obtain ⟨x, items, rfl⟩ := List.exists_cons_of_ne_nil hne
      exact absurd rfl (hv x items)

theorem vectorOf_iff {name : String} {v : Value} :
    (∃ xs, Record.vectorOf name v = .ok xs) ↔ ∃ items, v = .list items ∧ items ≠ [] ∧
      ∀ v ∈ items, Record.isNumber v = true ∧ ∃ x, v.toFloat = .ok x := by
  constructor
  · rintro ⟨xs, h⟩
    obtain ⟨items, rfl, hne, hnumbers, hxs⟩ := vectorOf_eq_ok_iff.1 h
    exact ⟨items, rfl, hne, fun v hv => ⟨hnumbers v hv, mapM_iff.1 ⟨xs, hxs⟩ v hv⟩⟩
  · rintro ⟨items, rfl, hne, h⟩
    obtain ⟨xs, hxs⟩ := mapM_iff.2 fun v hv => (h v hv).2
    exact ⟨xs, vectorOf_eq_ok_iff.2 ⟨items, rfl, hne, fun v hv => (h v hv).1, hxs⟩⟩

theorem requirePositive_iff {name : String} {v : Value} :
    (∃ n, requirePositive name v = .ok n) ↔ ∃ k : Int, v = .int k ∧ 0 < k := by
  constructor
  · rintro ⟨n, h⟩
    obtain ⟨rfl, hn⟩ := requirePositive_ok h
    exact ⟨n, rfl, by omega⟩
  · rintro ⟨k, rfl, hk⟩
    obtain ⟨n, rfl⟩ := Int.eq_ofNat_of_zero_le (Int.le_of_lt hk)
    exact ⟨n, requirePositive_int (by omega) name⟩

theorem requireFilter_iff {v : Value} :
    (∃ filter, requireFilter v = .ok filter) ↔ v = .null ∨ v = .object [] ∨
      ∃ fields, v = .object fields ∧ Filter.validate v = .ok () := by
  unfold requireFilter
  split
  · simp
  · simp
  · next f fields =>
    rcases h : Filter.validate (.object (f :: fields)) with r | u
    · constructor
      · rintro ⟨filter, hf⟩
        cases hf
      · rintro (he | he | ⟨_, -, hv⟩)
        · cases he
        · cases he
        · cases hv
    · exact ⟨fun _ => .inr (.inr ⟨_, rfl, rfl⟩), fun _ => ⟨_, rfl⟩⟩
  · next hnull hempty hobject =>
    constructor
    · rintro ⟨filter, hf⟩
      cases hf
    · rintro (rfl | rfl | ⟨fields, rfl, -⟩)
      · exact absurd rfl hnull
      · exact absurd rfl hempty
      · cases fields with
        | nil => exact absurd rfl hempty
        | cons f fields => exact absurd rfl (hobject f fields)

theorem requireBool_iff {name : String} {v : Value} :
    (∃ b, requireBool name v = .ok b) ↔ ∃ b, v = .bool b := by
  unfold requireBool
  split
  · simp
  · next hv =>
    constructor
    · rintro ⟨b, h⟩
      cases h
    · rintro ⟨b, rfl⟩
      exact absurd rfl (hv b)

variable {name vector topK filter includeVector : Value} {q : QueryRequest}

theorem requestOf_eq_ok : requestOf name vector topK filter includeVector = .ok q ↔
    requireText "name" name = .ok q.name ∧ Record.vectorOf "vector" vector = .ok q.vector ∧
      requirePositive "top_k" topK = .ok q.topK ∧ requireFilter filter = .ok q.filter ∧
      requireBool "include_vector" includeVector = .ok q.includeVector := by
  unfold requestOf
  rcases requireText "name" name with f | n
  · simp [bind, Except.bind]
  rcases Record.vectorOf "vector" vector with f | xs
  · simp [bind, Except.bind]
  rcases requirePositive "top_k" topK with f | k
  · simp [bind, Except.bind]
  rcases requireFilter filter with f | fields
  · simp [bind, Except.bind]
  rcases requireBool "include_vector" includeVector with f | b
  · simp [bind, Except.bind]
  · cases q
    simp [bind, Except.bind, pure, Except.pure]

/-- The arguments make a request if and only if they are in order. -/
theorem exists_requestOf_iff : (∃ q, requestOf name vector topK filter includeVector = .ok q) ↔
    InOrder name vector topK filter includeVector := by
  simp only [requestOf_eq_ok]
  constructor
  · rintro ⟨q, hn, hv, hk, hf, hb⟩
    exact ⟨requireText_iff.1 ⟨_, hn⟩, vectorOf_iff.1 ⟨_, hv⟩, requirePositive_iff.1 ⟨_, hk⟩,
      requireFilter_iff.1 ⟨_, hf⟩, requireBool_iff.1 ⟨_, hb⟩⟩
  · rintro ⟨hn, hv, hk, hf, hb⟩
    obtain ⟨n, hn⟩ := requireText_iff.2 hn
    obtain ⟨xs, hv⟩ := vectorOf_iff.2 hv
    obtain ⟨k, hk⟩ := requirePositive_iff.2 hk
    obtain ⟨fields, hf⟩ := requireFilter_iff.2 hf
    obtain ⟨b, hb⟩ := requireBool_iff.2 hb
    exact ⟨⟨n, xs, k, fields, b⟩, hn, hv, hk, hf, hb⟩

/-! ## What a backend lets pass -/

theorem checkTopK_iff {config : Config} {caps : Capabilities} {k : Nat} :
    checkTopK config caps k = .ok () ↔
      (∀ m ∈ config.maxTopK, k ≤ m) ∧ ∀ m ∈ caps.maxTopK, (k : Int) ≤ m := by
  unfold checkTopK topKLimit
  rcases caps.maxTopK with _ | m <;> rcases config.maxTopK with _ | n
  · simp
  · simp
  · simp
  · have hmin : min (n : Int) m < k ↔ ¬(k ≤ n ∧ (k : Int) ≤ m) := by omega
    simp [hmin]

/-- The backend need not refuse the filter. -/
def Enforced (config : Config) (caps : Capabilities) (filter : Option Fields) : Prop :=
  ¬(filter.isSome = true ∧ config.strictFilters.isVoid = false ∧ caps.enforcesFilters = false)

theorem hasEntries_iff {fields : Option Fields} (h : requireFilter filter = .ok fields) :
    HasEntries filter ↔ fields.isSome = true := by
  unfold requireFilter at h
  split at h
  · cases h
    simp [HasEntries]
  · cases h
    simp [HasEntries]
  · next f fs =>
    rcases hv : Filter.validate (.object (f :: fs)) with r | u <;> rw [hv] at h <;> cases h
    simp [HasEntries]
  · cases h

/-- Whether a query may be given to a backend, by its request. -/
theorem admits_iff {config : Config} {caps : Capabilities}
    (h : requestOf name vector topK filter includeVector = .ok q) :
    Admits config caps name vector topK filter includeVector ↔
      checkTopK config caps q.topK = .ok () ∧ Enforced config caps q.filter := by
  obtain ⟨-, -, hk, hf, -⟩ := requestOf_eq_ok.1 h
  obtain ⟨rfl, -⟩ := requirePositive_ok hk
  rw [checkTopK_iff, Enforced, ← hasEntries_iff hf]
  constructor
  · intro ha
    refine ⟨⟨fun m hm => ?_, ha.withinCaps _ rfl⟩, ha.enforced⟩
    have := ha.withinConfig _ rfl m hm
    omega
  · rintro ⟨⟨hconfig, hcaps⟩, henforced⟩
    refine ⟨exists_requestOf_iff.1 ⟨q, h⟩, ?_, ?_, henforced⟩
    · rintro k hk m hm
      injection hk with hk
      have := hconfig m hm
      omega
    · rintro k hk m hm
      injection hk with hk
      exact hk ▸ hcaps m hm

end VectorStore.Store
