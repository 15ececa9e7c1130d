/-
  Points of different records.

  * `isTooLong` ids are the only ones without a point (`pointId_eq_error_iff`);
  * `Kept` lists the three ways of an id to a point's id (`kept_of_pointId_eq_ok`), which
    exclude each other;
  * `pointId_eq_iff`: two ids share a point just if they spell the same identifier.
-/
import VectorStore.Proofs.Filter.Marks
import VectorStore.Proofs.Filter.Relocation
import VectorStore.Proofs.Uuid
import VectorStore.Qdrant.PointId

namespace VectorStore.Qdrant

open Number (natDigits natText)

/-! ## Numbers -/

/-- An id of more digits than a number may have to be read. -/
def isTooLong (id : String) : Bool :=
  id.toList.all Number.isDecimal && decide (Number.maxIntDigits < id.toList.length)

theorem canonicalNumber?_eq_error {id : String} (h : isTooLong id = true) :
    canonicalNumber? id = .error (.intTextTooLong id.toList.length) := by
  simp only [isTooLong, Bool.and_eq_true, decide_eq_true_eq] at h
  have hn : id.toList.isEmpty = false := by
    cases hc : id.toList with
    | nil => rw [hc] at h; exact absurd h.2 (by decide)
    | cons => rfl
  simp [canonicalNumber?, hn, h.1, h.2]

theorem canonicalNumber?_eq_ok {id : String} (h : isTooLong id = false) :
    ∃ n?, canonicalNumber? id = .ok n? ∧ ∀ n ∈ n?, id = natText n ∧ n < 2 ^ 64 := by
  rw [canonicalNumber?]
  simp only
  split
  · exact ⟨none, rfl, by simp⟩
  · next hd =>
    simp only [Bool.or_eq_true, Bool.not_eq_true', not_or, Bool.not_eq_false] at hd
    split
    · next hl => simp [isTooLong, hd.2, hl] at h
    · refine ⟨_, rfl, fun n hn => ?_⟩
      split at hn
      · next he =>
        cases hn
        exact ⟨by rw [natText, he.1, String.ofList_toList], he.2⟩
      · cases hn

/-- **An id has a point unless it has too many digits.** -/
theorem pointId_eq_error_iff {id : String} :
    (∃ f, pointId id = .error f) ↔ isTooLong id = true := by
  constructor
  · rintro ⟨f, hf⟩
    by_contra ht
    obtain ⟨n?, hn, -⟩ := canonicalNumber?_eq_ok (Bool.eq_false_iff.2 ht)
    rw [pointId, hn] at hf
    rcases n? with _ | n
    · rcases hu : Uuid.read? id with _ | u <;> simp only [hu] at hf <;> cases hf
    · cases hf
  · intro ht
    exact ⟨_, by rw [pointId, canonicalNumber?_eq_error ht]; rfl⟩

/-- A number below `2^64` has no place for an identifier. -/
theorem read?_natText {n : Nat} (h : n < 2 ^ 64) : Uuid.read? (natText n) = none := by
  refine Uuid.read?_eq_none_of_length_lt ?_
  rw [natText, String.toList_ofList, natDigits]
  have : (Nat.toDigits 10 n).length ≤ 20 :=
    (Nat.length_toDigits_le_iff (by decide) (by decide)).2 (by omega)
  omega

/-! ## The ways of an id -/

/-- The identifier of an id that is no number and spells none. -/
def nameId (id : String) : Uuid := Uuid.named namespaceId id

/-- How an id is kept in a point's id. -/
inductive Kept (id : String) : PointId → Prop
  /-- it is the canonical text of a number -/
  | number {n} : id = natText n → n < 2 ^ 64 → Kept id (.number n)
  /-- it spells an identifier -/
  | spelled {u} : Uuid.read? id = some u → Kept id (.uuid u.text)
  /-- it names one -/
  | named : Uuid.read? id = none → Kept id (.uuid (nameId id).text)

theorem kept_of_pointId_eq_ok {id : String} {p : PointId} (h : pointId id = .ok p) : Kept id p := by
  have ht : isTooLong id = false := by
    rw [← Bool.not_eq_true, ← pointId_eq_error_iff, h]
    simp
  obtain ⟨n?, hn, hs⟩ := canonicalNumber?_eq_ok ht
  rw [pointId, hn] at h
  rcases n? with _ | n
  · rcases hu : Uuid.read? id with _ | u <;> simp only [hu] at h <;> cases h
    · exact .named hu
    · exact .spelled hu
  · cases h
    exact .number (hs n rfl).1 (hs n rfl).2

/-- Two ids that spell one identifier. -/
def SameSpelled (a b : String) : Prop := ∃ u, Uuid.read? a = some u ∧ Uuid.read? b = some u

/-- The digest keeps two ids apart: it does not collide on them if they differ, and gives
    neither of them the identifier that the other one spells. -/
structure Apart (a b : String) : Prop where
  nameId_ne : a ≠ b → nameId a ≠ nameId b
  left_ne : Uuid.read? a ≠ some (nameId b)
  right_ne : Uuid.read? b ≠ some (nameId a)

/-- An identifier in a point's id is the one that the id spells, or names. -/
theorem Kept.identifier {id text : String} (h : Kept id (.uuid text)) :
    ∃ u : Uuid, u.value < 2 ^ 128 ∧ u.text = text ∧ (Uuid.read? id = some u ∨ nameId id = u) := by
  generalize hp : PointId.uuid text = p at h
  cases h with
  | number => cases hp
  | @spelled u hu => exact ⟨u, Uuid.read?_lt hu, (PointId.uuid.inj hp).symm, .inl hu⟩
  | named _ => exact ⟨_, Uuid.named_lt namespaceId id, (PointId.uuid.inj hp).symm, .inr rfl⟩

/-- Ids that the digest keeps apart share a point only if they are the same or spell the same
    identifier. -/
theorem Kept.eq_or_sameSpelled {a b : String} {p : PointId} (hd : Apart a b) (ha : Kept a p)
    (hb : Kept b p) : a = b ∨ SameSpelled a b := by
  cases p with
  | number n =>
    cases ha with
    | number hn _ =>
      cases hb with
      | number hm _ => exact .inl (hn.trans hm.symm)
  | uuid text =>
    obtain ⟨u, hu, htext, hau⟩ := ha.identifier
    obtain ⟨v, hv, htext', hbv⟩ := hb.identifier
    obtain rfl : u = v := Uuid.text_inj hu hv (htext.trans htext'.symm)
    rcases hau with hau | hau <;> rcases hbv with hbv | hbv
    · exact .inr ⟨u, hau, hbv⟩
    · exact absurd (hbv ▸ hau) hd.left_ne
    · exact absurd (hau ▸ hbv) hd.right_ne
    · exact .inl (by_contra fun hne => hd.nameId_ne hne (hau.trans hbv.symm))

/-- The point of an id that spells an identifier. -/
theorem eq_uuid_of_read? {id : String} {p : PointId} {u : Uuid} (h : pointId id = .ok p)
    (hu : Uuid.read? id = some u) : p = .uuid u.text := by
  cases kept_of_pointId_eq_ok h with
  | number hn hl => rw [hn, read?_natText hl] at hu; cases hu
  | named hn => rw [hn] at hu; cases hu
  | spelled hu' => rw [hu'] at hu; cases hu; rfl

/-- **Two ids share a point just if they are the same or spell the same identifier.**  The
    digest is assumed to keep them apart. -/
theorem pointId_eq_iff {a b : String} {p q : PointId} (hd : Apart a b)
    (ha : pointId a = .ok p) (hb : pointId b = .ok q) : p = q ↔ a = b ∨ SameSpelled a b := by
  constructor
  · rintro rfl
    exact (kept_of_pointId_eq_ok ha).eq_or_sameSpelled hd (kept_of_pointId_eq_ok hb)
  · rintro (rfl | ⟨u, hu, hv⟩)
    · exact Except.ok.inj (ha.symm.trans hb)
    · rw [eq_uuid_of_read? ha hu, eq_uuid_of_read? hb hv]

/-- An identifier in its canonical form, and in capitals. -/
def plainSpelling : String := "550e8400-e29b-41d4-a716-446655440000"

@[inherit_doc plainSpelling]
def capitalSpelling : String := "550E8400-E29B-41D4-A716-446655440000"

theorem apart_spellings : Apart plainSpelling capitalSpelling where
  nameId_ne := by decide +kernel
  left_ne := by decide +kernel
  right_ne := by decide +kernel

/-- Different ids may share a point. -/
theorem pointId_spellings : plainSpelling ≠ capitalSpelling ∧
    Apart plainSpelling capitalSpelling ∧ pointId plainSpelling = .ok (.uuid plainSpelling) ∧
      pointId capitalSpelling = .ok (.uuid plainSpelling) :=
  ⟨by decide, apart_spellings, rfl, rfl⟩

theorem apart_sevens : Apart "7" "007" where
  nameId_ne := by decide +kernel
  left_ne := by decide +kernel
  right_ne := by decide +kernel

theorem pointId_sevens : Apart "7" "007" ∧ pointId "7" = .ok (.number 7) ∧
    pointId "007" = .ok (.uuid (nameId "007").text) ∧
      (PointId.number 7 = .uuid (nameId "007").text ↔ "7" = "007" ∨ SameSpelled "7" "007") :=
  have h7 : pointId "7" = .ok (.number 7) := rfl
  have h007 : pointId "007" = .ok (.uuid (nameId "007").text) := rfl
  ⟨apart_sevens, h7, h007, pointId_eq_iff apart_sevens h7 h007⟩

end VectorStore.Qdrant
