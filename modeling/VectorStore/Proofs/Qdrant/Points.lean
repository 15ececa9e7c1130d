/-
  Records through points and back.

  * `toText_toValue`: an id that is kept as it is reads back from the point's id;
  * `matchOf_point`: the match of a record's point has the record's metadata but for the field
    of the own id, and it has the record's id and metadata just if there is no such field.
-/
import VectorStore.Proofs.Qdrant.PointIds
import VectorStore.Qdrant.Store

namespace VectorStore

/-! ## Fields of an object -/

namespace Fields

theorem erase_of_get?_eq_none {fields : List (String × α)} {name : String}
    (h : get? fields name = none) : erase fields name = fields := by
  induction fields with
  | nil => rfl
  | cons f fields ih =>
    by_cases hf : f.1 = name
    · simp [get?, hf] at h
    · simpa [erase, hf] using ih (by simpa [get?, hf] using h)

theorem erase_put_self (fields : List (String × α)) (name : String) (value : α) :
    erase (put fields name value) name = erase fields name := by
  fun_induction put fields name value <;> simp_all [erase]

theorem erase_eq_self_iff {fields : List (String × α)} {name : String} :
    erase fields name = fields ↔ has fields name = false := by
  constructor
  · intro h
    rw [has, ← h, get?_erase_self]
    rfl
  · intro h
    exact erase_of_get?_eq_none (by simpa [has] using h)

end Fields

namespace Qdrant

/-! ## Ids -/

/-- A point's id as the service reports it. -/
def PointId.toValue : PointId → Value
  | number n => .int n
  | uuid text => .text text

/-- An id that is not mapped to another is the text of the point's id. -/
theorem toText_toValue {id : String} {p : PointId} (h : pointId id = .ok p)
    (hr : p.isRemapped id = false) : p.toValue.toText = .ok id := by
  cases p with
  | number n =>
    cases kept_of_pointId_eq_ok h with
    | number hn hsmall =>
      have hdigits : (Number.natDigits n).length ≤ 20 :=
        (Nat.length_toDigits_le_iff (by decide) (by decide)).2 (by omega)
      have hwritable : (PointId.number n).toValue.isWritable = true :=
        decide_eq_true (Nat.le_trans hdigits (by decide))
      rw [Value.toText, if_pos hwritable, hn]
      rfl
  | uuid text =>
    have ht : text = id := by simpa [PointId.isRemapped] using hr
    rw [ht]
    rfl

/-! ## Points -/

theorem point_of_pointId {r : Record} {p : PointId} (h : pointId r.id = .ok p) :
    point r = .ok ⟨p, r.vector, payload p r⟩ := by
  rw [point, h]
  rfl

theorem point_eq_ok {r : Record} {pt : Point} (h : point r = .ok pt) :
    pointId r.id = .ok pt.id ∧ pt.vector = r.vector ∧ pt.payload = payload pt.id r := by
  rw [point] at h
  rcases hp : pointId r.id with _ | p <;> rw [hp] at h <;> cases h
  exact ⟨rfl, rfl, rfl⟩

/-- What is left of a payload without the own id. -/
theorem erase_payload (p : PointId) (r : Record) :
    Fields.erase (payload p r) ownIdField = Fields.erase r.metadata ownIdField := by
  rw [payload]
  split
  · exact Fields.erase_put_self _ _ _
  · rfl

theorem recordId_payload {r : Record} {p : PointId} (h : pointId r.id = .ok p)
    (hm : p.isRemapped r.id = true ∨ Fields.has r.metadata ownIdField = false) :
    recordId (payload p r) p.toValue = .ok r.id := by
  by_cases hr : p.isRemapped r.id = true
  · have hown : Fields.orNull (payload p r) ownIdField = .text r.id := by
      rw [payload, if_pos hr, Fields.orNull, Fields.get?_put_self]
      rfl
    rw [recordId, hown]
    rfl
  · have hg : Fields.get? r.metadata ownIdField = none := by simpa [Fields.has, hr] using hm
    rw [recordId, payload, if_neg hr, Fields.orNull, hg]
    exact toText_toValue h (Bool.eq_false_iff.2 hr)

/-- A found point stands for a written one: it has its id and its payload. -/
structure Found.Of (found : Found) (pt : Point) : Prop where
  id_eq : found.id = pt.id.toValue
  payload_eq : found.payload = .object pt.payload

/-- A found point can be read: it has a score, and a vector if one is asked for. -/
structure Found.Readable (includeVector : Bool) (found : Found) : Prop where
  score : ∃ x, found.score.toFloat = .ok x
  vector : includeVector = true → ∃ xs, found.firstVector.toVector = .ok xs

theorem toFields_orElse (fields : Fields) :
    ((Value.object fields).orElse (.object [])).toFields = .ok fields := by
  cases fields <;> rfl

/-- The match of a found point is put together, if its id can be written. -/
theorem matchOf_of {found : Found} {pt : Point} (m : Metric) {includeVector : Bool}
    (hf : found.Of pt) (hr : found.Readable includeVector) :
    ∃ vector, matchOf m includeVector found = (recordId pt.payload pt.id.toValue).map fun id =>
      ⟨id, ofScore m (found.score.toFloat.toOption.getD 0),
        Fields.erase pt.payload ownIdField, vector⟩ := by
  obtain ⟨x, hx⟩ := hr.score
  have hp : (found.payload.orElse (.object [])).toFields = .ok pt.payload := by
    rw [hf.payload_eq, toFields_orElse]
  cases includeVector with
  | false =>
    refine ⟨none, ?_⟩
    rw [matchOf, hp, hf.id_eq, hx]
    show (recordId pt.payload pt.id.toValue >>= _) = _
    cases recordId pt.payload pt.id.toValue <;> rfl
  | true =>
    obtain ⟨xs, hxs⟩ := hr.vector rfl
    refine ⟨xs, ?_⟩
    rw [matchOf, hp, hf.id_eq, hx]
    show (recordId pt.payload pt.id.toValue >>= _) = _
    cases recordId pt.payload pt.id.toValue
    · rfl
    · show (found.firstVector.toVector >>= _) = _
      rw [hxs]
      rfl

/-- The id of a record's point is that of the record, or else the point's payload has the record's
    own field. -/
theorem recordId_eq_error {r : Record} {p : PointId} {f : Fault} (h : pointId r.id = .ok p)
    (he : recordId (payload p r) p.toValue = .error f) : f = .intTooLong ∧
      p.isRemapped r.id = false ∧ (Fields.orNull r.metadata ownIdField).isWritable = false := by
  have hr : p.isRemapped r.id = false := by
    by_contra hr
    rw [recordId_payload h (.inl (by simpa using hr))] at he
    cases he
  have hnull : (Fields.orNull r.metadata ownIdField).isNull = false := by
    by_contra hnull
    rw [recordId, payload, hr, if_neg Bool.false_ne_true, if_pos (by simpa using hnull),
      toText_toValue h hr] at he
    cases he
  rw [recordId, payload, hr, if_neg Bool.false_ne_true, hnull, if_neg Bool.false_ne_true,
    Value.toText] at he
  rcases hw : (Fields.orNull r.metadata ownIdField).isWritable
  · rw [hw] at he
    cases he
    exact ⟨rfl, hr, rfl⟩
  · rw [hw] at he
    cases he

/-- **A record comes back as it was just if its metadata do not use the own id's field.**  A
    found point with the id and the payload of a record's point gives a match with the
    record's metadata less that field, and with the record's id if it was mapped to another
    one; id and metadata are those of the record if and only if there is no such field.  There is
    no match at all only if the id was not mapped and there is such a field, with an integer in it
    that has too many digits to be written. -/
theorem matchOf_point {r : Record} {pt : Point} (hp : point r = .ok pt) {m : Metric}
    {includeVector : Bool} {found : Found} (hf : found.Of pt)
    (hr : found.Readable includeVector) :
    (matchOf m includeVector found = .error .intTooLong ∧ pt.id.isRemapped r.id = false ∧
      (Fields.orNull r.metadata ownIdField).isWritable = false) ∨
    ∃ mt, matchOf m includeVector found = .ok mt ∧
      mt.metadata = Fields.erase r.metadata ownIdField ∧
      (pt.id.isRemapped r.id = true → mt.id = r.id) ∧
      (mt.id = r.id ∧ mt.metadata = r.metadata ↔ Fields.has r.metadata ownIdField = false) := by
  obtain ⟨hid, -, hpay⟩ := point_eq_ok hp
  obtain ⟨vector, hmatch⟩ := matchOf_of m hf hr
  rw [hpay, erase_payload] at hmatch
  rcases hown : recordId (payload pt.id r) pt.id.toValue with f | id
  · obtain ⟨rfl, hsame, hw⟩ := recordId_eq_error hid hown
    exact .inl ⟨by rw [hmatch, hown]; rfl, hsame, hw⟩
  · refine .inr ⟨_, by rw [hmatch, hown]; rfl, rfl, fun h => ?_, ?_⟩
    · exact Except.ok.inj (hown.symm.trans (recordId_payload hid (.inl h)))
    · constructor
      · rintro ⟨-, he⟩
        exact Fields.erase_eq_self_iff.1 he
      · intro h
        exact ⟨Except.ok.inj (hown.symm.trans (recordId_payload hid (.inr h))),
          Fields.erase_eq_self_iff.2 h⟩

/-- A record whose id is mapped to another one. -/
def mappedRecord : Record := ⟨"007", [0.5], [("k", .int 3)]⟩

/-- Its point. -/
def mappedPoint : Point :=
  ⟨.uuid (nameId "007").text, [0.5], [("k", .int 3), (ownIdField, .text "007")]⟩

/-- Its point, found. -/
def mappedFound : Found :=
  ⟨mappedPoint.id.toValue, .float 0.5, .object mappedPoint.payload, .null⟩

theorem matchOf_mappedPoint : point mappedRecord = .ok mappedPoint ∧ mappedFound.Of mappedPoint ∧
    mappedFound.Readable false ∧ ∃ mt, matchOf .cosine false mappedFound = .ok mt ∧
      mt.metadata = Fields.erase mappedRecord.metadata ownIdField ∧
      (mappedPoint.id.isRemapped mappedRecord.id = true → mt.id = mappedRecord.id) ∧
      (mt.id = mappedRecord.id ∧ mt.metadata = mappedRecord.metadata ↔
        Fields.has mappedRecord.metadata ownIdField = false) := by
  have hm : mappedPoint.id.isRemapped mappedRecord.id = true := by decide +kernel
  have hpay : payload mappedPoint.id mappedRecord = mappedPoint.payload := by
    rw [payload, if_pos hm]
    rfl
  have hp : point mappedRecord = .ok mappedPoint := by
    rw [point_of_pointId (p := mappedPoint.id) rfl, hpay]
    rfl
  have hf : mappedFound.Of mappedPoint := ⟨rfl, rfl⟩
  have hr : mappedFound.Readable false := ⟨⟨0.5, rfl⟩, nofun⟩
  refine ⟨hp, hf, hr, (matchOf_point hp hf hr).resolve_left ?_⟩
  rintro ⟨-, hsame, -⟩
  rw [hm] at hsame
  cases hsame

/-- A record with a field of that name, and a native id. -/
def namedRecord : Record := ⟨"42", [0.5], [(ownIdField, .text "x")]⟩

/-- The field is taken for the record's id. -/
theorem matchOf_namedPoint : ∃ pt, point namedRecord = .ok pt ∧
    matchOf .cosine false ⟨pt.id.toValue, .float 0.5, .object pt.payload, .null⟩ =
      .ok ⟨"x", ofScore .cosine 0.5, [], none⟩ :=
  ⟨_, rfl, rfl⟩

end Qdrant

end VectorStore
