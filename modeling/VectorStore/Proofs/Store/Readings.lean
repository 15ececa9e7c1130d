/-
  Faults of reading.

  An answer of a service is read as numbers, vectors and mappings, and a reading may be a fault.
  No such fault is one of a driver (`Fault.Own`), whatever is read.
-/
import VectorStore.Postgres.Store
import VectorStore.Proofs.Task.Failing
import VectorStore.Qdrant.Store
import VectorStore.Vectorize.Store

namespace VectorStore

/-- A fault that is no error of a driver. -/
def Fault.Own (f : Fault) : Prop := ∀ e, f ≠ .driver e

theorem Fault.own_intTooLong : intTooLong.Own := by rintro e ⟨⟩

theorem Fault.own_ofIntRefusal (s : String) (r : Number.IntRefusal) : (ofIntRefusal s r).Own := by
  cases r <;> exact nofun

namespace Value

theorem own_toInt (v : Value) : FailsOnly Fault.Own v.toInt := by
  cases v with
  | int n => exact failsOnly_ok _
  | bool b => exact failsOnly_ok _
  | float x =>
    rw [toInt]
    split
    · exact failsOnly_error nofun
    · exact failsOnly_error nofun
    · exact failsOnly_ok _
  | text s => exact .mapError fun r _ => Fault.own_ofIntRefusal s r
  | _ => exact failsOnly_error nofun

theorem own_toFloat (v : Value) : FailsOnly Fault.Own v.toFloat := by
  cases v with
  | float x => exact failsOnly_ok _
  | bool b => exact failsOnly_ok _
  | int n =>
    rw [toFloat]
    split
    · exact failsOnly_ok _
    · exact failsOnly_error nofun
  | text s =>
    rw [toFloat]
    split
    · exact failsOnly_ok _
    · exact failsOnly_error nofun
  | _ => exact failsOnly_error nofun

theorem own_toText (v : Value) : FailsOnly Fault.Own v.toText := by
  rw [toText]
  split
  · exact failsOnly_ok _
  · exact failsOnly_error Fault.own_intTooLong

theorem own_toItems (v : Value) : FailsOnly Fault.Own v.toItems := by
  cases v with
  | list _ | text _ | object _ => exact failsOnly_ok _
  | _ => exact failsOnly_error nofun

theorem own_toVector (v : Value) : FailsOnly Fault.Own v.toVector := by
  rw [toVector]
  split
  · exact failsOnly_ok _
  · exact (own_toItems v).bind fun items => (FailsOnly.mapM own_toFloat items).bind fun xs =>
      failsOnly_ok _

theorem own_field (v : Value) (name : String) : FailsOnly Fault.Own (v.field name) := by
  cases v with
  | object fields =>
    rw [field]
    split
    · exact failsOnly_ok _
    · exact failsOnly_error nofun
  | _ => exact failsOnly_error nofun

theorem own_toName (v : Value) : FailsOnly Fault.Own v.toName := by
  cases v with
  | list _ | object _ => exact failsOnly_error nofun
  | _ => exact failsOnly_ok _

theorem own_pairsToFields (items : List Value) : ∀ (acc : Fields) (position : Nat),
    FailsOnly Fault.Own (pairsToFields acc position items) := by
  induction items with
  | nil => exact fun acc position => failsOnly_ok acc
  | cons item items ih =>
    intro acc position
    rw [pairsToFields]
    split
    · exact failsOnly_error nofun
    · exact (own_toName _).bind fun name => ih _ _
    · exact failsOnly_error nofun

theorem own_toFields (v : Value) : FailsOnly Fault.Own v.toFields := by
  cases v with
  | object fields => exact failsOnly_ok _
  | _ => exact (own_toItems _).bind fun items => own_pairsToFields items [] 0

end Value

theorem Json.own_encode (style : Style) (v : Value) : FailsOnly Fault.Own (encode style v) := by
  rw [encode]
  split
  · exact failsOnly_ok _
  · exact failsOnly_error Fault.own_intTooLong

/-! ## Answers of the services -/

namespace Postgres

theorem own_metadataOf (v : Value) : FailsOnly Fault.Own (metadataOf v) := by
  cases v with
  | text s =>
    refine .mapError fun r _ => ?_
    cases r <;> exact nofun
  | _ => exact failsOnly_ok _

theorem own_parse (v : Value) : FailsOnly Fault.Own (parse v) := by
  unfold parse
  split
  · exact failsOnly_ok _
  · exact (FailsOnly.mapM Value.own_toFloat _).bind fun xs => failsOnly_ok _
  · exact v.own_toText.bind fun s => (FailsOnly.mapM Value.own_toFloat _).bind fun xs =>
      failsOnly_ok _

theorem own_matchOf (m : Metric) (includeVector : Bool) (row : Value) :
    FailsOnly Fault.Own (matchOf m includeVector row) := by
  refine (row.own_field _).bind fun metadata => (own_metadataOf metadata).bind fun metadata =>
    (row.own_field _).bind fun id => id.own_toText.bind fun id =>
    (row.own_field _).bind fun distance => distance.own_toFloat.bind fun x =>
    (metadata.orElse _).own_toFields.bind fun fields => ?_
  dsimp only
  split
  · exact (row.own_field _).bind fun v => (own_parse v).bind fun xs => failsOnly_ok _
  · exact failsOnly_ok _

theorem own_textValue (v : Value) : FailsOnly Fault.Own (textValue v) := by
  refine FailsOnly.bind ?_ fun text => failsOnly_ok _
  unfold asText
  split
  · exact failsOnly_ok _
  · exact failsOnly_ok _
  · exact (Json.own_encode _ v).bind fun text => failsOnly_ok _

theorem own_bind (type : Option Filter.ParamType) (v : Value) :
    FailsOnly Fault.Own (Postgres.bind type v) := by
  unfold Postgres.bind
  split
  · refine v.own_toText.bind fun text => ?_
    split
    · exact failsOnly_ok _
    · exact failsOnly_error nofun
  · exact v.own_toItems.bind fun items => (FailsOnly.mapM own_textValue items).bind fun texts =>
      failsOnly_ok _
  · exact failsOnly_ok _
  all_goals exact (own_textValue v).bind fun text => failsOnly_ok _

theorem own_row (r : Record) : FailsOnly Fault.Own (row r) :=
  (Json.own_encode _ _).bind fun _ => failsOnly_ok _

end Postgres

theorem Qdrant.own_matchOf (m : Metric) (includeVector : Bool) (p : Found) :
    FailsOnly Fault.Own (matchOf m includeVector p) := by
  refine (p.payload.orElse _).own_toFields.bind fun payload =>
    (Value.own_toText _).bind fun id => p.score.own_toFloat.bind fun score => ?_
  dsimp only
  split
  · exact p.firstVector.own_toVector.bind fun xs => failsOnly_ok _
  · exact failsOnly_ok _

theorem Qdrant.own_point (r : Record) : FailsOnly Fault.Own (point r) := by
  have hnumber : FailsOnly Fault.Own (canonicalNumber? r.id) := by
    rw [canonicalNumber?]
    dsimp only
    split
    · exact failsOnly_ok _
    · split
      · exact failsOnly_error nofun
      · exact failsOnly_ok _
  refine FailsOnly.bind (hnumber.bind fun n => ?_) fun p => failsOnly_ok _
  split
  · exact failsOnly_ok _
  · split
    · exact failsOnly_ok _
    · exact failsOnly_ok _

theorem Vectorize.own_matchOf (m : Metric) (includeVector : Bool) (found : Found) :
    FailsOnly Fault.Own (matchOf m includeVector found) := by
  refine (Value.own_toText _).bind fun id => found.score.own_toFloat.bind fun score =>
    (found.metadata.orElse _).own_toFields.bind fun metadata => ?_
  dsimp only
  split
  · exact found.values.own_toVector.bind fun xs => failsOnly_ok _
  · exact failsOnly_ok _

theorem Vectorize.own_ndjson (lines : List Line) : FailsOnly Fault.Own (ndjson lines) :=
  (FailsOnly.mapM (fun l : Line => Json.own_encode _ l.toValue) lines).bind fun _ =>
    failsOnly_ok _

end VectorStore
