/-
  Reported items and their positions among all records.

  * `Placed` says what an item becomes: its position counts from the first record, and it has
    the number of its chunk unless it names one; `placed_eq_ok`: `placed` makes just this;
  * `placeAll`: what becomes of all items depends on the reports alone, chunk by chunk
    (`allPlaced_eq`, `placeAll_eq_ok`); it fails only with an ordinary fault
    (`isCancellation_of_placeAll`).
-/
import Mathlib.Data.List.Forall2
import VectorStore.Batch.Upsert

namespace VectorStore.Batch

variable {α : Type}

/-! ## One item -/

/-- The position of an item in its chunk, the first one if it names none. -/
def positionIn (item : Fields) : Except Fault Int :=
  ((Fields.get? item "index").getD (.int 0)).toInt

/-- The entry is the item at its position among all records. -/
structure Placed (c : Chunk α) (item entry : Fields) : Prop where
  index : ∃ i, positionIn item = .ok i ∧ Fields.get? entry "index" = some (.int (c.offset + i))
  chunk : Fields.get? entry "chunk_index" =
    some ((Fields.get? item "chunk_index").getD (.int c.index))
  other : ∀ name, name ≠ "index" → name ≠ "chunk_index" →
    Fields.get? entry name = Fields.get? item name

theorem placed_eq (c : Chunk α) (item : Fields) :
    placed c item = (positionIn item).map fun i =>
      let entry := Fields.put item "index" (.int (c.offset + i))
      if Fields.has entry "chunk_index" then entry
      else Fields.put entry "chunk_index" (.int c.index) := by
  rw [placed, positionIn]
  rcases Value.toInt _ <;> rfl

theorem placed_eq_ok {c : Chunk α} {item entry : Fields} (h : placed c item = .ok entry) :
    Placed c item entry := by
  rw [placed_eq] at h
  rcases hp : positionIn item with f | i <;> rw [hp] at h
  · cases h
  cases h
  have hne : "chunk_index" ≠ "index" := by decide
  have hput := Fields.get?_put_self item "index" (.int (c.offset + i))
  have hchunk := Fields.get?_put_of_ne item (.int (c.offset + i)) hne
  simp only
  split
  · next hh =>
    rw [Fields.has, hchunk, Option.isSome_iff_exists] at hh
    obtain ⟨v, hv⟩ := hh
    refine ⟨⟨i, hp, hput⟩, ?_, fun name hi _ => Fields.get?_put_of_ne _ _ hi⟩
    rw [hchunk, hv]
    rfl
  · next hh =>
    rw [Fields.has, hchunk, Bool.not_eq_true, Option.isSome_eq_false_iff,
      Option.isNone_iff_eq_none] at hh
    refine ⟨⟨i, hp, ?_⟩, ?_, fun name hi hc => ?_⟩
    · rw [Fields.get?_put_of_ne _ _ hne.symm, hput]
    · rw [Fields.get?_put_self, hh]
      rfl
    · rw [Fields.get?_put_of_ne _ _ hc, Fields.get?_put_of_ne _ _ hi]

/-- A value that is no integer is an ordinary fault. -/
theorem isCancellation_of_toInt {v : Value} {f : Fault} (h : v.toInt = .error f) :
    f.isCancellation = false := by
  cases v with
  | float x =>
    rw [Value.toInt] at h
    split at h <;> cases h <;> rfl
  | text s =>
    rw [Value.toInt] at h
    rcases hr : Number.readInt s with r | n <;> rw [hr] at h
    · cases h
      cases r <;> rfl
    · cases h
  | _ => cases h <;> rfl

/-! ## All items -/

theorem forall₂_of_mapM {β ε : Type} {f : α → Except ε β} : ∀ {l : List α} {bs : List β},
    l.mapM f = .ok bs → List.Forall₂ (fun a b => f a = .ok b) l bs
  | [], _, h => by cases h; exact .nil
  | a :: l, _, h => by
    rw [List.mapM_cons] at h
    rcases ha : f a with e | b <;> rw [ha] at h
    · cases h
    rcases hl : l.mapM f with e | bs <;> rw [hl] at h <;> cases h
    exact .cons ha (forall₂_of_mapM hl)

theorem exists_of_mapM {β ε : Type} {f : α → Except ε β} {e : ε} : ∀ {l : List α},
    l.mapM f = .error e → ∃ a ∈ l, f a = .error e
  | [], h => by cases h
  | a :: l, h => by
    rw [List.mapM_cons] at h
    rcases ha : f a with e' | b <;> rw [ha] at h
    · cases h
      exact ⟨a, List.mem_cons_self .., ha⟩
    rcases hl : l.mapM f with e' | bs <;> rw [hl] at h <;> cases h
    obtain ⟨a', hmem, he⟩ := exists_of_mapM hl
    exact ⟨a', List.mem_cons_of_mem _ hmem, he⟩

/-- What becomes of the reports of all chunks. -/
def placeAll (report : Chunk α → Reported) (cs : List (Chunk α)) : Except Fault (List Fields) :=
  (cs.mapM fun c => (report c).mapM (placed c)).map List.flatten

theorem allPlaced_eq {d : Dispatch α (Except Failure Reported)} {cs : List (Chunk α)}
    {report : Chunk α → Reported} (h : ∀ c ∈ cs, reportOf d c = some (report c)) :
    allPlaced d cs = placeAll report cs := by
  have hm : ∀ l : List (Chunk α), (∀ c ∈ l, reportOf d c = some (report c)) →
      l.mapM (fun c => ((reportOf d c).getD []).mapM (placed c)) =
        l.mapM fun c => (report c).mapM (placed c) := by
    intro l hl
    induction l with
    | nil => rfl
    | cons c l ih =>
      obtain ⟨hc, hl⟩ := List.forall_mem_cons.1 hl
      rw [List.mapM_cons, List.mapM_cons, ih hl, hc]
      rfl
  rw [allPlaced, placeAll, hm cs h]
  rcases List.mapM _ cs <;> rfl

/-- **What becomes of all items**, in the order of the chunks and of each report. -/
theorem placeAll_eq_ok {report : Chunk α → Reported} {cs : List (Chunk α)} {entries : List Fields}
    (h : placeAll report cs = .ok entries) :
    ∃ perChunk, List.Forall₂ (fun c => List.Forall₂ (Placed c) (report c)) cs perChunk ∧
      entries = perChunk.flatten := by
  rw [placeAll] at h
  rcases hm : cs.mapM fun c => (report c).mapM (placed c) with f | perChunk <;> rw [hm] at h <;>
    cases h
  refine ⟨perChunk, (forall₂_of_mapM hm).imp fun c es hc => ?_, rfl⟩
  exact (forall₂_of_mapM hc).imp fun item entry => placed_eq_ok

theorem positionIn_of_placeAll {report : Chunk α → Reported} {cs : List (Chunk α)} {f : Fault}
    (h : placeAll report cs = .error f) :
    ∃ c ∈ cs, ∃ item ∈ report c, positionIn item = .error f := by
  rw [placeAll] at h
  rcases hm : cs.mapM fun c => (report c).mapM (placed c) with f | perChunk <;> rw [hm] at h <;>
    cases h
  obtain ⟨c, hc, he⟩ := exists_of_mapM hm
  obtain ⟨item, hi, hf⟩ := exists_of_mapM he
  rw [placed_eq] at hf
  rcases hp : positionIn item with f | i <;> rw [hp] at hf <;> cases hf
  exact ⟨c, hc, item, hi, hp⟩

theorem isCancellation_of_placeAll {report : Chunk α → Reported} {cs : List (Chunk α)} {f : Fault}
    (h : placeAll report cs = .error f) : f.isCancellation = false := by
  obtain ⟨c, -, item, -, hp⟩ := positionIn_of_placeAll h
  exact isCancellation_of_toInt hp

/-- All items are placed just if each has a position. -/
theorem placeAll_succeeds {report : Chunk α → Reported} {cs : List (Chunk α)} :
    (∃ entries, placeAll report cs = .ok entries) ↔
      ∀ c ∈ cs, ∀ item ∈ report c, ∃ i, positionIn item = .ok i := by
  constructor
  · rintro ⟨entries, h⟩
    obtain ⟨perChunk, hf, -⟩ := placeAll_eq_ok h
    have hpos : ∀ c es, List.Forall₂ (Placed c) (report c) es →
        ∀ item ∈ report c, ∃ i, positionIn item = .ok i := fun c es hes =>
      ((List.forall₂_and_left _ _).1 (hes.imp fun item entry hp =>
        ⟨hp.index.imp fun i hi => hi.1, hp⟩)).1
    exact ((List.forall₂_and_left _ _).1 (hf.imp fun c es hes => ⟨hpos c es hes, hes⟩)).1
  · intro h
    rcases hp : placeAll report cs with f | entries
    · obtain ⟨c, hc, item, hi, he⟩ := positionIn_of_placeAll hp
      obtain ⟨i, ho⟩ := h c hc item hi
      rw [he] at ho
      cases ho
    · exact ⟨entries, rfl⟩

end VectorStore.Batch
