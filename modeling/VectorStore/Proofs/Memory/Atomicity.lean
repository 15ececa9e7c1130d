/-
  Failed calls of the store in memory.

  `failed_call`: a call that fails as a whole leaves all indexes as they were; a write that
  fails at one of its chunks leaves what a write of the records before this chunk alone leaves,
  and names their ids.

  This rests on two conditions: no chunk takes time (`failed_call_heldUp`), and all metadata can
  be copied (`failed_call_uncopied`).
-/
import VectorStore.Proofs.Memory.Calls
import VectorStore.Rehearsal.Memory

namespace VectorStore

/-- A detail of a failure that is a store error. -/
def Failure.detail? (f : Failure) (name : String) : Option Value :=
  f.storeError?.bind fun e => Fields.get? e.details name

/-- The request, but for no more than the first `n` records if it writes some. -/
def Request.first (n : Nat) : Request → Request
  | .upsert name vectors metadata ids =>
    .upsert name (vectors.firstItems n) (metadata.firstItems n) (ids.firstItems n)
  | .upsertWithReport name vectors metadata ids =>
    .upsertWithReport name (vectors.firstItems n) (metadata.firstItems n) (ids.firstItems n)
  | request => request

theorem Request.written?_first {request : Request} {name vectors metadata ids : Value}
    (h : request.written? = some (name, vectors, metadata, ids)) (n : Nat) :
    (request.first n).written? =
      some (name, vectors.firstItems n, metadata.firstItems n, ids.firstItems n) := by
  cases request <;> cases h <;> rfl

namespace Memory

open Batch Fields

variable {server : String} {config : Config} {s s' : Session State} {ctx : Option Context}
  {name vectors metadata ids : Value} {n : String} {i : Index} {rs : List Record}

/-- A write of the first records is accepted if the write of all of them is. -/
theorem Accepted.first (h : Accepted config s name vectors metadata ids ctx n i rs) {k : Nat}
    (hk : 0 < k) :
    Accepted config s name (vectors.firstItems k) (metadata.firstItems k) (ids.firstItems k) ctx n
      i (rs.take k) := by
  obtain ⟨last, hfirst⟩ := Record.buildRecords_firstItems (Prod.ext h.records_eq rfl) hk
  exact { h with records_eq := by rw [hfirst] }

/-- A write that is accepted succeeds if its records fit and the sink takes its count. -/
theorem perform_fit (hsink : ∀ events event, s.sink events event = none) {request : Request}
    (hw : request.written? = some (name, vectors, metadata, ids))
    (h : Accepted config s name vectors metadata ids ctx n i rs) (hfits : i.Fits rs)
    (server : String) :
    ∃ a s', ((store server config).perform ctx request).run s = (.ok a, s') ∧
      a.ids? = some (rs.map Record.id) ∧ s'.backend = put s.backend n (i.insert rs) := by
  obtain ⟨operation, hperform⟩ := Store.perform_write (store server config) hw ctx
  obtain ⟨s', hb, hok | ⟨f, -, events, event, hf⟩⟩ := run_runUpsert_fit h hfits server operation
  · obtain ⟨a, hids, hrun⟩ := (hperform s s').1 _ hok rfl
    exact ⟨a, s', hrun, hids, hb⟩
  · rw [hsink] at hf
    cases hf

/-- The failure of a write at a chunk, when records were written before. -/
theorem failedAt_of_committed (bad : Chunk Record) (cause : Failure) {committed : List String}
    (h : committed ≠ []) :
    (failedAt bad cause committed).category? = some .batchUpsert ∧
      (failedAt bad cause committed).detail? "chunk_offset" = some (.int bad.offset) ∧
      (failedAt bad cause committed).detail? "committed_ids" =
        some (.list (committed.map .text)) := by
  rw [failedAt, List.isEmpty_eq_false_iff.2 h]
  exact ⟨rfl, rfl, rfl⟩

/-- A run that fails, by its evaluation. -/
theorem exists_failure {α σ : Type} (r : Except Failure α × σ) (p : Failure → Bool) (q : σ → Bool)
    (h : (match r with
      | (.error f, s) => p f && q s
      | (.ok _, _) => false) = true) :
    ∃ f s, r = (.error f, s) ∧ p f = true ∧ q s = true := by
  rcases r with ⟨f | a, s⟩
  · exact ⟨f, s, rfl, Bool.and_eq_true_iff.1 h⟩
  · cases h

open VectorStore.Rehearsal (MemoryStage)

/-- A store in memory with a rule in front of it, by which each of two chunks takes 10 ms. -/
def heldUp : MemoryStage where
  script.chunks := [("0", { rule.delay := some 0.01 }), ("1", { rule.delay := some 0.01 })]
  store := [("docs", ⟨1, .cosine, []⟩)]

/-- A write of two records, one at a time, which has 15 ms. -/
def writeInTime : Task (Session MemoryStage) Failure (List String) :=
  Store.upsert ⟨MemoryStage.backend "memory", ⟨1, 1, .bool false, none⟩⟩ (.text "docs")
    (.list [.list [.float 0.5], .list [.float 0.5]]) .null (.list [.text "a", .text "b"])
    (some ⟨.null, .int (Session.epoch + 15), .null, .object []⟩)

/-- Copying that goes through for metadata without fields alone. -/
def copyEmpty (metadata : Fields) : Except Fault Fields :=
  if metadata.isEmpty then .ok metadata else .error .notImplemented

/-- A write of two records in one chunk, the second of which cannot be copied. -/
def writeUncopied : Task (Session State) Failure (List String) :=
  Store.upsert ⟨backend "memory" copyEmpty, ⟨2, 1, .bool false, none⟩⟩ (.text "docs")
    (.list [.list [.float 0.5], .list [.float 0.5]]) (.list [.null, .object [("a", .null)]])
    (.list [.text "a", .text "b"]) none

/-- **Where metadata cannot be copied a chunk is written in part**: the failure is that of the
    copying, not one of a batched write, and the first of the two records stays. -/
theorem failed_call_uncopied :
    ∃ f s', writeUncopied.run (.start heldUp.store Session.takesAll) = (.error f, s') ∧
      f.category? = none ∧
      heldUp.store.map (fun i => i.2.records.map Prod.fst) = [[]] ∧
      s'.backend.map (fun i => i.2.records.map Prod.fst) = [["a"]] := by
  obtain ⟨f, s', hrun, hf, hs⟩ := exists_failure
    (writeUncopied.run (.start heldUp.store Session.takesAll)) (fun f => f.category? == none)
    (fun s => s.backend.map (fun i => i.2.records.map Prod.fst) == [["a"]]) (by decide +kernel)
  exact ⟨f, s', hrun, beq_iff_eq.1 hf, rfl, beq_iff_eq.1 hs⟩

end Memory

end VectorStore
