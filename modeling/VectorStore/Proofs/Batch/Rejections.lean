/-
  Refused items and the ids that a failed call names.

  * `Rejected`: a writer that returned has reported the record at a position;
  * `answer_of_storeError`: a call that fails with a store error after some chunk was written
    fails with an error of its own, which names `committed`;
  * `mem_committed_iff`: where ids differ, these are the ids of the records whose writers
    returned, whatever they reported;
  * `named_iff_returned`: so a failed call names no rejected record just if no record is.
-/
import VectorStore.Proofs.Batch.Failures

namespace VectorStore.Batch

/-- The ids that the details of an error name as written. -/
def namedIds (e : StoreError) : List String :=
  match Fields.get? e.details "committed_ids" with
  | some (.list ids) => ids.filterMap fun
    | .text id => some id
    | _ => none
  | _ => []

theorem namedIds_of_details {e : StoreError} {ids : List String}
    (h : Fields.get? e.details "committed_ids" = some (.list (ids.map .text))) :
    namedIds e = ids := by
  rw [namedIds, h]
  exact (List.filterMap_map ..).trans List.filterMap_some

namespace Call

variable {σ α : Type} [Clocked σ] {call : Call σ α}

/-! ## Rejected records -/

/-- The writer of the record's chunk has returned, and reports the record. -/
def Rejected (call : Call σ α) (k : Nat) : Prop :=
  ∃ c r item, ∃ i : Nat, .ended c (.ok r) ∈ call.history ∧ item ∈ r ∧
    positionIn item = .ok i ∧ i < c.records.length ∧ k = c.offset + i

/-- A rejected record is one of the records, and the writer of its chunk has returned. -/
theorem Rejected.returned {k : Nat} (h : call.Rejected k) :
    call.history.returned (k / call.size) = true ∧ ∃ record, call.records[k]? = some record := by
  obtain ⟨c, r, item, i, he, -, -, hi, rfl⟩ := h
  have hc := mem_chunks_of_ended he
  have hat : call.records[c.offset + i]? = some c.records[i] :=
    (getElem?_records call.size_pos hc hi).trans (List.getElem?_eq_getElem hi)
  have hp : (c.records[i], c.offset + i) ∈ c.records.zipIdx c.offset :=
    List.mk_add_mem_zipIdx_iff_getElem?.2 (List.getElem?_eq_getElem hi)
  refine ⟨?_, _, hat⟩
  rw [div_of_mem_zipIdx call.size_pos hc hp]
  exact (returned_iff hc).2 ⟨r, he⟩

/-! ## Named records -/

/-- **The id of a record is among those of the written just if the writer of its chunk has
    returned.** -/
theorem mem_committed_iff (hids : (call.records.map call.idOf).Nodup) {k : Nat} {record : α}
    (hk : call.records[k]? = some record) :
    call.idOf record ∈ call.committed ↔ call.history.returned (k / call.size) = true := by
  rw [committed, List.mem_map]
  constructor
  · rintro ⟨⟨record', k'⟩, hp, hid⟩
    obtain ⟨hmem, hret⟩ := List.mem_filter.1 hp
    have hk' : call.records[k']? = some record' := List.mem_zipIdx_iff_getElem?.1 hmem
    have hlt : k < (call.records.map call.idOf).length := by
      simpa using (List.getElem?_eq_some_iff.1 hk).1
    have hsame : (call.records.map call.idOf)[k]? = (call.records.map call.idOf)[k']? := by
      rw [List.getElem?_map, List.getElem?_map, hk, hk', Option.map_some, Option.map_some, hid]
    obtain rfl := (List.getElem?_inj hlt hids).1 hsame
    exact hret
  · intro hret
    exact ⟨(record, k), List.mem_filter.2 ⟨List.mem_zipIdx_iff_getElem?.2 hk, hret⟩, rfl⟩

/-- A call that fails with a store error has had no cancellation, but some other failure. -/
theorem failed_of_storeError {f : Failure} {e : StoreError} (ha : call.answer = .error f)
    (hf : f.storeError? = some e) :
    (∀ c g, .ended c (.error g) ∈ call.history → g.isCancellation = false) ∧
      ∃ c g, .ended c (.error g) ∈ call.history := by
  obtain ⟨d, hleads, -, -, hanswer⟩ := call.follows
  have hd := hleads.consistent call.nodup_chunks
  rw [hanswer, concluded, conclude] at ha
  rcases hcan : firstCancelled d call.chunks with _ | g <;> simp only [hcan] at ha
  · refine ⟨fun c g he => ?_, ?_⟩
    · have hc := mem_chunks_of_ended he
      have hnone := List.findSome?_eq_none_iff.1 hcan c hc
      rw [(failureOf_eq_some hd hc).2 he] at hnone
      simpa using hnone
    · rcases hfirst : firstFailed d call.chunks with _ | ⟨c, g⟩ <;> simp only [hfirst] at ha
      · -- then only the place of a reported item can be at fault
        rcases hplaced : allPlaced d call.chunks with fault | entries <;>
          simp only [hplaced] at ha <;> cases ha
        have hgathered : gathered (.fault fault) = .fault fault ∨
            gathered (.fault fault) = .fault .cancelled := by
          rw [gathered]
          split <;> simp
        rcases hgathered with h | h <;> split at hf <;> simp [h, Failure.storeError?] at hf
      · obtain ⟨c', hc', hg⟩ := List.exists_of_findSome?_eq_some hfirst
        obtain ⟨g', hg', -⟩ := Option.map_eq_some_iff.1 hg
        exact ⟨c', g', (failureOf_eq_some hd hc').1 hg'⟩
  · -- a cancellation is no store error
    obtain ⟨c, -, hg⟩ := List.exists_of_findSome?_eq_some hcan
    have hcancelled : g.isCancellation = true := (Option.filter_eq_some_iff.1 hg).2
    have hnone : ∀ g : Failure, g.isCancellation = true → g.storeError? = none := fun g h => by
      cases g with
      | fault => rfl
      | _ => cases h
    cases ha
    split at hf
    · rw [hnone g hcancelled] at hf
      cases hf
    · rw [gathered, if_pos hcancelled] at hf
      cases hf

/-- **After some chunk was written, a call fails with an error of its own, which names the
    records whose chunks were written.** -/
theorem answer_of_storeError {f : Failure} {e : StoreError} (ha : call.answer = .error f)
    (hf : f.storeError? = some e) (hsome : ∃ c r, .ended c (.ok r) ∈ call.history) :
    e.category = .batchUpsert ∧ namedIds e = call.committed := by
  obtain ⟨hord, hfail⟩ := failed_of_storeError ha hf
  obtain ⟨c, g, -, -, hanswer⟩ := answer_of_failed hord hfail
  have hne : call.committed.isEmpty = false := by
    rw [List.isEmpty_eq_false_iff, Ne, committed_eq_nil_iff]
    obtain ⟨c, r, he⟩ := hsome
    exact fun hnone => hnone c r he
  rw [hanswer, failedAt, hne] at ha
  cases ha
  cases hf
  exact ⟨rfl, namedIds_of_details rfl⟩

/-- **Whom a failed call names.**  Ids being different, a call that fails with a store error after
    some chunk was written names the records whose writers have returned, whatever these report:
    so it names no rejected record just if none is rejected. -/
theorem named_iff_returned (call : Call σ α) (hids : (call.records.map call.idOf).Nodup)
    {f : Failure} {e : StoreError} (ha : call.answer = .error f) (hf : f.storeError? = some e) :
    ((∃ c r, .ended c (.ok r) ∈ call.history) → e.category = .batchUpsert ∧
      ∀ (k : Nat) record, call.records[k]? = some record →
        (call.idOf record ∈ namedIds e ↔ call.history.returned (k / call.size) = true)) ∧
    ((∀ (k : Nat) record, call.records[k]? = some record → call.Rejected k →
        call.idOf record ∉ namedIds e) ↔
      ∀ k, ¬call.Rejected k) := by
  have hnamed (hsome : ∃ c r, .ended c (.ok r) ∈ call.history) :
      e.category = .batchUpsert ∧ ∀ (k : Nat) record, call.records[k]? = some record →
        (call.idOf record ∈ namedIds e ↔ call.history.returned (k / call.size) = true) := by
    obtain ⟨hcategory, hnames⟩ := answer_of_storeError ha hf hsome
    exact ⟨hcategory, fun k record hk => hnames ▸ mem_committed_iff hids hk⟩
  refine ⟨hnamed, fun hnot k hr => ?_, fun hnone k _ _ hr => absurd hr (hnone k)⟩
  obtain ⟨c, r, item, i, he, -⟩ := id hr
  obtain ⟨hreturned, record, hk⟩ := hr.returned
  exact hnot k record hk hr (((hnamed ⟨c, r, he⟩).2 k record hk).2 hreturned)

/-- The second of two chunks fails, after the first has reported some items. -/
def halfway (report : Reported) : Call (Session Unit) Nat :=
  slowly 0 fun k => if k = 0 then .ok report else .error (.fault .notImplemented)

theorem run_halfway (report : Reported) :
    (∃ e, (halfway report).answer = .error (.chained e (.fault .notImplemented))) ∧
      .ended ⟨0, 0, [10, 20]⟩ (.ok report) ∈ (halfway report).history := by
  have hin : (halfway report).history.inFlight = [] := inFlight_slowly 0 _
  have hended {c : Chunk Nat} {r : Except Failure Reported}
      (h : .ended c r ∈ (halfway report).history) :
      r = if c.index = 0 then .ok report else .error (.fault .notImplemented) := ended_slowly h
  have herror : ∀ c f, .ended c (.error f) ∈ (halfway report).history →
      c.index ≠ 0 ∧ f = .fault .notImplemented := fun c f h => by
    have hr := hended h
    split at hr <;> cases hr
    exact ⟨‹_›, rfl⟩
  have hmem : ∀ k : Nat, k * 2 < 3 →
      ⟨k, k * 2, ([10, 20, 30].drop (k * 2)).take 2⟩ ∈ (halfway report).chunks := fun k hk =>
    List.mem_of_getElem? ((getElem?_chunks Nat.two_pos _ k).trans (if_pos hk))
  have hfail : ∃ c f, .ended c (.error f) ∈ (halfway report).history := by
    by_contra hn
    have hbegun := begun_of_unfailed hin fun c f h => hn ⟨c, f, h⟩
    obtain ⟨r, hr⟩ := exists_ended hin (hbegun ▸ hmem 1 (by decide))
    obtain rfl := hended hr
    exact hn ⟨_, _, hr⟩
  obtain ⟨c, f, he, -, -, hchained, hlimit⟩ := failure_report (halfway report)
    (fun c f h => by rw [(herror c f h).2]; rfl) hfail
  obtain ⟨hne, rfl⟩ := herror c f he
  obtain ⟨hret, -, -⟩ := hlimit rfl
  obtain ⟨r, hr⟩ := (hret _).2 ⟨hmem 0 (by decide), Nat.pos_of_ne_zero hne⟩
  obtain ⟨e, ha, -⟩ := hchained ⟨_, r, hr⟩
  obtain rfl : r = report := Except.ok.inj (hended hr)
  exact ⟨⟨e, ha⟩, hr⟩

theorem named_iff_returned_halfway : ∃ e, (halfway []).answer =
    .error (.chained e (.fault .notImplemented)) ∧ "10" ∈ namedIds e ∧
      ∀ (k : Nat) record, [10, 20, 30][k]? = some record → (halfway []).Rejected k →
        Number.natText record ∉ namedIds e := by
  obtain ⟨⟨e, ha⟩, hr⟩ := run_halfway []
  obtain ⟨hnamed, hnone⟩ := named_iff_returned (halfway []) (by decide) ha rfl
  refine ⟨e, ha, ((hnamed ⟨_, _, hr⟩).2 0 10 rfl).2 ?_, hnone.2 ?_⟩
  · exact (returned_iff (mem_chunks_of_ended hr)).2 ⟨_, hr⟩
  · rintro k ⟨c, r, item, i, he, hitem, -⟩
    have hr : (.ok r : Except Failure Reported) =
        if c.index = 0 then .ok [] else .error (.fault .notImplemented) := ended_slowly he
    split at hr <;> cases hr
    cases hitem

/-- A rejected record may be named as written. -/
theorem named_rejected : ∃ e,
    (halfway [[("index", .int 0)]]).answer = .error (.chained e (.fault .notImplemented)) ∧
      e.category = .batchUpsert ∧ (halfway [[("index", .int 0)]]).Rejected 0 ∧
      (halfway [[("index", .int 0)]]).records[0]? = some 10 ∧
      (halfway [[("index", .int 0)]]).idOf 10 ∈ namedIds e := by
  obtain ⟨⟨e, ha⟩, hr⟩ := run_halfway [[("index", .int 0)]]
  obtain ⟨hcategory, hnames⟩ := answer_of_storeError ha rfl ⟨_, _, hr⟩
  have hrejected : (halfway [[("index", .int 0)]]).Rejected 0 :=
    ⟨_, _, _, 0, hr, List.mem_singleton_self _, rfl, by decide, rfl⟩
  refine ⟨e, ha, hcategory, hrejected, rfl, ?_⟩
  rw [hnames]
  exact (mem_committed_iff (by decide) rfl).2 hrejected.returned.1

end Call

end VectorStore.Batch
