/-
  How calls end.

  * `failureOf_eq_some`, `reportOf_eq_some`: what the dispatch of a call knows of a chunk in the
    end is how its writer ended;
  * `answer_of_reports`: if no writer fails, the answer depends on the reports alone;
  * `dispatch_disciplined`: chunks are begun in order, each once, never too many at a time,
    none after a failure, and all of them if the call succeeds;
  * `answer_eq_sequential`: if no writer fails, the answer is the one of a call that writes
    chunk after chunk.
-/
import VectorStore.Proofs.Batch.Calls
import VectorStore.Proofs.Batch.Placement

namespace VectorStore.Batch.Call

open Dispatch (Consistent)

variable {σ α : Type} [Clocked σ] {call : Call σ α} {c : Chunk α}

/-! ## Conclusions -/

variable {d : Dispatch α (Except Failure Reported)}

theorem outcome_eq_some {stop : Except Failure Reported → Bool} {n : Nat}
    (hd : Consistent stop n call.chunks call.history d) (hc : c ∈ call.chunks)
    {r : Except Failure Reported} : d.outcome? c = some r ↔ .ended c r ∈ call.history := by
  rw [Dispatch.outcome?, ← hd.endings_eq, Option.map_eq_some_iff, ← History.mem_endings]
  constructor
  · rintro ⟨e, he, rfl⟩
    have hmem := List.mem_of_find?_eq_some he
    have hi := List.find?_some he
    have hec := mem_chunks_of_ended (History.mem_endings.1 hmem)
    obtain rfl := List.inj_on_of_nodup_map call.nodup_chunks hec hc (beq_iff_eq.1 hi)
    exact hmem
  · intro hmem
    have hsome : (call.history.endings.find? (·.1.index == c.index)).isSome :=
      List.find?_isSome.2 ⟨_, hmem, beq_self_eq_true c.index⟩
    obtain ⟨e, he⟩ := Option.isSome_iff_exists.1 hsome
    have hi := List.find?_some he
    have heq := List.inj_on_of_nodup_map hd.ended_once (List.mem_of_find?_eq_some he) hmem
      (beq_iff_eq.1 hi)
    exact ⟨e, he, by rw [heq]⟩

theorem failureOf_eq_some {stop : Except Failure Reported → Bool} {n : Nat}
    (hd : Consistent stop n call.chunks call.history d) (hc : c ∈ call.chunks) {f : Failure} :
    failureOf d c = some f ↔ .ended c (.error f) ∈ call.history := by
  rw [← outcome_eq_some hd hc, failureOf]
  rcases d.outcome? c with _ | _ | _ <;> simp

theorem reportOf_eq_some {stop : Except Failure Reported → Bool} {n : Nat}
    (hd : Consistent stop n call.chunks call.history d) (hc : c ∈ call.chunks) {r : Reported} :
    reportOf d c = some r ↔ .ended c (.ok r) ∈ call.history := by
  rw [← outcome_eq_some hd hc, reportOf]
  rcases d.outcome? c with _ | _ | _ <;> simp

/-- A call succeeds only if no writer failed. -/
theorem unfailed_of_answer {o : Outcome} (h : call.answer = .ok o) (c : Chunk α) (f : Failure) :
    .ended c (.error f) ∉ call.history := by
  obtain ⟨d, hf, -, -, ha⟩ := call.follows
  intro he
  have hc := mem_chunks_of_ended he
  rw [← failureOf_eq_some (hf.consistent call.nodup_chunks) hc,
    failureOf_of_concluded (ha ▸ h) hc] at he
  cases he

/-- **If no writer fails, the answer depends on the reports alone.** -/
theorem answer_of_reports {report : Chunk α → Reported} (hin : call.history.inFlight = [])
    (hr : ∀ c r, .ended c r ∈ call.history → r = .ok (report c)) :
    call.answer = match placeAll report call.chunks with
      | .error f => .error (.fault f)
      | .ok entries => .ok ⟨call.records.map call.idOf, entries, call.chunks.length⟩ := by
  obtain ⟨d, hf, -, -, ha⟩ := call.follows
  have hd := hf.consistent call.nodup_chunks
  have hbegun := begun_of_unfailed hin fun c f h => nomatch hr c _ h
  have hended : ∀ c ∈ call.chunks, .ended c (.ok (report c)) ∈ call.history := fun c hc => by
    obtain ⟨r, he⟩ := exists_ended hin (hbegun ▸ hc)
    exact hr c r he ▸ he
  have hreport : ∀ c ∈ call.chunks, reportOf d c = some (report c) := fun c hc =>
    (reportOf_eq_some hd hc).2 (hended c hc)
  have hfail : ∀ c ∈ call.chunks, failureOf d c = none := fun c hc =>
    Option.eq_none_iff_forall_ne_some.2 fun f h => nomatch hr c _ ((failureOf_eq_some hd hc).1 h)
  have hcan : firstCancelled d call.chunks = none :=
    List.findSome?_eq_none_iff.2 fun c hc => by rw [hfail c hc]; rfl
  have hfirst : firstFailed d call.chunks = none :=
    List.findSome?_eq_none_iff.2 fun c hc => by rw [hfail c hc]; rfl
  rw [ha, concluded, conclude, hcan, hfirst]
  simp only [allPlaced_eq hreport]
  rcases hp : placeAll report call.chunks with f | entries
  · have hg : gathered (.fault f) = .fault f := by
      simp [gathered, Failure.isCancellation, isCancellation_of_placeAll hp]
    simp [hg]
  · rfl

/-! ## The discipline of dispatching -/

/-- Whether an outcome is a failure other than a cancellation. -/
def raised : Except Failure Reported → Bool := stops fun f => !f.isCancellation

/-- **The dispatch of a call is disciplined.**  At every moment at most `limit` chunks are being
    written, and those begun so far are the first ones in their order; every chunk is begun at
    most once, and none after a writer has failed.  With nothing left in flight, every chunk was
    begun unless a writer failed, and was written if the call succeeds.  Writers that wait for
    nothing but time leave nothing in flight. -/
theorem dispatch_disciplined (call : Call σ α) :
    Disciplined raised call.limit call.chunks call.history ∧
    call.history.begun.Nodup ∧
    (∀ (k : Nat) c, call.chunks[k]? = some c →
      c = ⟨k, k * call.size, (call.records.drop (k * call.size)).take call.size⟩) ∧
    (call.history.inFlight = [] → (∀ c f, .ended c (.error f) ∉ call.history) →
      call.history.begun = call.chunks) ∧
    (call.history.inFlight = [] → ∀ o, call.answer = .ok o →
      call.history.begun = call.chunks ∧
        ∀ c ∈ call.chunks, ∃ r, .ended c (.ok r) ∈ call.history) ∧
    ((∀ c ∈ call.chunks, (call.write c).Timed) → call.history.inFlight = []) := by
  obtain ⟨d, hf, -⟩ := call.follows
  have hd := hf.disciplined call.nodup_chunks
  refine ⟨hd.mono call.width_le ?_, ?_, ?_, begun_of_unfailed, ?_, inFlight_of_timed⟩
  · rintro (f | r) h
    · simpa [raised, stops, halts] using Or.inr h
    · cases h
  · exact (call.nodup_chunks.of_map _).sublist (hd.begun_prefix _ (List.prefix_refl _)).sublist
  · intro k c hk
    rw [chunks, getElem?_chunks call.size_pos] at hk
    split at hk <;> cases hk
    rfl
  · intro hin o ho
    have hbegun := begun_of_unfailed hin (unfailed_of_answer ho)
    refine ⟨hbegun, fun c hc => ?_⟩
    obtain ⟨f | r, hr⟩ := exists_ended hin (hbegun ▸ hc)
    · exact absurd hr (unfailed_of_answer ho c f)
    · exact ⟨r, hr⟩

theorem dispatch_disciplined_slowly :
    let call := slowly 1 fun _ => .ok []
    call.history.inFlight = [] ∧ call.history.begun = call.chunks ∧
      ∃ o, call.answer = .ok o ∧ ∀ c ∈ call.chunks, ∃ r, .ended c (.ok r) ∈ call.history := by
  intro call
  obtain ⟨-, -, -, hbegun, hall, hin⟩ := dispatch_disciplined call
  have hin := hin fun c _ => timed_slow _
  have hreports : ∀ c r, .ended c r ∈ call.history → r = .ok ((fun _ => []) c) :=
    fun c r => ended_slowly
  obtain ⟨entries, he⟩ := placeAll_succeeds.2 fun c (_ : c ∈ call.chunks) item (hi : item ∈ []) =>
    nomatch hi
  have ha := answer_of_reports hin hreports
  rw [he] at ha
  exact ⟨hin, hbegun hin (fun c f h => nomatch hreports c _ h), _, ha, (hall hin _ ha).2⟩

/-! ## Answers without failures -/

/-- The call that writes chunk after chunk, with writers that report at once. -/
def sequentially (call : Call σ α) (report : Chunk α → Reported) : Call σ α :=
  { call with limit := 1, limit_pos := Nat.one_pos, write := fun c => .ret (report c) }

/-- **Where no writer fails, a call answers as one that writes chunk after chunk.**  It succeeds
    just if every reported item has a position; then it has the ids of all records in their
    order, so many chunks as it takes, and all items in the order of the chunks and of each
    report, each placed among all records. -/
theorem answer_eq_sequential {report : Chunk α → Reported} (hin : call.history.inFlight = [])
    (hr : ∀ c r, .ended c r ∈ call.history → r = .ok (report c)) :
    call.answer = (call.sequentially report).answer ∧
    ((∃ o, call.answer = .ok o) ↔
      ∀ c ∈ call.chunks, ∀ item ∈ report c, ∃ i, positionIn item = .ok i) ∧
    ∀ o, call.answer = .ok o →
      o.ids = call.records.map call.idOf ∧
      o.chunks = (call.records.length + call.size - 1) / call.size ∧
      (∃ perChunk, List.Forall₂ (fun c => List.Forall₂ (Placed c) (report c)) call.chunks perChunk ∧
        o.failures = perChunk.flatten) ∧
      ∀ c ∈ call.chunks, ∀ i, i < c.records.length →
        call.records[c.offset + i]? = c.records[i]? := by
  have hseq : (call.sequentially report).answer = _ := answer_of_reports
    (inFlight_of_timed fun c _ => trivial) fun c r h => (mayEnd_of_ended h).eq_of_done
  have ha := answer_of_reports hin hr
  refine ⟨ha.trans hseq.symm, ?_, fun o ho => ?_⟩
  · rw [← placeAll_succeeds, ha]
    rcases placeAll report call.chunks with f | entries <;> simp
  · rw [ha] at ho
    rcases hp : placeAll report call.chunks with f | entries <;> rw [hp] at ho <;> cases ho
    exact ⟨rfl, length_chunks call.size_pos call.records, placeAll_eq_ok hp,
      fun c hc i hi => getElem?_records call.size_pos hc hi⟩

/-- Each of two chunks reports an item. -/
theorem answer_eq_sequential_slowly :
    let report : Chunk Nat → Reported := fun c => [[("index", .int c.index)]]
    let call := slowly 1 fun k => .ok [[("index", .int k)]]
    call.history.inFlight = [] ∧ call.answer = (call.sequentially report).answer ∧
      ∃ o, call.answer = .ok o ∧ o.chunks = 2 := by
  intro report call
  have hin : call.history.inFlight = [] := inFlight_slowly _ _
  have hr : ∀ c r, .ended c r ∈ call.history → r = .ok (report c) := fun c r => ended_slowly
  obtain ⟨hseq, hok, hall⟩ := answer_eq_sequential hin hr
  obtain ⟨o, ho⟩ := hok.2 fun c _ item hi => ⟨c.index, by
    rw [List.mem_singleton.1 hi]
    rfl⟩
  exact ⟨hin, hseq, o, ho, by simpa [call, slowly] using (hall o ho).2.1⟩

end VectorStore.Batch.Call
