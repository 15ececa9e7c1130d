/-
  How calls fail.

  * `committed`: the ids of the records whose chunks were written, position by position;
    `committedIds_eq`: these are the ids that the dispatch of a call knows of in the end;
  * `exists_firstFailed`: the failure of a call is that of its first chunk that failed;
  * `returned_of_alone`: chunk after chunk, those before the failed one were written, and none
    behind it was begun;
  * `failure_report`: so what a failed call reports is exact.
-/
import VectorStore.Proofs.Batch.Answers

namespace VectorStore.Batch

/-- Whether the writer of the chunk with the number has returned. -/
def History.returned {α ε ρ : Type} (h : History α (Except ε ρ)) (k : Nat) : Bool :=
  h.endings.any fun e => e.1.index == k && e.2.isOk

namespace Call

open Dispatch (Consistent)

variable {σ α : Type} [Clocked σ] {call : Call σ α} {c : Chunk α}
  {d : Dispatch α (Except Failure Reported)} {stop : Except Failure Reported → Bool} {n : Nat}

/-! ## What was written -/

/-- The ids of the records whose chunks were written, in the order of the records. -/
def committed (call : Call σ α) : List String :=
  (call.records.zipIdx.filter fun p => call.history.returned (p.2 / call.size)).map fun p =>
    call.idOf p.1

theorem returned_iff (hc : c ∈ call.chunks) :
    call.history.returned c.index = true ↔ ∃ r, .ended c (.ok r) ∈ call.history := by
  rw [History.returned, List.any_eq_true]
  constructor
  · rintro ⟨⟨c', f | r⟩, he, hi⟩
    · simp [Except.isOk, Except.toBool] at hi
    · have he := History.mem_endings.1 he
      have hi : c'.index = c.index := by simpa [Except.isOk, Except.toBool] using hi
      obtain rfl := List.inj_on_of_nodup_map call.nodup_chunks (mem_chunks_of_ended he) hc hi
      exact ⟨r, he⟩
  · rintro ⟨r, he⟩
    exact ⟨_, History.mem_endings.2 he, by simp [Except.isOk, Except.toBool]⟩

theorem isSome_reportOf (hd : Consistent stop n call.chunks call.history d)
    (hc : c ∈ call.chunks) : (reportOf d c).isSome = call.history.returned c.index := by
  rw [Bool.eq_iff_iff, Option.isSome_iff_exists, returned_iff hc]
  exact exists_congr fun r => reportOf_eq_some hd hc

/-- **The ids that count as written are those of the records at positions of written chunks.** -/
theorem committedIds_eq (hd : Consistent stop n call.chunks call.history d) :
    committedIds call.idOf d call.chunks = call.committed := by
  have hfilter : ∀ (p : Chunk α → Bool) (f : Chunk α → List String) (l : List (Chunk α)),
      (l.filter p).flatMap f = l.flatMap fun c => if p c then f c else [] := by
    intro p f l
    induction l with
    | nil => rfl
    | cons c l ih => cases hp : p c <;> simp [hp, ih]
  rw [committedIds, hfilter, committed, zipIdx_eq_flatMap call.size_pos, List.filter_flatMap,
    List.map_flatMap]
  refine List.flatMap_congr fun c hc => ?_
  rw [isSome_reportOf hd hc, List.filter_congr (q := fun _ => call.history.returned c.index)
    fun p hp => by rw [div_of_mem_zipIdx call.size_pos hc hp]]
  have hids : (fun p : α × Nat => call.idOf p.1) = call.idOf ∘ Prod.fst := rfl
  cases call.history.returned c.index
  · simp
  · simp [hids, ← List.map_map, List.zipIdx_map_fst]

theorem committed_eq_nil_iff :
    call.committed = [] ↔ ∀ c r, .ended c (.ok r) ∉ call.history := by
  obtain ⟨d, hf, -⟩ := call.follows
  have hd := hf.consistent call.nodup_chunks
  rw [← committedIds_eq hd, committedIds, List.flatMap_eq_nil_iff]
  constructor
  · intro h c r he
    have hc := mem_chunks_of_ended he
    have hmem : c ∈ call.chunks.filter fun c => (reportOf d c).isSome := by
      rw [List.mem_filter, (reportOf_eq_some hd hc).2 he]
      exact ⟨hc, rfl⟩
    exact records_ne_nil call.size_pos hc (List.map_eq_nil_iff.1 (h c hmem))
  · intro h c hmem
    obtain ⟨hc, hs⟩ := List.mem_filter.1 hmem
    obtain ⟨r, hr⟩ := Option.isSome_iff_exists.1 hs
    exact absurd ((reportOf_eq_some hd hc).1 hr) (h c r)

/-! ## The first failure -/

/-- The first chunk that failed, and how. -/
theorem exists_firstFailed (hd : Consistent stop n call.chunks call.history d)
    (hfail : ∃ c f, .ended c (.error f) ∈ call.history) :
    ∃ c f, firstFailed d call.chunks = some (c, f) ∧ .ended c (.error f) ∈ call.history ∧
      ∀ c' f', .ended c' (.error f') ∈ call.history → c.index ≤ c'.index := by
  rcases hff : firstFailed d call.chunks with _ | ⟨c, f⟩
  · obtain ⟨c, f, he⟩ := hfail
    have hc := mem_chunks_of_ended he
    have hn := List.findSome?_eq_none_iff.1 hff c hc
    rw [(failureOf_eq_some hd hc).2 he] at hn
    cases hn
  · refine ⟨c, f, rfl, ?_⟩
    obtain ⟨before, c', after, hcs, hc', hbefore⟩ := List.findSome?_eq_some_iff.1 hff
    obtain ⟨f', hf', heq⟩ := Option.map_eq_some_iff.1 hc'
    cases heq
    have hmem : c ∈ call.chunks := by rw [hcs]; simp
    refine ⟨(failureOf_eq_some hd hmem).1 hf', fun c' f' he => ?_⟩
    have hlater := (List.pairwise_append.1 (hcs ▸ call.pairwise_chunks)).2.1
    have hm := mem_chunks_of_ended he
    have hfail := (failureOf_eq_some hd hm).2 he
    rw [hcs, List.mem_append, List.mem_cons] at hm
    rcases hm with hm | rfl | hm
    · have hn := hbefore c' hm
      rw [hfail] at hn
      cases hn
    · exact Nat.le_refl _
    · exact Nat.le_of_lt (List.rel_of_pairwise_cons hlater hm)

/-- How a call answers whose writers failed with ordinary failures. -/
theorem answer_of_failed (hord : ∀ c f, .ended c (.error f) ∈ call.history →
      f.isCancellation = false)
    (hfail : ∃ c f, .ended c (.error f) ∈ call.history) :
    ∃ c f, .ended c (.error f) ∈ call.history ∧
      (∀ c' f', .ended c' (.error f') ∈ call.history → c.index ≤ c'.index) ∧
      call.answer = .error (failedAt c f call.committed) := by
  obtain ⟨d, hf, -, -, ha⟩ := call.follows
  have hd := hf.consistent call.nodup_chunks
  obtain ⟨c, f, hfirst, he, hleast⟩ := exists_firstFailed hd hfail
  refine ⟨c, f, he, hleast, ?_⟩
  have hcan : firstCancelled d call.chunks = none := by
    refine List.findSome?_eq_none_iff.2 fun c hc => ?_
    rcases hfo : failureOf d c with _ | f
    · rfl
    · simp [hord c f ((failureOf_eq_some hd hc).1 hfo)]
  have hg : gathered (failedAt c f call.committed) = failedAt c f call.committed := by
    rw [gathered, if_neg]
    rw [failedAt]
    split
    · simp [hord c f he]
    · simp [Failure.isCancellation]
  rw [ha, concluded, conclude, hcan, hfirst]
  simp only [committedIds_eq hd, hg, ite_self]

/-! ## Chunk after chunk -/

/-- One at a time, chunks before the failed one were written, and none behind it was begun. -/
theorem returned_of_alone (hlimit : call.limit = 1) {f : Failure}
    (he : .ended c (.error f) ∈ call.history) :
    (∀ c', (∃ r, .ended c' (.ok r) ∈ call.history) ↔ c' ∈ call.chunks ∧ c'.index < c.index) ∧
      call.history.begun = call.chunks.take (c.index + 1) := by
  obtain ⟨d, hf, -⟩ := call.follows
  have halone : call.alone = true := by simp [alone, hlimit]
  have hd := hf.consistent call.nodup_chunks
  rw [width, if_pos halone] at hf
  have ho := hf.inOrder call.nodup_chunks
  have hstop : ∀ f, stops call.halts (.error f : Except Failure Reported) = true := by
    simp [stops, halts, halone]
  have hmem := History.mem_endings.2 he
  have hnone : d.flying = [] := by
    by_contra hn
    exact absurd (hstop f) (by simp [ho.unstopped hn _ hmem])
  -- the failed chunk ended last
  obtain ⟨before, hends⟩ : ∃ before, call.history.endings = before ++ [(c, .error f)] := by
    rcases List.eq_nil_or_concat' call.history.endings with hnil | ⟨before, e, hends⟩
    · rw [hnil] at hmem
      cases hmem
    rw [hends, List.mem_append, List.mem_singleton] at hmem
    rcases hmem with hmem | rfl
    · exact absurd (hstop f) (by simp [ho.stopped_last before e hends _ hmem])
    · exact ⟨before, hends⟩
  have hbegun : call.history.begun = before.map (·.1) ++ [c] := by
    simp [ho.begun_eq, hends, hnone]
  have hchunks : call.chunks = before.map (·.1) ++ c :: d.pending := by
    rw [← hd.begun_pending, hbegun, List.append_assoc, List.singleton_append]
  have hindex : c.index = before.length := by
    have hget : call.chunks[before.length]? = some c := by
      rw [hchunks, List.getElem?_append_right (by simp)]
      simp
    exact index_getElem?_chunks call.size_pos hget
  obtain ⟨-, hlater, hearlier⟩ := List.pairwise_append.1 (hchunks ▸ call.pairwise_chunks)
  refine ⟨fun c' => ⟨?_, ?_⟩, ?_⟩
  · rintro ⟨r, hr⟩
    refine ⟨mem_chunks_of_ended hr, ?_⟩
    have hr := History.mem_endings.2 hr
    rw [hends, List.mem_append, List.mem_singleton] at hr
    rcases hr with hr | hr
    · exact hearlier c' (List.mem_map_of_mem hr) c (List.mem_cons_self ..)
    · cases hr
  · rintro ⟨hc', hlt⟩
    rw [hchunks, List.mem_append, List.mem_cons] at hc'
    rcases hc' with hc' | rfl | hc'
    · obtain ⟨⟨c', r⟩, hr, rfl⟩ := List.mem_map.1 hc'
      cases r with
      | error f' => exact absurd (hstop f') (by simp [ho.stopped_last before _ hends _ hr])
      | ok r => exact ⟨r, History.mem_endings.1 (hends ▸ List.mem_append_left _ hr)⟩
    · exact absurd hlt (Nat.lt_irrefl _)
    · exact absurd (List.rel_of_pairwise_cons hlater hc') (by omega)
  · rw [hbegun, hchunks, hindex]
    simp [List.take_append, List.take_of_length_le]

/-- The items at positions below a bound. -/
theorem filter_zipIdx (l : List α) (m : Nat) :
    (l.zipIdx.filter fun p => p.2 < m).map Prod.fst = l.take m := by
  have hlow : ∀ p ∈ (l.take m).zipIdx, p.2 < m := fun p hp => by
    have hlt := List.snd_lt_of_mem_zipIdx hp
    rw [List.length_take] at hlt
    omega
  have hhigh : ∀ p ∈ (l.drop m).zipIdx (0 + (l.take m).length), ¬p.2 < m := fun p hp => by
    have hle := List.le_snd_of_mem_zipIdx hp
    have hlt := List.snd_lt_of_mem_zipIdx hp
    rw [List.length_take] at hle hlt
    rw [List.length_drop] at hlt
    omega
  conv_lhs => rw [← List.take_append_drop m l, List.zipIdx_append, List.filter_append]
  rw [List.filter_eq_self.2 (by simpa using hlow), List.filter_eq_nil_iff.2 (by simpa using hhigh),
    List.append_nil, List.zipIdx_map_fst]

/-- One at a time, the records before the failed chunk were written. -/
theorem committed_of_alone (hlimit : call.limit = 1) {f : Failure}
    (he : .ended c (.error f) ∈ call.history) :
    call.committed = (call.records.take (c.index * call.size)).map call.idOf := by
  obtain ⟨hret, -⟩ := returned_of_alone hlimit he
  have hfilter : ∀ p ∈ call.records.zipIdx, call.history.returned (p.2 / call.size) =
      decide (p.2 < c.index * call.size) := fun p hp => by
    rw [zipIdx_eq_flatMap call.size_pos, List.mem_flatMap] at hp
    obtain ⟨c', hc', hp⟩ := hp
    rw [div_of_mem_zipIdx call.size_pos hc' hp, Bool.eq_iff_iff, returned_iff hc', hret,
      decide_eq_true_eq, ← Nat.div_lt_iff_lt_mul call.size_pos,
      div_of_mem_zipIdx call.size_pos hc' hp]
    exact and_iff_right hc'
  rw [committed, List.filter_congr hfilter, ← filter_zipIdx, List.map_map]
  rfl

/-! ## The report -/

/-- **What a failed call reports is exact.**  Where writers failed with ordinary failures, the
    call fails with the failure of the first chunk that failed, if none was written; otherwise
    with an error caused by it, which names that chunk and the ids of the records whose chunks
    were written.  Chunk after chunk these are the records before the failed chunk, and no
    chunk behind it is begun. -/
theorem failure_report (call : Call σ α)
    (hord : ∀ c f, .ended c (.error f) ∈ call.history → f.isCancellation = false)
    (hfail : ∃ c f, .ended c (.error f) ∈ call.history) :
    ∃ c f, .ended c (.error f) ∈ call.history ∧
      (∀ c' f', .ended c' (.error f') ∈ call.history → c.index ≤ c'.index) ∧
      ((∀ c' r, .ended c' (.ok r) ∉ call.history) → call.answer = .error f) ∧
      ((∃ c' r, .ended c' (.ok r) ∈ call.history) → ∃ e, call.answer = .error (.chained e f) ∧
        e.category = .batchUpsert ∧
        Fields.get? e.details "chunk_index" = some (.int c.index) ∧
        Fields.get? e.details "chunk_offset" = some (.int (c.index * call.size)) ∧
        Fields.get? e.details "chunk_size" = some (.int c.records.length) ∧
        Fields.get? e.details "committed_ids" = some (.list (call.committed.map .text))) ∧
      (call.limit = 1 →
        (∀ c', (∃ r, .ended c' (.ok r) ∈ call.history) ↔
          c' ∈ call.chunks ∧ c'.index < c.index) ∧
        call.history.begun = call.chunks.take (c.index + 1) ∧
        call.committed = (call.records.take (c.index * call.size)).map call.idOf) := by
  obtain ⟨c, f, he, hleast, ha⟩ := answer_of_failed hord hfail
  refine ⟨c, f, he, hleast, fun hnone => ?_, fun hsome => ?_, fun hlimit => ?_⟩
  · rw [ha, failedAt, committed_eq_nil_iff.2 hnone]
    rfl
  · have hne : call.committed.isEmpty = false := by
      rw [List.isEmpty_eq_false_iff, Ne, committed_eq_nil_iff]
      obtain ⟨c', r, hr⟩ := hsome
      exact fun h => h c' r hr
    obtain ⟨-, hc⟩ := eq_of_mem_chunks call.size_pos (mem_chunks_of_ended he)
    have hoffset : c.offset = c.index * call.size := congrArg Chunk.offset hc
    rw [ha, failedAt, hne]
    refine ⟨_, rfl, rfl, rfl, ?_, rfl, rfl⟩
    rw [← Int.natCast_mul, ← hoffset]
    rfl
  · obtain ⟨hret, hbegun⟩ := returned_of_alone hlimit he
    exact ⟨hret, hbegun, committed_of_alone hlimit he⟩

/-- The first of two chunks is written, the second one is not. -/
theorem failure_report_slowly :
    let outcome : Nat → Except Failure Reported := fun k =>
      if k = 0 then .ok [] else .error (.fault .notImplemented)
    ∃ e, (slowly 0 outcome).answer = .error (.chained e (.fault .notImplemented)) ∧
      Fields.get? e.details "chunk_index" = some (.int 1) ∧
      Fields.get? e.details "committed_ids" =
        some (.list ([10, 20].map fun n => .text (Number.natText n))) := by
  intro outcome
  have hin := inFlight_slowly 0 outcome
  have hmem : ∀ k : Nat, k * 2 < 3 →
      ⟨k, k * 2, ([10, 20, 30].drop (k * 2)).take 2⟩ ∈ (slowly 0 outcome).chunks := fun k hk =>
    List.mem_of_getElem? ((getElem?_chunks (by decide) _ k).trans (if_pos hk))
  have herror : ∀ c f, .ended c (.error f) ∈ (slowly 0 outcome).history →
      c.index = 1 ∧ f = .fault .notImplemented := fun c f h => by
    have hc : c.index * 2 < 3 := (eq_of_mem_chunks (by decide) (mem_chunks_of_ended h)).1
    have ho : .error f = outcome c.index := ended_slowly h
    by_cases hzero : c.index = 0
    · simp [outcome, hzero] at ho
    · simp only [outcome, if_neg hzero, Except.error.injEq] at ho
      exact ⟨by omega, ho⟩
  have hfail : ∃ c f, .ended c (.error f) ∈ (slowly 0 outcome).history := by
    by_contra hn
    have hbegun := begun_of_unfailed hin fun c f h => hn ⟨c, f, h⟩
    obtain ⟨r, hr⟩ := exists_ended hin (hbegun ▸ hmem 1 (by decide))
    obtain rfl : r = .error (.fault .notImplemented) := ended_slowly hr
    exact hn ⟨_, _, hr⟩
  obtain ⟨c, f, he, -, -, hchained, hlimit⟩ := failure_report (slowly 0 outcome)
    (fun c f h => by rw [(herror c f h).2]; rfl) hfail
  obtain ⟨hi, rfl⟩ := herror c f he
  obtain ⟨hret, -, hcommitted⟩ := hlimit rfl
  obtain ⟨r, hr⟩ := (hret _).2 ⟨hmem 0 (by decide), by rw [hi]; decide⟩
  obtain ⟨e, ha, -, hindex, -, -, hids⟩ := hchained ⟨_, r, hr⟩
  refine ⟨e, ha, ?_, ?_⟩
  · rw [hindex, hi]
    rfl
  · rw [hids, hcommitted, hi]
    rfl

end Call

end VectorStore.Batch
