/-
  Batched writes whose writers end at once.

  Where no writer waits, a chunk that is begun has ended before anything else happens.

  * `inTurn` writes chunks one after another up to an outcome that stops the write;
  * `run_writeAll_atOnce`: however many chunks may be written at a time, and whether there is a
    deadline or not, the chunks end in this order with these outcomes, and the state is the one
    that is left by this;
  * `run_upsert_written`, `run_upsert_stopped`: what a batched write returns if all chunks are
    written without a report, or fails with if one is not.
-/
import VectorStore.Proofs.Batch.Calls
import VectorStore.Proofs.Batch.Placement
import VectorStore.Proofs.Task.AtOnce

namespace VectorStore.Batch

open VectorStore.Task (AtOnce)

variable {σ ε α ρ : Type}

/-! ## One after another -/

/-- The chunks that are written, one after another, up to an outcome that stops the write, with
    their outcomes, and the state that they leave; `effect` is what the writer of a chunk does. -/
def inTurn (effect : Chunk α → σ → Except ε ρ × σ) (stop : Except ε ρ → Bool) :
    List (Chunk α) → σ → List (Chunk α × Except ε ρ) × σ
  | [], s => ([], s)
  | c :: cs, s =>
    let r := effect c s
    if stop r.1 then ([(c, r.1)], r.2)
    else
      let rest := inTurn effect stop cs r.2
      ((c, r.1) :: rest.1, rest.2)

/-! ## Workers -/

/-- The chunks that may still be begun. -/
def Dispatch.left (d : Dispatch α ρ) : List (Chunk α) := if d.aborted then [] else d.pending

variable (effect : Chunk α → σ → Except ε ρ × σ) (halts : ε → Bool)

/-- Where the write will end from a state between two chunks: the outcomes of all chunks, and
    the state. -/
def outlook (p : σ × Dispatch α (Except ε ρ)) : List (Chunk α × Except ε ρ) × σ :=
  let rest := inTurn effect (stops halts) p.2.left p.1
  (p.2.ended ++ rest.1, rest.2)

/-- The state after the next chunk, if there is one that may be begun. -/
def afterNext (p : σ × Dispatch α (Except ε ρ)) : Option (σ × Dispatch α (Except ε ρ)) :=
  p.2.next?.map fun (c, d) =>
    let r := effect c p.1
    (r.2, d.finish c r.1 (stops halts r.1))

/-- A state between two chunks: none is being written, and one may be. -/
structure Idle (p : σ × Dispatch α (Except ε ρ)) : Prop where
  flying : p.2.flying = []
  limit : 0 < p.2.limit

variable {effect halts} {p q : σ × Dispatch α (Except ε ρ)}

theorem Idle.left_of_none (hp : Idle p) (h : afterNext effect halts p = none) :
    p.2.left = [] := by
  rw [Dispatch.left]
  rcases Dispatch.next?_eq_none (Option.map_eq_none_iff.1 h) with h | h | h
  · rw [h, ite_self]
  · rw [h, if_pos rfl]
  · rw [hp.flying] at h
    exact absurd h (Nat.not_le.2 hp.limit)

/-- **Writing the next chunk keeps the outlook**, and leaves less to be written. -/
theorem Idle.next (hp : Idle p) (h : afterNext effect halts p = some q) :
    Idle q ∧ outlook effect halts q = outlook effect halts p ∧
      q.2.left.length + 1 ≤ p.2.left.length := by
  obtain ⟨⟨c, d⟩, hn, rfl⟩ := Option.map_eq_some_iff.1 h
  obtain ⟨hpend, ha, -, hd⟩ := Dispatch.next?_eq_some hn
  have hleft : p.2.left = c :: d.pending := by
    rw [Dispatch.left, ha, hpend]
    rfl
  have hda : d.aborted = false := by rw [hd, ha]
  have hde : d.ended = p.2.ended := by rw [hd]
  have hdf : d.flying = [c] := by rw [hd, hp.flying]; rfl
  have hafter (r : Except ε ρ) (halt : Bool) :
      (d.finish c r halt).left = if halt then [] else d.pending := by
    rw [Dispatch.left, Dispatch.finish, hda, Bool.false_or]
  refine ⟨⟨by simp [Dispatch.finish, hdf], ?_⟩, ?_, ?_⟩
  · rw [hd]
    exact hp.limit
  · rw [outlook, outlook, hleft, inTurn, hafter]
    cases hs : stops halts (effect c p.1).1 <;> simp [inTurn, Dispatch.finish, hde]
  · rw [hafter, hleft, List.length_cons]
    split
    · exact Nat.succ_le_succ (Nat.zero_le _)
    · exact Nat.le_refl _

theorem outlook_of_left (h : p.2.left = []) : outlook effect halts p = (p.2.ended, p.1) := by
  simp [outlook, h, inTurn]

variable {write : Chunk α → Task σ ε ρ}
  (hw : ∀ c s, AtOnce (write c) s (effect c s).1 (effect c s).2)
include hw

/-- A turn of a worker from a state between two chunks. -/
theorem advance_worker {pause : Task (σ × Dispatch α (Except ε ρ)) Empty Unit} (most : Nat)
    (p : σ × Dispatch α (Except ε ρ)) :
    (worker write halts pause (most + 1)).advance p =
      match afterNext effect halts p with
      | none => (p, .ret ())
      | some q => (pause.andThen fun _ => worker write halts pause most).advance q := by
  obtain ⟨s, d⟩ := p
  rw [worker_succ, Task.advance, afterNext]
  rcases d.next? with _ | ⟨c, d'⟩
  · rfl
  · have hc : AtOnce ((write c).onFirst.attempt : Task (σ × Dispatch α (Except ε ρ)) Empty _)
        (s, d') (.ok (effect c s).1) ((effect c s).2, d') := ((hw c s).onFirst d').attempt
    show ((write c).onFirst.attempt.andThen _).advance (s, d') = _
    rw [Task.advance_andThen, hc]
    rfl

/-- One worker alone writes all that may be written. -/
theorem atOnce_worker (most : Nat) (hp : Idle p) (hmost : p.2.left.length ≤ most) :
    ∃ d, AtOnce (worker write halts (.ret ()) most) p (.ok ())
        ((outlook effect halts p).2, d) ∧ d.ended = (outlook effect halts p).1 := by
  induction most generalizing p with
  | zero =>
    rw [outlook_of_left (List.length_eq_zero_iff.1 (Nat.le_zero.1 hmost))]
    exact ⟨p.2, rfl, rfl⟩
  | succ most ih =>
    unfold AtOnce
    rw [advance_worker hw]
    rcases hn : afterNext effect halts p with _ | q
    · rw [outlook_of_left (hp.left_of_none hn)]
      exact ⟨p.2, rfl, rfl⟩
    · obtain ⟨hq, ho, hlen⟩ := hp.next hn
      rw [← ho]
      exact ih hq (by omega)

/-- A worker at rest: it waits for its turn or has ended since nothing is left. -/
inductive Resting (write : Chunk α → Task σ ε ρ) (halts : ε → Bool)
    (d : Dispatch α (Except ε ρ)) : Task.Lane (σ × Dispatch α (Except ε ρ)) → Prop
  | waiting {most : Nat} : d.left.length ≤ most → Resting write halts d
      (.wait (.holds fun _ => true) id (worker write halts .turn most))
  | ended : d.left = [] → Resting write halts d (.done (.ok ()))

omit hw in
theorem Resting.mono {d d' : Dispatch α (Except ε ρ)}
    {t : Task.Lane (σ × Dispatch α (Except ε ρ))} (h : Resting write halts d t)
    (hle : d'.left.length ≤ d.left.length) : Resting write halts d' t := by
  cases h with
  | waiting hmost => exact .waiting (Nat.le_trans hle hmost)
  | ended hleft =>
    rw [hleft] at hle
    exact .ended (List.length_eq_zero_iff.1 (Nat.le_zero.1 hle))

/-- A turn of a worker at rest: it rests again, with the outlook as it was. -/
theorem resting_turn (hp : Idle p) {most : Nat} (hmost : p.2.left.length ≤ most) :
    ∃ q rest, (worker write halts .turn most).advance p = (q, rest) ∧
      Resting write halts q.2 rest ∧ Idle q ∧
      outlook effect halts q = outlook effect halts p ∧
      q.2.left.length ≤ p.2.left.length := by
  cases most with
  | zero =>
    have hleft := List.length_eq_zero_iff.1 (Nat.le_zero.1 hmost)
    exact ⟨p, _, rfl, .ended hleft, hp, rfl, Nat.le_refl _⟩
  | succ most =>
    rw [advance_worker hw]
    rcases hn : afterNext effect halts p with _ | q
    · exact ⟨p, _, rfl, .ended (hp.left_of_none hn), hp, rfl, Nat.le_refl _⟩
    · obtain ⟨hq, ho, hlen⟩ := hp.next hn
      exact ⟨q, _, rfl, .waiting (by omega), hq, ho, by omega⟩

/-- All workers are at rest, at most `most` chunks may still be begun, and the write will end as
    it is to end. -/
structure AllResting (write : Chunk α → Task σ ε ρ) (effect : Chunk α → σ → Except ε ρ × σ)
    (halts : ε → Bool) (most : Nat) (goal : List (Chunk α × Except ε ρ) × σ)
    (lanes : List (Task.Lane (σ × Dispatch α (Except ε ρ))))
    (p : σ × Dispatch α (Except ε ρ)) : Prop where
  idle : Idle p
  outlook_eq : outlook effect halts p = goal
  left_le : p.2.left.length ≤ most
  resting : ∀ t ∈ lanes, Resting write halts p.2 t

/-- Turns of the workers keep this. -/
theorem keptByTurns_allResting (most : Nat) (goal : List (Chunk α × Except ε ρ) × σ) :
    Task.KeptByTurns (AllResting write effect halts most goal) where
  takesTurns h t ht := by
    cases h.resting t ht with
    | waiting => exact .waits
    | ended => exact .ended
  turn {lanes p i abandon next} h hi := by
    cases h.resting _ (List.mem_of_getElem? hi) with
    | waiting hmost =>
      obtain ⟨q, rest, hadv, hr, hq, ho, hle⟩ := resting_turn hw h.idle hmost
      rw [hadv]
      refine ⟨hq, ho.trans h.outlook_eq, Nat.le_trans hle h.left_le, fun t ht => ?_⟩
      rcases List.mem_or_eq_of_mem_set ht with ht | rfl
      · exact (h.resting t ht).mono hle
      · exact hr

/-- **Where no writer waits, chunks are written one after another**, however many may be
    written at a time, with a deadline or without. -/
theorem run_writeAll_atOnce [Clocked σ] {limit : Nat} (hlimit : 0 < limit) (halts : ε → Bool)
    (deadline : Option (Task.Deadline ε)) (cs : List (Chunk α)) (s : σ) :
    ∃ d, (writeAll limit deadline write halts cs).run s =
        (.ok d, (inTurn effect (stops halts) cs s).2) ∧
      d.ended = (inTurn effect (stops halts) cs s).1 := by
  let p : σ × Dispatch α (Except ε ρ) := (s, Dispatch.start limit cs)
  have hp : Idle p := ⟨rfl, hlimit⟩
  have ho : outlook effect halts p = inTurn effect (stops halts) cs s := rfl
  rw [← ho, writeAll, Task.run_andThen, Task.run_withLocal]
  split_ifs with hone
  · obtain ⟨d, hd, hended⟩ := atOnce_worker hw cs.length hp (Nat.le_refl _)
    have hrun := (hd.certain.bounded deadline).run
    refine ⟨d, ?_, hended⟩
    rw [writeInOrder, hrun]
    rfl
  · have hstart : ∀ t ∈ (List.replicate (min limit cs.length)
        (worker write halts .turn cs.length)).map fun t => .wait (.holds fun _ => true) id t,
        Resting write halts p.2 t := by
      intro t ht
      rw [List.map_replicate] at ht
      obtain ⟨-, rfl⟩ := List.mem_replicate.1 ht
      exact .waiting (Nat.le_refl _)
    obtain ⟨lanes, q, h, hended, hlen, hrun⟩ :=
      Task.run_sideBySide_turns (keptByTurns_allResting hw cs.length _) deadline
        (List.replicate (min limit cs.length) (worker write halts .turn cs.length)) p
        ⟨hp, rfl, Nat.le_refl _, hstart⟩
    have hleft : q.2.left = [] := by
      cases lanes with
      | nil =>
        -- without workers there are no chunks
        have hcs : cs.length = 0 := by simp at hlen; omega
        exact List.length_eq_zero_iff.1 (Nat.le_zero.1 (hcs ▸ h.left_le))
      | cons t lanes =>
        have ht := hended t (List.mem_cons_self ..)
        cases h.resting t (List.mem_cons_self ..) with
        | waiting => cases ht
        | ended hl => exact hl
    have hgoal := h.outlook_eq
    rw [outlook_of_left hleft] at hgoal
    refine ⟨q.2, ?_, congrArg Prod.fst hgoal⟩
    rw [writeSideBySide, hrun, ← hgoal]
    rfl

omit hw

/-! ## Conclusions -/

variable {d : Dispatch α (Except Failure Reported)} {cs : List (Chunk α)}

theorem outcome?_of_mem (hn : (d.ended.map (·.1.index)).Nodup) {c : Chunk α}
    {r : Except Failure Reported} (h : (c, r) ∈ d.ended) : d.outcome? c = some r := by
  have hsome : (d.ended.find? (·.1.index == c.index)).isSome :=
    List.find?_isSome.2 ⟨_, h, beq_self_eq_true c.index⟩
  obtain ⟨e, he⟩ := Option.isSome_iff_exists.1 hsome
  have hi := List.find?_some he
  have heq := List.inj_on_of_nodup_map hn (List.mem_of_find?_eq_some he) h (beq_iff_eq.1 hi)
  rw [Dispatch.outcome?, he, heq]
  rfl

theorem outcome?_of_notMem {c : Chunk α} (h : c.index ∉ d.ended.map (·.1.index)) :
    d.outcome? c = none := by
  rw [Dispatch.outcome?, Option.map_eq_none_iff, List.find?_eq_none]
  exact fun e he hi => h (beq_iff_eq.1 hi ▸ List.mem_map_of_mem he)

/-- Nothing becomes of nothing that is reported. -/
theorem placeAll_nothing (cs : List (Chunk α)) : placeAll (fun _ => []) cs = .ok [] := by
  have hplaced : ∃ entries, placeAll (fun _ => []) cs = .ok entries :=
    placeAll_succeeds.2 fun c _ item hi => nomatch hi
  obtain ⟨entries, he⟩ := hplaced
  obtain ⟨perChunk, hf, rfl⟩ := placeAll_eq_ok he
  have hnil : ∀ es ∈ perChunk, es = [] := fun es hes => by
    obtain ⟨i, hi, rfl⟩ := List.mem_iff_getElem.1 hes
    exact List.forall₂_nil_left_iff.1 (hf.get (hf.length_eq ▸ hi) hi)
  rw [he, List.flatten_eq_nil_iff.2 hnil]

/-- All chunks were written, and nothing was reported. -/
theorem conclude_written (idOf : α → String) (records : List α)
    (hcs : (cs.map (·.index)).Nodup) (hd : d.ended = cs.map fun c => (c, .ok [])) :
    conclude idOf records cs d = .ok ⟨records.map idOf, [], cs.length⟩ := by
  have hn : (d.ended.map (·.1.index)).Nodup := by
    rw [hd, List.map_map]
    exact hcs
  have hout : ∀ c ∈ cs, d.outcome? c = some (.ok []) := fun c hc =>
    outcome?_of_mem hn (hd ▸ List.mem_map_of_mem hc)
  have hcan : firstCancelled d cs = none := List.findSome?_eq_none_iff.2 fun c hc => by
    rw [failureOf, hout c hc]
    rfl
  have hfail : firstFailed d cs = none := List.findSome?_eq_none_iff.2 fun c hc => by
    rw [failureOf, hout c hc]
    rfl
  have hrep : ∀ c ∈ cs, reportOf d c = some ((fun _ => []) c) := fun c hc => by
    rw [reportOf, hout c hc]
  rw [conclude, hcan, hfail]
  simp only [allPlaced_eq hrep, placeAll_nothing]

/-- The chunks before one that failed were written, and those behind it were never begun. -/
theorem conclude_stopped (idOf : α → String) (records : List α) {good rest : List (Chunk α)}
    {bad : Chunk α} {f : Failure} (hcs : cs = good ++ bad :: rest)
    (hnodup : (cs.map (·.index)).Nodup) (hf : f.isCancellation = false)
    (hd : d.ended = (good.map fun c => (c, .ok [])) ++ [(bad, .error f)]) :
    conclude idOf records cs d =
      .error (failedAt bad f (good.flatMap fun c => c.records.map idOf)) := by
  subst hcs
  have hended : d.ended.map (·.1.index) = good.map (·.index) ++ [bad.index] := by
    rw [hd]
    simp
  rw [List.append_cons, List.map_append, List.map_append, List.map_singleton, ← hended] at hnodup
  obtain ⟨hn, -, hrest⟩ := List.nodup_append.1 hnodup
  have hgood : ∀ c ∈ good, d.outcome? c = some (.ok []) := fun c hc =>
    outcome?_of_mem hn (hd ▸ List.mem_append_left _ (List.mem_map_of_mem hc))
  have hbad : d.outcome? bad = some (.error f) := outcome?_of_mem hn (by rw [hd]; simp)
  have hnone : ∀ c ∈ rest, d.outcome? c = none := fun c hc =>
    outcome?_of_notMem fun hm => hrest _ hm _ (List.mem_map_of_mem hc) rfl
  have hcan : firstCancelled d (good ++ bad :: rest) = none :=
    List.findSome?_eq_none_iff.2 fun c hc => by
      rw [failureOf]
      rcases List.mem_append.1 hc with hc | hc
      · rw [hgood c hc]; rfl
      rcases List.mem_cons.1 hc with rfl | hc
      · rw [hbad, Option.filter_some, hf]; rfl
      · rw [hnone c hc]; rfl
  have hfail : firstFailed d (good ++ bad :: rest) = some (bad, f) := by
    have hbefore : good.findSome? (fun c => (failureOf d c).map fun f => (c, f)) = none :=
      List.findSome?_eq_none_iff.2 fun c hc => by rw [failureOf, hgood c hc]; rfl
    rw [firstFailed, List.findSome?_append, hbefore, Option.none_or, List.findSome?_cons,
      failureOf, hbad]
    rfl
  have hids : committedIds idOf d (good ++ bad :: rest) =
      good.flatMap fun c => c.records.map idOf := by
    have hkept : good.filter (fun c => (reportOf d c).isSome) = good :=
      List.filter_eq_self.2 fun c hc => by rw [reportOf, hgood c hc]; rfl
    have hdropped : (bad :: rest).filter (fun c => (reportOf d c).isSome) = [] :=
      List.filter_eq_nil_iff.2 fun c hc => by
        rcases List.mem_cons.1 hc with rfl | hc
        · rw [reportOf, hbad]; simp
        · rw [reportOf, hnone c hc]; simp
    rw [committedIds, List.filter_append, hkept, hdropped, List.append_nil]
  rw [conclude, hcan, hfail, hids]

/-! ## Batched writes -/

theorem isCancellation_failedAt {c : Chunk α} {f : Failure} (hf : f.isCancellation = false)
    (committed : List String) : (failedAt c f committed).isCancellation = false := by
  rw [failedAt]
  split
  · exact hf
  · rfl

/-- A conclusion that a batched write returns as it is: no item was refused, no writer was
    cancelled. -/
def Plain : Except Failure Outcome → Prop
  | .ok o => o.failures.isEmpty = true
  | .error f => f.isCancellation = false

variable [Clocked σ] {write : Chunk α → Task σ Failure Reported}
  {effect : Chunk α → σ → Except Failure Reported × σ} {idOf : α → String}
  {warn : String → σ → σ} {size limit : Nat} {records : List α} {s s' : σ}

/-- **A batched write concludes from what was written one after another.** -/
theorem run_upsert_atOnce (hw : ∀ c s, AtOnce (write c) s (effect c s).1 (effect c s).2)
    (hsize : 0 < size) (hlimit : 0 < limit) (idOf : α → String) (warn : String → σ → σ)
    (deadline : Option (Task.Deadline Failure)) (records : List α) (s : σ) :
    ∃ (halts : Failure → Bool) (d : Dispatch α (Except Failure Reported)),
      (∀ f, f.isCancellation = false → halts f = true) ∧
      d.ended = (inTurn effect (stops halts) (chunks size records) s).1 ∧
      ∀ r, conclude idOf records (chunks size records) d = r → Plain r →
        (upsert idOf write warn deadline records (.int size) (.int limit)).run s =
          (r, (inTurn effect (stops halts) (chunks size records) s).2) := by
  let cs := chunks size records
  let alone := limit == 1 || cs.length ≤ 1
  let halts : Failure → Bool := fun f => alone || !f.isCancellation
  have hwidth : 0 < if alone then 1 else limit := by
    split
    · exact Nat.one_pos
    · exact hlimit
  obtain ⟨d, hrun, hended⟩ := run_writeAll_atOnce hw hwidth halts deadline cs s
  refine ⟨halts, d, fun f hf => by simp [halts, hf], hended, fun r hr hplain => ?_⟩
  rw [upsert, Call.positive_natCast hlimit, Call.positive_natCast hsize]
  show Task.run (Task.andThen (writeAll _ deadline write halts cs) _) s = _
  rw [Task.run_andThen, hrun]
  cases r with
  | error f =>
    have hg : (if alone then f else gathered f) = f := by
      rw [gathered, show f.isCancellation = false from hplain]
      exact ite_self f
    simp only [hr]
    exact congrArg (fun g => (Except.error g, _)) hg
  | ok o =>
    have hnone : o.failures.isEmpty = true := hplain
    simp only [hr, hnone]
    rfl

/-- If all chunks are written and nothing is reported, a batched write returns the ids of all
    records. -/
theorem run_upsert_written (hw : ∀ c s, AtOnce (write c) s (effect c s).1 (effect c s).2)
    (hsize : 0 < size) (hlimit : 0 < limit) (deadline : Option (Task.Deadline Failure))
    (h : ∀ halts, inTurn effect (stops halts) (chunks size records) s =
      ((chunks size records).map fun c => (c, .ok []), s')) :
    (upsert idOf write warn deadline records (.int size) (.int limit)).run s =
      (.ok ⟨records.map idOf, [], (chunks size records).length⟩, s') := by
  obtain ⟨halts, d, -, hd, hrun⟩ := run_upsert_atOnce hw hsize hlimit idOf warn deadline
    records s
  rw [h halts] at hd hrun
  exact hrun _ (conclude_written idOf records (nodup_chunks hsize records) hd) rfl

/-- If a chunk fails, a batched write fails with its failure, and with the ids of the records
    before it. -/
theorem run_upsert_stopped (hw : ∀ c s, AtOnce (write c) s (effect c s).1 (effect c s).2)
    (hsize : 0 < size) (hlimit : 0 < limit) (deadline : Option (Task.Deadline Failure))
    {good rest : List (Chunk α)} {bad : Chunk α} {f : Failure}
    (hcs : chunks size records = good ++ bad :: rest) (hf : f.isCancellation = false)
    (h : ∀ halts, halts f = true → inTurn effect (stops halts) (chunks size records) s =
      ((good.map fun c => (c, .ok [])) ++ [(bad, .error f)], s')) :
    (upsert idOf write warn deadline records (.int size) (.int limit)).run s =
      (.error (failedAt bad f (good.flatMap fun c => c.records.map idOf)), s') := by
  obtain ⟨halts, d, hhalts, hd, hrun⟩ := run_upsert_atOnce hw hsize hlimit idOf warn deadline
    records s
  rw [h halts (hhalts f hf)] at hd hrun
  exact hrun _ (conclude_stopped idOf records hcs (nodup_chunks hsize records) hf hd)
    (isCancellation_failedAt hf _)

end VectorStore.Batch
