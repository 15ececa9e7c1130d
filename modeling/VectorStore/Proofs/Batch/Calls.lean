/-
  Batched writes, with what happens during them.

  A `Call` is a batched write of some records from some state; `answer` is what it returns or
  fails with, `history` what its writers do meanwhile.

  * `Call.run_recorded`: noting the history changes nothing of the call;
  * `Call.follows`: the history leads the dispatch of the call to a state from which the answer
    is concluded;
  * `Call.begun_of_unfailed`, `Call.exists_ended`: unless a writer fails every chunk is begun,
    and unless one is left in flight every chunk that is begun ends; `Call.inFlight_of_timed`:
    where writers wait for nothing but time, none is.
-/
import VectorStore.Proofs.Batch.Pieces
import VectorStore.Proofs.Batch.Writers
import VectorStore.Store.Session

namespace VectorStore.Batch

/-- A batched write of records in chunks of `size`, at most `limit` at a time.  The writer of a
    chunk is any task: it may take any time, wait for others, and return or fail. -/
structure Call (σ α : Type) where
  idOf : α → String
  write : Chunk α → Task σ Failure Reported
  warn : String → σ → σ
  records : List α
  size : Nat
  limit : Nat
  state : σ
  size_pos : 0 < size
  limit_pos : 0 < limit

namespace Call

variable {σ α : Type} (call : Call σ α)

/-- The chunks of the call. -/
def chunks : List (Chunk α) := Batch.chunks call.size call.records

/-- Whether chunks are written one after another. -/
def alone : Bool := call.limit == 1 || call.chunks.length ≤ 1

/-- How many chunks are written at a time. -/
def width : Nat := if call.alone then 1 else call.limit

/-- The failures that stop the call. -/
def halts (f : Failure) : Bool := call.alone || !f.isCancellation

theorem nodup_chunks : (call.chunks.map (·.index)).Nodup :=
  Batch.nodup_chunks call.size_pos call.records

theorem pairwise_chunks : call.chunks.Pairwise fun c c' => c.index < c'.index :=
  Batch.pairwise_chunks call.size_pos call.records

theorem width_pos : 0 < call.width := by
  rw [width]
  split
  · exact Nat.one_pos
  · exact call.limit_pos

theorem width_le : call.width ≤ call.limit := by
  rw [width]
  split
  · exact call.limit_pos
  · exact Nat.le_refl _

theorem positive_natCast {n : Nat} (h : 0 < n) : positive? (.int n) = some n := by
  simp [positive?, h]

/-- What the call concludes from the state of its dispatch in the end. -/
def concluded (d : Dispatch α (Except Failure Reported)) : Except Failure Outcome :=
  match conclude call.idOf call.records call.chunks d with
  | .error f => .error (if call.alone then f else gathered f)
  | .ok outcome => .ok outcome

theorem failureOf_of_concluded {call : Call σ α} {d : Dispatch α (Except Failure Reported)}
    {o : Outcome} (h : call.concluded d = .ok o) {c : Chunk α} (hc : c ∈ call.chunks) :
    failureOf d c = none := by
  rw [concluded, conclude] at h
  cases hcan : firstCancelled d call.chunks with
  | some f => simp [hcan] at h
  | none =>
    cases hfail : firstFailed d call.chunks with
    | some e => simp [hcan, hfail] at h
    | none => simpa using List.findSome?_eq_none_iff.1 hfail c hc

theorem upsert_eq {τ : Type} [Clocked τ] (write : Chunk α → Task τ Failure Reported)
    (warn : String → τ → τ) :
    upsert call.idOf write warn none call.records (.int call.size) (.int call.limit) =
      (writeAll call.width none write call.halts call.chunks).andThen fun d =>
        match conclude call.idOf call.records call.chunks d with
        | .error f => .fail (if call.alone then f else gathered f)
        | .ok outcome =>
          if outcome.failures.isEmpty then .ret outcome
          else (Task.modify (warn (refusedWarning outcome.failures.length))).andThen fun _ =>
            .ret outcome := by
  rw [upsert, positive_natCast call.limit_pos, positive_natCast call.size_pos]
  rfl

variable [Clocked σ]

/-- The call with writers that note what they do. -/
def recorded : Task (σ × History α (Except Failure Reported)) Failure Outcome :=
  upsert call.idOf (noted call.write) (fun message p => (call.warn message p.1, p.2)) none
    call.records (.int call.size) (.int call.limit)

/-- What the call returns or fails with. -/
def answer : Except Failure Outcome :=
  ((upsert call.idOf call.write call.warn none call.records (.int call.size)
    (.int call.limit)).run call.state).1

/-- What happens to the chunks during the call, as its writers note it. -/
def history : History α (Except Failure Reported) := (call.recorded.run (call.state, [])).2.2

/-- **Noting changes nothing of the call.** -/
theorem run_recorded (h : History α (Except Failure Reported)) :
    (upsert call.idOf call.write call.warn none call.records (.int call.size)
      (.int call.limit)).run call.state =
      Prod.map id Prod.fst (call.recorded.run (call.state, h)) := by
  rw [recorded, upsert_eq, upsert_eq, Task.run_andThen, Task.run_andThen, run_writeAll_noted]
  generalize (writeAll call.width none (noted call.write) call.halts call.chunks).run _ = r
  obtain ⟨f | d, s, h⟩ := r
  · rfl
  · simp only [Prod.map_apply, id]
    split
    · rfl
    · split <;> rfl

/-- **The history of a call leads its dispatch to a state from which the answer is
    concluded.**  What is in flight then has a blocked writer. -/
theorem follows : ∃ d, Leads call.halts call.width call.chunks call.write call.history d ∧
    (∀ c ∈ d.flying, Blocked (call.write c)) ∧ (d.flying = [] → Through d) ∧
    call.answer = call.concluded d := by
  obtain ⟨s, h, d, hrun, hf, hb, ht⟩ := run_writeAll call.width_pos call.nodup_chunks call.state
  have hrec : ∃ s', call.recorded.run (call.state, []) = (call.concluded d, s', h) := by
    rw [recorded, upsert_eq, Task.run_andThen, hrun]
    simp only [concluded]
    split
    · exact ⟨s, rfl⟩
    · split
      · exact ⟨s, rfl⟩
      · exact ⟨_, rfl⟩
  obtain ⟨s', hrec⟩ := hrec
  refine ⟨d, ?_, hb, ht, ?_⟩
  · rw [history, hrec]
    exact hf
  · rw [answer, call.run_recorded [], hrec]
    rfl

/-! ## Outcomes of chunks -/

variable {call} {c : Chunk α}

theorem mem_chunks_of_begun (h : c ∈ call.history.begun) : c ∈ call.chunks := by
  obtain ⟨d, hf, -⟩ := call.follows
  rw [← (hf.consistent call.nodup_chunks).begun_pending]
  exact List.mem_append_left _ h

theorem mem_chunks_of_ended {r : Except Failure Reported} (h : .ended c r ∈ call.history) :
    c ∈ call.chunks := by
  obtain ⟨d, hf, -⟩ := call.follows
  have hd := hf.consistent call.nodup_chunks
  exact mem_chunks_of_begun (hd.ended_begun _ (History.mem_endings.2 h))

/-- A writer ends as it may. -/
theorem mayEnd_of_ended {r : Except Failure Reported} (h : .ended c r ∈ call.history) :
    (call.write c).MayEnd r := by
  obtain ⟨d, hf, -⟩ := call.follows
  exact hf.outcome h

/-- Where writers wait for nothing but time, nothing is left in flight. -/
theorem inFlight_of_timed (h : ∀ c ∈ call.chunks, (call.write c).Timed) :
    call.history.inFlight = [] := by
  obtain ⟨d, hf, hb, -⟩ := call.follows
  have hd := hf.consistent call.nodup_chunks
  rw [hd.inFlight_eq]
  refine List.eq_nil_iff_forall_not_mem.2 fun c hc => ?_
  exact not_blocked_of_timed (h c (mem_chunks_of_begun (hd.begun_of_flying hc))) (hb c hc)

/-- A chunk that is begun ends unless it is left in flight. -/
theorem exists_ended (hin : call.history.inFlight = []) (hc : c ∈ call.history.begun) :
    ∃ r, .ended c r ∈ call.history := by
  have he : call.history.hasEnded c.index = true := by
    simpa using List.filter_eq_nil_iff.1 hin c hc
  obtain ⟨⟨c', r⟩, hmem, hi⟩ := List.any_eq_true.1 he
  have hr := History.mem_endings.1 hmem
  obtain rfl := List.inj_on_of_nodup_map call.nodup_chunks (mem_chunks_of_ended hr)
    (mem_chunks_of_begun hc) (beq_iff_eq.1 hi)
  exact ⟨r, hr⟩

/-- If no writer failed, every chunk is begun. -/
theorem begun_of_unfailed (hin : call.history.inFlight = [])
    (hok : ∀ c f, .ended c (.error f) ∉ call.history) : call.history.begun = call.chunks := by
  obtain ⟨d, hf, -, ht, -⟩ := call.follows
  have hd := hf.consistent call.nodup_chunks
  rw [hd.inFlight_eq] at hin
  rcases ht hin with hp | ha
  · have h := hd.begun_pending
    rwa [hp, List.append_nil] at h
  · rw [hd.aborted_eq, List.any_eq_true] at ha
    obtain ⟨⟨c, r⟩, he, hs⟩ := ha
    cases r with
    | ok => cases hs
    | error f => exact absurd (History.mem_endings.1 he) (hok c f)

/-! ## A small call -/

/-- A writer that takes a moment. -/
def slow {τ : Type} (r : Except Failure Reported) : Task τ Failure Reported :=
  .wait (.passed 1) id (.done r)

theorem timed_slow {τ : Type} (r : Except Failure Reported) :
    (slow r : Task τ Failure Reported).Timed :=
  ⟨nofun, trivial⟩

theorem mayEnd_slow {τ : Type} {r r' : Except Failure Reported}
    (h : (slow r : Task τ Failure Reported).MayEnd r') : r' = r := by
  have hr : ∀ t : Task τ Failure Reported, (slow r).Remainder t → t = slow r ∨ t = .done r := by
    intro t ht
    induction ht with
    | first s => exact .inl rfl
    | next s _ ih =>
      rcases ih with h | h <;> cases h
      exact .inr rfl
  rcases hr _ h with h | h <;> cases h
  rfl

/-- Three records in two chunks, which slow writers write, besides one as many as `others`. -/
def slowly (others : Nat) (outcome : Nat → Except Failure Reported) : Call (Session Unit) Nat where
  idOf := Number.natText
  write c := slow (outcome c.index)
  warn _ s := s
  records := [10, 20, 30]
  size := 2
  limit := others + 1
  state := Session.start () Session.takesAll
  size_pos := by decide
  limit_pos := Nat.succ_pos others

theorem ended_slowly {others : Nat} {outcome : Nat → Except Failure Reported} {c : Chunk Nat}
    {r : Except Failure Reported} (h : .ended c r ∈ (slowly others outcome).history) :
    r = outcome c.index :=
  mayEnd_slow (mayEnd_of_ended h)

theorem inFlight_slowly (others : Nat) (outcome : Nat → Except Failure Reported) :
    (slowly others outcome).history.inFlight = [] :=
  inFlight_of_timed fun c _ => timed_slow (outcome c.index)

end Call

end VectorStore.Batch
