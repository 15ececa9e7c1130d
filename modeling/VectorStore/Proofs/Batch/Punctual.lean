/-
  Batched writes that keep their deadline.

  * `paces_worker`: a worker paces if the writer of chunks does;
  * `Apart`: no two waits of workers that go on side by side are over at the same moment;
  * `punctual_upsert`: so a batched write keeps its deadline, with any number of workers.
-/
import VectorStore.Batch.Upsert
import VectorStore.Proofs.Task.Apart
import VectorStore.Proofs.Task.Punctual

namespace VectorStore.Batch

open VectorStore.Task (Deadline Punctual)

variable {σ ε α ρ : Type} [Clocked σ] {write : Chunk α → Task σ ε ρ} {halts : ε → Bool}

theorem paces_worker (hw : ∀ c s, (write c).Paces s)
    {pause : Task (σ × Dispatch α (Except ε ρ)) Empty Unit} (hp : ∀ p, pause.Paces p) (most : Nat)
    (p : σ × Dispatch α (Except ε ρ)) : (worker write halts pause most).Paces p := by
  induction most generalizing p with
  | zero => trivial
  | succ most ih =>
    rw [worker, Task.Paces]
    dsimp only
    split
    · trivial
    · next c d hnext =>
      refine ⟨rfl, (hw c p.1).onFirst d |>.attempt.andThen fun outcome p => ?_⟩
      exact ⟨rfl, (hp _).andThen fun _ p => ih p⟩

/-- No two waits of workers side by side are over at the same moment. -/
def Apart (write : Chunk α → Task σ Failure Reported) (records : List α) (size concurrency : Value)
    (s : σ) : Prop :=
  ∀ n limit, positive? size = some n → positive? concurrency = some limit → 1 < limit →
    let cs := chunks n records
    1 < cs.length →
      Task.StartApart Failure
        (List.replicate (min limit cs.length) (worker write (!·.isCancellation) .turn cs.length))
        (s, Dispatch.start limit cs)

variable [LawfulClock σ]

theorem punctual_writeAll {d : Deadline ε} {apart : Prop} {limit : Nat} {cs : List (Chunk α)}
    {s : σ} (hd : 0 ≤ d.time) (hs : 0 ≤ Clocked.clock s) (hw : ∀ c s, (write c).Paces s)
    (hstep : 1 < limit → apart → Task.StartApart ε
      (List.replicate (min limit cs.length) (worker write halts .turn cs.length))
      (s, Dispatch.start limit cs)) :
    Punctual (· = ·) d apart (writeAll limit (some d) write halts cs)
      (writeAll limit none write halts cs) s := by
  have hstart : 0 ≤ Clocked.clock (s, (Dispatch.start limit cs : Dispatch α (Except ε ρ))) := hs
  have hwork : Punctual (· = ·) d apart
      (if limit ≤ 1 then writeInOrder (some d) write halts cs
        else writeSideBySide limit (some d) write halts cs)
      (if limit ≤ 1 then writeInOrder none write halts cs
        else writeSideBySide limit none write halts cs) (s, Dispatch.start limit cs) := by
    split
    · have hone : (worker write halts (.ret ()) cs.length).Paces (s, Dispatch.start limit cs) :=
        paces_worker hw (Task.paces_ret ()) cs.length _
      exact Task.punctual_within apart hd hone.certain hstart
    · next hlimit =>
      have hlanes : ∀ t ∈ List.replicate (min limit cs.length) (worker write halts .turn cs.length),
          ∀ p, t.Paces p := by
        intro t ht
        rw [List.eq_of_mem_replicate ht]
        exact paces_worker hw Task.paces_turn cs.length
      exact (Task.punctual_sideBySide hd hlanes hstart).mono (hstep (by omega))
  refine hwork.withLocal.andThen (fun _ => Task.quiet_done _) (fun _ => Task.quiet_done _)
    (fun _ _ h => h) ?_
  rintro - a s₁ _ - - rfl
  exact ⟨rfl, rfl⟩

/-- **A batched write keeps its deadline.** -/
theorem punctual_upsert {write : Chunk α → Task σ Failure Reported} {warn : String → σ → σ}
    {d : Deadline Failure} {s : σ} (hd : 0 ≤ d.time) (hs : 0 ≤ Clocked.clock s)
    (hw : ∀ c s, (write c).Paces s) (hwarn : ∀ m s, Clocked.clock (warn m s) = Clocked.clock s)
    (idOf : α → String) (records : List α) (size concurrency : Value) :
    Punctual (· = ·) d (Apart write records size concurrency s)
      (upsert idOf write warn (some d) records size concurrency)
      (upsert idOf write warn none records size concurrency) s := by
  unfold upsert
  rcases hlimit : positive? concurrency with _ | limit
  · exact Task.punctual_of_quiet d _ rfl (Task.quiet_done _ s)
  rcases hsize : positive? size with _ | n
  · exact Task.punctual_of_quiet d _ rfl (Task.quiet_done _ s)
  dsimp only
  generalize halone : (limit == 1 || decide ((chunks n records).length ≤ 1)) = alone
  refine (punctual_writeAll hd hs hw ?apart).andThen ?quiet ?quiet (fun _ _ h => h) ?same
  case apart =>
    intro hmany hstep
    cases alone with
    | true => exact absurd hmany (lt_irrefl 1)
    | false =>
      simp only [Bool.or_eq_false_iff, decide_eq_false_iff_not, not_le] at halone
      exact hstep n limit hsize hlimit hmany halone.2
  case quiet =>
    intro o s
    split
    · exact Task.quiet_done _ s
    · split
      · exact Task.quiet_done _ s
      · exact (Task.quiet_modify (hwarn _) s).andThen fun _ s _ => Task.quiet_done _ s
  case same =>
    rintro - o s₁ _ - - rfl
    exact ⟨rfl, rfl⟩

omit [LawfulClock σ] in
/-- How a write side by side ends that is concluded to have failed. -/
theorem run_upsert_sideBySide {write : Chunk α → Task σ Failure Reported} {warn : String → σ → σ}
    {deadline : Option (Deadline Failure)} {records : List α} {size concurrency : Value}
    {n limit : Nat} {idOf : α → String} {s s' : σ} {d : Dispatch α (Except Failure Reported)}
    {f : Failure} (hsize : positive? size = some n)
    (hconcurrency : positive? concurrency = some limit) (hlimit : 1 < limit)
    (hmany : 1 < (chunks n records).length)
    (hrun : (writeSideBySide limit deadline write (!·.isCancellation) (chunks n records)).run
      (s, Dispatch.start limit (chunks n records)) = (.ok (), s', d))
    (hf : conclude idOf records (chunks n records) d = .error f) :
    (upsert idOf write warn deadline records size concurrency).run s =
      (.error (gathered f), s') := by
  have halone : (limit == 1 || decide ((chunks n records).length ≤ 1)) = false := by
    simp only [Bool.or_eq_false_iff, beq_eq_false_iff_ne, decide_eq_false_iff_not]
    omega
  have hall : (writeAll limit deadline write (!·.isCancellation) (chunks n records)).run s =
      (.ok d, s') := by
    rw [writeAll, Task.run_andThen, Task.run_withLocal, if_neg (by omega), hrun]
    rfl
  rw [upsert, hconcurrency, hsize]
  dsimp only
  simp only [halone, Bool.false_eq_true, if_false, Bool.false_or]
  rw [Task.run_andThen, hall]
  dsimp only
  rw [hf]
  rfl

end VectorStore.Batch
