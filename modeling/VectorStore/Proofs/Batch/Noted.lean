/-
  Writers that note what they do.

  `noted` is a writer that notes in a history when it is called and how it ended.

  * `run_writing`, `advance_writing`, `advance_noted` say how a worker with such a writer goes
    on;
  * `run_writeAll_shows`, `run_upsert_shows`: a write does what another one does if its writers
    do, as far as a view of the state sees;
  * `run_writeAll_noted`: so a write with writers that note does what it does without the notes,
    with the same result.
-/
import VectorStore.Batch.Upsert
import VectorStore.Proofs.Batch.History
import VectorStore.Proofs.Task.Views

namespace VectorStore.Batch

open VectorStore.Task (Shows Like)

variable {σ ε α ρ : Type}

/-- The rest of the writer of a chunk, its end noted. -/
def noting (c : Chunk α) (t : Task σ ε ρ) : Task (σ × History α (Except ε ρ)) ε ρ :=
  t.onFirst.attempt.andThen fun outcome =>
    .read fun p => .write (p.1, p.2 ++ [.ended c outcome]) (.ofExcept outcome)

/-- The writer of a chunk, its call and its end noted. -/
def noted (write : Chunk α → Task σ ε ρ) (c : Chunk α) : Task (σ × History α (Except ε ρ)) ε ρ :=
  .read fun p => .write (p.1, p.2 ++ [.began c]) (noting c (write c))

/-- Whether an outcome stops the write. -/
def stops (halts : ε → Bool) : Except ε ρ → Bool
  | .ok _ => false
  | .error e => halts e

/-- A state with the history so far and the dispatch. -/
abbrev Noted (σ ε α ρ : Type) :=
  (σ × History α (Except ε ρ)) × Dispatch α (Except ε ρ)

variable (halts : ε → Bool)

/-- What a worker does when the writer of a chunk has ended, before it goes on with `rest`. -/
def closing (c : Chunk α) (rest : Task (σ × Dispatch α (Except ε ρ)) Empty Unit)
    (outcome : Except ε ρ) : Task (σ × Dispatch α (Except ε ρ)) Empty Unit :=
  .read fun p => .write (p.1, p.2.finish c outcome (stops halts outcome)) rest

theorem worker_succ (write : Chunk α → Task σ ε ρ)
    (pause : Task (σ × Dispatch α (Except ε ρ)) Empty Unit) (most : Nat) :
    worker write halts pause (most + 1) = .read fun p =>
      match p.2.next? with
      | none => .ret ()
      | some (c, d) => .write (p.1, d) <| (write c).onFirst.attempt.andThen <|
        closing halts c (pause.andThen fun _ => worker write halts pause most) := by
  rfl

/-- A worker that is writing a chunk and then goes on with `rest`. -/
def writing (c : Chunk α) (rest : Task (Noted σ ε α ρ) Empty Unit) (t : Task σ ε ρ) :
    Task (Noted σ ε α ρ) Empty Unit :=
  (noting c t).onFirst.attempt.andThen (closing halts c rest)

/-! ## How workers go on -/

variable {halts}

theorem run_writing [Clocked σ] (c : Chunk α) (rest : Task (Noted σ ε α ρ) Empty Unit)
    (t : Task σ ε ρ) (s : σ) (h : History α (Except ε ρ)) (d : Dispatch α (Except ε ρ)) :
    (writing halts c rest t).run ((s, h), d) = rest.run
      (((t.run s).2, h ++ [.ended c (t.run s).1]),
        d.finish c (t.run s).1 (stops halts (t.run s).1)) := by
  rw [writing, Task.run_andThen, Task.run_attempt, Task.run_onFirst, noting, Task.run_andThen,
    Task.run_attempt, Task.run_onFirst]
  rfl

theorem advance_writing (c : Chunk α) (rest : Task (Noted σ ε α ρ) Empty Unit)
    (t : Task σ ε ρ) (s : σ) (h : History α (Except ε ρ)) (d : Dispatch α (Except ε ρ)) :
    (writing halts c rest t).advance ((s, h), d) =
      (writing halts c rest (t.advance s).2).advance (((t.advance s).1, h), d) := by
  induction t generalizing s with
  | done r => rfl
  | read next ih => exact ih s s
  | write s' next ih => exact ih s'
  | wait u abandon next => rfl

theorem advance_writing_done (c : Chunk α) (rest : Task (Noted σ ε α ρ) Empty Unit)
    (r : Except ε ρ) (s : σ) (h : History α (Except ε ρ)) (d : Dispatch α (Except ε ρ)) :
    (writing halts c rest (.done r)).advance ((s, h), d) =
      rest.advance ((s, h ++ [.ended c r]), d.finish c r (stops halts r)) := by
  rfl

theorem advance_noted (write : Chunk α → Task σ ε ρ) (c : Chunk α)
    (rest : Task (Noted σ ε α ρ) Empty Unit) (s : σ) (h : History α (Except ε ρ))
    (d : Dispatch α (Except ε ρ)) :
    ((noted write c).onFirst.attempt.andThen (closing halts c rest)).advance ((s, h), d) =
      (writing halts c rest (write c)).advance ((s, h ++ [.began c]), d) := by
  rfl

theorem run_noted [Clocked σ] (write : Chunk α → Task σ ε ρ) (c : Chunk α)
    (rest : Task (Noted σ ε α ρ) Empty Unit) (s : σ) (h : History α (Except ε ρ))
    (d : Dispatch α (Except ε ρ)) :
    ((noted write c).onFirst.attempt.andThen (closing halts c rest)).run ((s, h), d) =
      (writing halts c rest (write c)).run ((s, h ++ [.began c]), d) := by
  rfl

/-! ## Noting changes nothing -/

theorem noting_shows (c : Chunk α) (t : Task σ ε ρ) (q : σ × History α (Except ε ρ)) :
    Shows Prod.fst q (noting c t) t := by
  induction t generalizing q with
  | done r => exact ⟨rfl, .done r⟩
  | read next ih => exact ⟨(ih q.1 q).state, (ih q.1 q).rest⟩
  | write s next ih => exact ⟨(ih (s, q.2)).state, (ih (s, q.2)).rest⟩
  | wait u abandon next ih =>
    have hw : Like Prod.fst (.wait (u.comap Prod.fst) (fun p => (abandon p.1, p.2)) (noting c next))
        (.wait u abandon next) := .waiting rfl (fun _ => rfl) ih
    exact hw.shows q

theorem noted_shows (write : Chunk α → Task σ ε ρ) (c : Chunk α)
    (q : σ × History α (Except ε ρ)) : Shows Prod.fst q (noted write c) (write c) :=
  have h : Shows Prod.fst (q.1, q.2 ++ [.began c]) (noting c (write c)) (write c) :=
    noting_shows c (write c) _
  ⟨h.state, h.rest⟩

/-! ## Workers seen through a view -/

section

variable {τ : Type} {view : τ → σ} {write : Chunk α → Task τ ε ρ} {write' : Chunk α → Task σ ε ρ}

theorem closing_shows {rest : Task (τ × Dispatch α (Except ε ρ)) Empty Unit}
    {rest' : Task (σ × Dispatch α (Except ε ρ)) Empty Unit}
    (hr : ∀ p, Shows (Prod.map view id) p rest rest') (c : Chunk α) (outcome : Except ε ρ)
    (p : τ × Dispatch α (Except ε ρ)) :
    Shows (Prod.map view id) p (closing halts c rest outcome) (closing halts c rest' outcome) :=
  have h := hr (p.1, p.2.finish c outcome (stops halts outcome))
  ⟨h.state, h.rest⟩

/-- Workers do the same if their writers do. -/
theorem worker_shows (hw : ∀ c q, Shows view q (write c) (write' c))
    {pause : Task (τ × Dispatch α (Except ε ρ)) Empty Unit}
    {pause' : Task (σ × Dispatch α (Except ε ρ)) Empty Unit}
    (hp : ∀ p, Shows (Prod.map view id) p pause pause') (most : Nat)
    (p : τ × Dispatch α (Except ε ρ)) :
    Shows (Prod.map view id) p (worker write halts pause most)
      (worker write' halts pause' most) := by
  induction most generalizing p with
  | zero => exact Task.shows_ret () p
  | succ most ih =>
    obtain ⟨q, d⟩ := p
    rw [worker_succ, worker_succ]
    refine .read ?_
    simp only [Prod.map_apply, id]
    rcases d.next? with _ | ⟨c, d'⟩
    · exact Task.shows_ret () _
    · have hc := (hw c q).onFirst d'
      exact .write (hc.attempt.andThen (closing_shows (fun p => (hp p).andThen fun _ => ih) c))

variable [Clocked σ] [Clocked τ]

theorem sameClock_map (hview : Task.SameClock view) (ρ : Type) :
    Task.SameClock (Prod.map view id : τ × ρ → σ × ρ) :=
  ⟨fun p => hview.clock p.1, fun time p => Prod.ext (hview.atTime time p.1) rfl⟩

/-- **A write does the same if its writers do.** -/
theorem run_writeAll_shows (hview : Task.SameClock view)
    (hw : ∀ c q, Shows view q (write c) (write' c)) (limit : Nat)
    (deadline : Option (Task.Deadline ε)) (cs : List (Chunk α)) (q : τ) :
    (writeAll limit deadline write' halts cs).run (view q) =
      Prod.map id view ((writeAll limit deadline write halts cs).run q) := by
  rw [writeAll, writeAll, Task.run_andThen, Task.run_andThen, Task.run_withLocal,
    Task.run_withLocal]
  have hclock := sameClock_map hview (Dispatch α (Except ε ρ))
  have hwork : (if limit ≤ 1 then writeInOrder deadline write' halts cs
        else writeSideBySide limit deadline write' halts cs).run (view q, Dispatch.start limit cs) =
      Prod.map id (Prod.map view id) ((if limit ≤ 1 then writeInOrder deadline write halts cs
        else writeSideBySide limit deadline write halts cs).run (q, Dispatch.start limit cs)) := by
    split
    · have hone : Shows (Prod.map view id) (q, Dispatch.start limit cs)
          (worker write halts (.ret ()) cs.length) (worker write' halts (.ret ()) cs.length) :=
        worker_shows hw (Task.shows_ret ()) _ _
      exact (hone.certain.bounded hclock deadline).run hclock
    · refine Task.run_sideBySide_shows ?_ hclock deadline (q, Dispatch.start limit cs)
      have hone : ∀ p, Shows (Prod.map view id) p (worker write halts .turn cs.length)
          (worker write' halts .turn cs.length) :=
        worker_shows hw Task.shows_turn _
      induction min limit cs.length with
      | zero => exact .nil
      | succ n ih => exact .cons hone ih
  rw [hwork]
  generalize Task.run _ (q, _) = r
  obtain ⟨r | u, p⟩ := r <;> rfl

/-- The same of the write with its refusals and its report. -/
theorem run_upsert_shows {write : Chunk α → Task τ Failure Reported}
    {write' : Chunk α → Task σ Failure Reported} {warn : String → τ → τ}
    {warn' : String → σ → σ} (hview : Task.SameClock view)
    (hw : ∀ c q, Shows view q (write c) (write' c))
    (hwarn : ∀ m q, view (warn m q) = warn' m (view q)) (idOf : α → String)
    (deadline : Option (Task.Deadline Failure)) (records : List α) (size concurrency : Value)
    (q : τ) :
    (upsert idOf write' warn' deadline records size concurrency).run (view q) =
      Prod.map id view ((upsert idOf write warn deadline records size concurrency).run q) := by
  unfold upsert
  rcases positive? concurrency with _ | limit
  · rfl
  rcases positive? size with _ | size
  · rfl
  dsimp only
  rw [Task.run_andThen, Task.run_andThen, run_writeAll_shows hview hw]
  generalize Task.run _ q = r
  obtain ⟨f | d, q'⟩ := r
  · rfl
  show Task.run _ (view q') = Prod.map id view (Task.run _ q')
  split
  · rfl
  · split
    · rfl
    · show (_, warn' _ (view q')) = (_, view (warn _ q'))
      rw [hwarn]
      rfl

end

/-- **A write does the same with and without notes.** -/
theorem run_writeAll_noted [Clocked σ] (limit : Nat) (write : Chunk α → Task σ ε ρ)
    (cs : List (Chunk α)) (s : σ) (h : History α (Except ε ρ)) :
    (writeAll limit none write halts cs).run s =
      Prod.map id Prod.fst ((writeAll limit none (noted write) halts cs).run (s, h)) :=
  have hclock : Task.SameClock (Prod.fst : σ × History α (Except ε ρ) → σ) :=
    ⟨fun _ => rfl, fun _ _ => rfl⟩
  run_writeAll_shows hclock (noted_shows write) limit none cs (s, h)

end VectorStore.Batch
