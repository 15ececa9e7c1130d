/-
  What batched writes keep.

  * `run_writeAll_keeping`: what every writer keeps is kept by all of them together, and what is
    said of every outcome holds of all outcomes;
  * `run_upsert_keeping`: so a batched write keeps what its writers keep, however it ends.
-/
import VectorStore.Batch.Upsert
import VectorStore.Proofs.Batch.Placement
import VectorStore.Proofs.Task.Keeping

namespace VectorStore.Batch

open VectorStore.Task (Frame Keeps)

variable {σ ε α ρ : Type}

/-- The state is as said, and so are the outcomes of all chunks that have ended. -/
def Orderly (inv : σ → Prop) (good : Except ε ρ → Prop) (p : σ × Dispatch α (Except ε ρ)) : Prop :=
  inv p.1 ∧ ∀ x ∈ p.2.ended, good x.2

section

variable {inv : σ → Prop} {good : Except ε ρ → Prop} {write : Chunk α → Task σ ε ρ}

/-- A writer that keeps the state so does so beside the others. -/
theorem keeps_onFirst {c : Chunk α}
    (h : ∀ s, inv s → (write c).Keeps (.shared inv) (fun s r => inv s ∧ good r) s)
    {p : σ × Dispatch α (Except ε ρ)} (hp : Orderly inv good p) :
    ((write c).onFirst).Keeps (.shared (Orderly inv good))
      (fun p r => Orderly inv good p ∧ good r) p := by
  let ended (p : σ × Dispatch α (Except ε ρ)) : Prop := ∀ x ∈ p.2.ended, good x.2
  have hrest (p : σ × Dispatch α (Except ε ρ)) (s : σ) (hp : ended p) : ended (s, p.2) := hp
  have hpost (p : σ × Dispatch α (Except ε ρ)) (r : Except ε ρ) (hp : ended p)
      (hr : inv p.1 ∧ good r) : Orderly inv good p ∧ good r := ⟨⟨hr.1, hp⟩, hr.2⟩
  have hinv (p : σ × Dispatch α (Except ε ρ)) (hp : ended p) (hs : inv p.1) :
      Orderly inv good p := ⟨hs, hp⟩
  have hdrift (p p' : σ × Dispatch α (Except ε ρ)) (_ : ended p) (_ : inv p.1)
      (hp' : Orderly inv good p') :
      ended p' ∧ inv p'.1 := ⟨hp'.2, hp'.1⟩
  exact Keeps.zoom Task.part_fst hrest hinv hdrift hpost hp.2 (h p.1 hp.1)

/-- What a writer does after each chunk changes nothing. -/
def Rests (inv : σ → Prop) (good : Except ε ρ → Prop)
    (pause : Task (σ × Dispatch α (Except ε ρ)) Empty Unit) : Prop :=
  ∀ p, Orderly inv good p →
    pause.Keeps (.shared (Orderly inv good)) (fun p _ => Orderly inv good p) p

theorem rests_ret : Rests inv good (.ret () : Task (σ × Dispatch α (Except ε ρ)) Empty Unit) :=
  fun _ hp => hp

theorem rests_turn : Rests inv good (.turn : Task (σ × Dispatch α (Except ε ρ)) Empty Unit) :=
  fun _ hp => ⟨hp, fun _ hp' => ⟨hp', hp'⟩⟩

/-- **A writer keeps its state orderly.** -/
theorem worker_keeps
    (h : ∀ c s, inv s → (write c).Keeps (.shared inv) (fun s r => inv s ∧ good r) s)
    {halts : ε → Bool} {pause : Task (σ × Dispatch α (Except ε ρ)) Empty Unit}
    (hrest : Rests inv good pause) (most : Nat) {p : σ × Dispatch α (Except ε ρ)}
    (hp : Orderly inv good p) : (worker write halts pause most).Keeps
      (.shared (Orderly inv good)) (fun p _ => Orderly inv good p) p := by
  induction most generalizing p with
  | zero => exact hp
  | succ most ih =>
    rw [worker, Keeps]
    obtain ⟨s, d⟩ := p
    rcases hn : d.next? with _ | ⟨c, d'⟩
    · simp only [hn]
      exact hp
    simp only [hn]
    have hended : d'.ended = d.ended := by
      unfold Dispatch.next? at hn
      split at hn
      · cases hn
      · split at hn <;> cases hn
        rfl
    have hp' : Orderly inv good (s, d') := ⟨hp.1, fun x hx => hp.2 x (hended ▸ hx)⟩
    refine Keeps.andThen (Keeps.attempt ((keeps_onFirst (h c) hp').mono ?_))
    rintro ⟨s, d⟩ r ⟨hp, hr⟩
    have hfinished (halted : Bool) : Orderly inv good (s, d.finish c r halted) := by
      refine ⟨hp.1, fun x hx => ?_⟩
      rcases List.mem_append.1 hx with hx | hx
      · exact hp.2 x hx
      · obtain rfl := List.mem_singleton.1 hx
        exact hr
    refine Keeps.andThen ((hrest _ (hfinished _)).mono fun p r hp => ?_)
    cases r with
    | ok _ => exact ih hp
    | error e => cases e

variable [Clocked σ]

/-- How work on chunks ends: orderly, and by itself or by its deadline. -/
def EndsOrderly (inv : σ → Prop) (good : Except ε ρ → Prop) (deadline : Option (Task.Deadline ε))
    (outcome : Except ε Unit × σ × Dispatch α (Except ε ρ)) : Prop :=
  Orderly inv good outcome.2 ∧
    (outcome.1 = .ok () ∨ ∃ due ∈ deadline, outcome.1 = .error due.late)

/-- How all chunks have ended, if the work was not late. -/
def EndsGood (inv : σ → Prop) (good : Except ε ρ → Prop) (deadline : Option (Task.Deadline ε))
    (outcome : Except ε (Dispatch α (Except ε ρ)) × σ) : Prop :=
  inv outcome.2 ∧ match outcome.1 with
    | .ok d => ∀ x ∈ d.ended, good x.2
    | .error e => ∃ due ∈ deadline, e = due.late

variable {deadline : Option (Task.Deadline ε)} {s : σ}

theorem EndsOrderly.endsGood {work : Task (σ × Dispatch α (Except ε ρ)) ε Unit}
    {d : Dispatch α (Except ε ρ)} (h : EndsOrderly inv good deadline (work.run (s, d))) :
    EndsGood inv good deadline (((work.withLocal d).andThen fun r => .ret r.2).run s) := by
  rw [Task.run_andThen, Task.run_withLocal]
  generalize work.run (s, d) = outcome at h
  obtain ⟨r, p⟩ := outcome
  obtain ⟨hp, rfl | ⟨due, hdue, rfl⟩⟩ := h
  · exact hp
  · exact ⟨hp.1, due, hdue, rfl⟩

/-- **What every writer keeps, all keep together**, and all outcomes are as is said of each. -/
theorem run_writeAll_keeping (hclock : ∀ time s, inv s → inv (Clocked.atTime time s))
    (h : ∀ c s, inv s → (write c).Keeps (.shared inv) (fun s r => inv s ∧ good r) s) (limit : Nat)
    (halts : ε → Bool) (cs : List (Chunk α)) (hs : inv s) :
    EndsGood inv good deadline ((writeAll limit deadline write halts cs).run s) := by
  have hstart : Orderly inv good (s, (Dispatch.start limit cs : Dispatch α (Except ε ρ))) :=
    ⟨hs, nofun⟩
  have hclock' (time : Time) (p : σ × Dispatch α (Except ε ρ)) (hp : Orderly inv good p) :
      Orderly inv good (Clocked.atTime time p) := ⟨hclock time p.1 hp.1, hp.2⟩
  rw [writeAll]
  refine EndsOrderly.endsGood ?_
  by_cases hl : limit ≤ 1
  · rw [if_pos hl]
    let ends (p : σ × Dispatch α (Except ε ρ)) (r : Except ε Unit) : Prop :=
      EndsOrderly inv good deadline (r, p)
    have hworker : (worker write halts (.ret ()) cs.length).certain.Keeps
        (.shared (Orderly inv good)) ends (s, Dispatch.start limit cs) := by
      refine (Keeps.certain ((worker_keeps h rests_ret cs.length hstart).mono
        fun p r hp a _ => hp)).mono ?_
      rintro p r ⟨a, rfl, hp⟩
      exact ⟨hp, .inl rfl⟩
    have hbounded : (writeInOrder deadline write halts cs).Keeps (.shared (Orderly inv good)) ends
        (s, Dispatch.start limit cs) :=
      hworker.bounded (fun due hdue p hp => ⟨hp, .inr ⟨due, hdue, rfl⟩⟩) fun _ hp => hp
    exact hbounded.run (fun _ hp => hp) fun time p hp => hclock' time p hp
  · rw [if_neg hl]
    refine Task.run_sideBySide_keeping hclock' deadline ?_ hstart
    intro t ht p hp
    obtain ⟨-, rfl⟩ := List.mem_replicate.1 ht
    exact worker_keeps h rests_turn cs.length hp

end

variable [Clocked σ] {inv : σ → Prop} {write : Chunk α → Task σ Failure Reported}
  {warn : String → σ → σ} {deadline : Option (Task.Deadline Failure)} {s : σ}

/-- **A batched write keeps what its writers keep**, however it ends. -/
theorem run_upsert_keeping (hclock : ∀ time s, inv s → inv (Clocked.atTime time s))
    (h : ∀ c s, inv s → (write c).Keeps (.shared inv) (fun s _ => inv s) s)
    (hwarn : ∀ message s, inv s → inv (warn message s)) (idOf : α → String) (records : List α)
    (size concurrency : Value) (hs : inv s) :
    inv ((upsert idOf write warn deadline records size concurrency).run s).2 := by
  have hwrite (c : Chunk α) (s : σ) (hs : inv s) :
      (write c).Keeps (.shared inv) (fun s _ => inv s ∧ True) s :=
    (h c s hs).mono fun _ _ hs => ⟨hs, trivial⟩
  unfold upsert
  split
  · exact hs
  · exact hs
  · next limit size _ _ =>
    dsimp only
    rw [Task.run_andThen]
    generalize hw : (writeAll _ deadline write _ (chunks size records)).run s = outcome
    have hends : EndsGood inv (fun _ => True) deadline outcome :=
      hw ▸ run_writeAll_keeping hclock hwrite _ _ _ hs
    obtain ⟨r, s'⟩ := outcome
    cases r with
    | error e => exact hends.1
    | ok d =>
      dsimp only
      split
      · exact hends.1
      · split
        · exact hends.1
        · exact hwarn _ s' hends.1

end VectorStore.Batch
