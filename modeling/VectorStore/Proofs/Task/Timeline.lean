/-
  When the waits of a task are over.

  * `timeline` lists the times at which the waits of a run end;
  * `Quiet`: a task takes no time;
  * `Paces`: a task leaves the clock alone, and its waits end at times from zero on; so do tasks put
    together from such tasks (`Paces.andThen`, `Paces.attempt`, `Paces.onFirst`);
  * `Waits`: the waits of a task for time end at times from zero on, whatever its state; so do those
    of tasks put together from such tasks (`Waits.andThen`, `Waits.recover`, `Waits.zoom`), and on a
    part of a state that has nothing to do with the clock, the task paces (`paces_zoom`).
-/
import VectorStore.Proofs.Task.Views
import VectorStore.Proofs.Times

namespace VectorStore

/-- A clock that can be set. -/
class LawfulClock (σ : Type) [Clocked σ] : Prop where
  clock_atTime : ∀ time (s : σ), Clocked.clock (Clocked.atTime time s) = time

instance {σ τ : Type} [Clocked σ] [LawfulClock σ] : LawfulClock (σ × τ) where
  clock_atTime time s := LawfulClock.clock_atTime time s.1

/-- The wait is over at a time from zero on, if it is one for time. -/
def Until.Forward {σ : Type} : Until σ → Prop
  | .passed span => 0 ≤ span
  | .reached time => 0 ≤ time
  | .holds _ => True

theorem Until.Forward.due {σ : Type} {u : Until σ} (h : u.Forward) {now time : Time}
    (hnow : 0 ≤ now) (hu : u.due? now = some time) : 0 ≤ time := by
  cases u with
  | passed span =>
    cases hu
    exact Number.nonneg_add hnow h
  | reached time' =>
    cases hu
    exact h
  | holds condition => cases hu

namespace Task

variable {σ τ ε ε' α β : Type} [Clocked σ] [Clocked τ]

/-! ## Timelines -/

/-- The times at which the waits of a run from a state are over. -/
def timeline : Task σ ε α → σ → List Time
  | .done _, _ => []
  | .read next, s => (next s).timeline s
  | .write s next, _ => next.timeline s
  | .wait u _ next, s =>
    match u.due? (Clocked.clock s) with
    | none => next.timeline s
    | some time => time :: next.timeline (Clocked.atTime time s)

theorem timeline_advance (t : Task σ ε α) (s : σ) :
    t.timeline s = (t.advance s).2.timeline (t.advance s).1 := by
  induction t generalizing s with
  | done r => rfl
  | read next ih => exact ih s s
  | write s' next ih => exact ih s'
  | wait u abandon next => rfl

theorem timeline_andThen (t : Task σ ε α) (f : α → Task σ ε β) (s : σ) :
    (t.andThen f).timeline s = t.timeline s ++ match t.run s with
      | (.ok a, s') => (f a).timeline s'
      | (.error _, _) => [] := by
  induction t generalizing s with
  | done r => cases r <;> rfl
  | read next ih => exact ih s s
  | write s' next ih => exact ih s'
  | wait u abandon next ih =>
    rw [andThen, timeline, timeline, run]
    rcases u.due? (Clocked.clock s) with _ | time
    · exact ih s
    · exact congrArg (time :: ·) (ih _)

theorem timeline_attempt (t : Task σ ε α) (s : σ) :
    (t.attempt : Task σ ε' (Except ε α)).timeline s = t.timeline s := by
  induction t generalizing s with
  | done r => rfl
  | read next ih => exact ih s s
  | write s' next ih => exact ih s'
  | wait u abandon next ih =>
    rw [attempt, timeline, timeline]
    split
    · exact ih s
    · exact congrArg (_ :: ·) (ih _)

theorem timeline_withLocal (q : β) (t : Task (σ × β) ε α) (s : σ) :
    (t.withLocal q).timeline s = t.timeline (s, q) := by
  induction t generalizing s q with
  | done r => rfl
  | read next ih => exact ih (s, q) q s
  | write s' next ih => exact ih s'.2 s'.1
  | wait u abandon next ih =>
    have hdue : (u.comap fun s => (s, q)).due? (Clocked.clock s) =
        u.due? (Clocked.clock (s, q)) := by cases u <;> rfl
    rw [withLocal, timeline, timeline, hdue]
    split
    · exact ih q s
    · exact congrArg (_ :: ·) (ih q _)

/-! ## Tasks that take no time -/

/-- From a state, the task does not wait for time, and leaves the clock as it is. -/
structure Quiet (t : Task σ ε α) (s : σ) : Prop where
  timeline : t.timeline s = []
  clock : Clocked.clock (t.run s).2 = Clocked.clock s

theorem quiet_done (r : Except ε α) (s : σ) : (.done r : Task σ ε α).Quiet s := ⟨rfl, rfl⟩

theorem quiet_modify {f : σ → σ} (hf : ∀ s, Clocked.clock (f s) = Clocked.clock s) (s : σ) :
    (.modify f : Task σ ε Unit).Quiet s := ⟨rfl, hf s⟩

theorem Quiet.andThen {t : Task σ ε α} {f : α → Task σ ε β} {s : σ} (h : t.Quiet s)
    (hf : ∀ a s', t.run s = (.ok a, s') → (f a).Quiet s') : (t.andThen f).Quiet s := by
  obtain ⟨htimes, hclock⟩ := h
  refine ⟨?_, ?_⟩
  · rw [timeline_andThen, htimes]
    rcases hrun : t.run s with ⟨e | a, s'⟩
    · rfl
    · exact (hf a s' hrun).timeline
  · rw [run_andThen]
    rcases hrun : t.run s with ⟨e | a, s'⟩ <;> rw [hrun] at hclock
    · exact hclock
    · exact (hf a s' hrun).clock.trans hclock

theorem Quiet.recover {t : Task σ ε α} {handler : ε → Task σ ε' α} {s : σ} (h : t.Quiet s)
    (hh : ∀ e s', (handler e).Quiet s') : (t.recover handler).Quiet s := by
  have hattempt : (t.attempt : Task σ ε' (Except ε α)).Quiet s := by
    refine ⟨(timeline_attempt t s).trans h.timeline, ?_⟩
    rw [run_attempt]
    exact h.clock
  refine hattempt.andThen fun r s' _ => ?_
  cases r with
  | ok a => exact quiet_done _ s'
  | error e => exact hh e s'

/-! ## Tasks that leave the clock alone -/

/-- From a state, the task leaves the clock alone, and its waits are over at times from zero on. -/
def Paces : Task σ ε α → σ → Prop
  | .done _, _ => True
  | .read next, s => (next s).Paces s
  | .write s' next, s => Clocked.clock s' = Clocked.clock s ∧ next.Paces s'
  | .wait u abandon next, _ =>
    u.Forward ∧ ∀ s, Clocked.clock (abandon s) = Clocked.clock s ∧ next.Paces s

theorem paces_ret (a : α) (s : σ) : (.ret a : Task σ ε α).Paces s := trivial

theorem paces_turn (s : σ) : (.turn : Task σ ε Unit).Paces s :=
  ⟨trivial, fun s => ⟨rfl, paces_ret () s⟩⟩

variable {t : Task σ ε α} {s : σ}

theorem Paces.andThen {f : α → Task σ ε β} (h : t.Paces s) (hf : ∀ a s, (f a).Paces s) :
    (t.andThen f).Paces s := by
  induction t generalizing s with
  | done r =>
    cases r with
    | ok a => exact hf a s
    | error e => trivial
  | read next ih => exact ih s h
  | write s' next ih => exact ⟨h.1, ih h.2⟩
  | wait u abandon next ih => exact ⟨h.1, fun s => ⟨(h.2 s).1, ih (h.2 s).2⟩⟩

theorem Paces.attempt (h : t.Paces s) : (t.attempt : Task σ ε' (Except ε α)).Paces s := by
  induction t generalizing s with
  | done r => trivial
  | read next ih => exact ih s h
  | write s' next ih => exact ⟨h.1, ih h.2⟩
  | wait u abandon next ih => exact ⟨h.1, fun s => ⟨(h.2 s).1, ih (h.2 s).2⟩⟩

theorem Paces.certain {t : Task σ Empty α} (h : t.Paces s) :
    (t.certain : Task σ ε α).Paces s := by
  induction t generalizing s with
  | done r =>
    cases r with
    | ok a => trivial
    | error e => cases e
  | read next ih => exact ih s h
  | write s' next ih => exact ⟨h.1, ih h.2⟩
  | wait u abandon next ih => exact ⟨h.1, fun s => ⟨(h.2 s).1, ih (h.2 s).2⟩⟩

/-- A turn of the task leaves the clock alone. -/
theorem Paces.advance (h : t.Paces s) :
    Clocked.clock (t.advance s).1 = Clocked.clock s ∧ ∀ s', (t.advance s).2.Paces s' := by
  induction t generalizing s with
  | done r => exact ⟨rfl, fun _ => trivial⟩
  | read next ih => exact ih s h
  | write s' next ih =>
    obtain ⟨hclock, hrest⟩ := ih h.2
    exact ⟨hclock.trans h.1, hrest⟩
  | wait u abandon next => exact ⟨rfl, fun _ => h⟩

omit [Clocked σ] in
/-- The waits of a task for time are over at times from zero on. -/
def Waits : Task σ ε α → Prop
  | .done _ => True
  | .read next => ∀ s, (next s).Waits
  | .write _ next => next.Waits
  | .wait u _ next => u.Forward ∧ next.Waits

section

omit [Clocked σ] [Clocked τ]

theorem waits_done (r : Except ε α) : (.done r : Task σ ε α).Waits := trivial

theorem waits_get : (.get : Task σ ε σ).Waits := fun _ => trivial

theorem waits_modify (f : σ → σ) : (.modify f : Task σ ε Unit).Waits := fun _ => trivial

theorem Waits.andThen {t : Task σ ε α} {f : α → Task σ ε β} (h : t.Waits)
    (hf : ∀ a, (f a).Waits) : (t.andThen f).Waits := by
  induction t with
  | done r =>
    cases r with
    | ok a => exact hf a
    | error e => trivial
  | read next ih => exact fun s => ih s (h s)
  | write s next ih => exact ih h
  | wait u abandon next ih => exact ⟨h.1, ih h.2⟩

theorem Waits.attempt {t : Task σ ε α} (h : t.Waits) :
    (t.attempt : Task σ ε' (Except ε α)).Waits := by
  induction t with
  | done r => trivial
  | read next ih => exact fun s => ih s (h s)
  | write s next ih => exact ih h
  | wait u abandon next ih => exact ⟨h.1, ih h.2⟩

theorem Waits.recover {t : Task σ ε α} {handler : ε → Task σ ε' α} (h : t.Waits)
    (hh : ∀ e, (handler e).Waits) : (t.recover handler).Waits := by
  refine h.attempt.andThen fun r => ?_
  cases r with
  | ok a => exact waits_done _
  | error e => exact hh e

theorem Waits.onAbandon {t : Task σ ε α} (h : t.Waits) (f : σ → σ) : (t.onAbandon f).Waits := by
  induction t with
  | done r => trivial
  | read next ih => exact fun s => ih s (h s)
  | write s next ih => exact ih h
  | wait u abandon next ih => exact ⟨h.1, ih h.2⟩

theorem Waits.zoom {t : Task σ ε α} (h : t.Waits) (view : τ → σ) (update : σ → τ → τ) :
    (t.zoom view update).Waits := by
  induction t with
  | done r => trivial
  | read next ih => exact fun s => ih _ (h _)
  | write s next ih => exact fun _ => ih h
  | wait u abandon next ih =>
    refine ⟨?_, ih h.2⟩
    cases u <;> exact h.1

end

/-- A task on a part of the state that has nothing to do with the clock. -/
theorem paces_zoom {ρ : Type} {get : σ → ρ} {put : ρ → σ → σ}
    (hput : ∀ r s, Clocked.clock (put r s) = Clocked.clock s) {t : Task ρ ε α} (h : t.Waits)
    (s : σ) : (t.zoom get put).Paces s := by
  induction t generalizing s with
  | done r => trivial
  | read next ih => exact ih _ (h _) s
  | write r next ih => exact ⟨hput r s, ih h _⟩
  | wait u abandon next ih =>
    refine ⟨?_, fun s => ⟨hput _ s, ih h.2 s⟩⟩
    cases u <;> exact h.1

omit [Clocked τ] in
theorem Paces.onFirst (h : t.Paces s) (q : τ) : (t.onFirst : Task (σ × τ) ε α).Paces (s, q) := by
  induction t generalizing s q with
  | done r => trivial
  | read next ih => exact ih s h q
  | write s' next ih => exact ⟨h.1, ih h.2 q⟩
  | wait u abandon next ih =>
    refine ⟨?_, fun p => ⟨(h.2 p.1).1, ih (h.2 p.1).2 p.2⟩⟩
    cases u <;> exact h.1

end Task

end VectorStore
