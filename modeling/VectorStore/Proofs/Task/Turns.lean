/-
  Turns of tasks.

  A task runs in turns, from one wait to the next.

  * `advance` carries out one turn: it gives the state at the next wait or the end, and the
    task that is left (`Settled`);
  * `run_advance`: a task runs as what its turn leaves;
  * `Remainder` is what may be left of a task after some turns, `MayEnd` how it may end;
  * `advance_andThen`, `advance_attempt`, `advance_onFirst` say what a turn of a compound task
    is; `run_onFirst`, `run_withLocal`, `run_certain` how it runs;
  * `advance_upToWait`: what follows a turn goes on from where the turn stops.
-/
import VectorStore.Task.SideBySide

namespace VectorStore.Task

variable {σ τ ε ε' α β : Type}

/-! ## Turns -/

/-- One turn from a state: the state at the next wait or the end, and what is left. -/
def advance : Task σ ε α → σ → σ × Task σ ε α
  | .done r, s => (s, .done r)
  | .read next, s => (next s).advance s
  | .write s next, _ => next.advance s
  | .wait u abandon next, s => (s, .wait u abandon next)

/-- A task that waits or has ended. -/
inductive Settled : Task σ ε α → Prop
  | done {r} : Settled (.done r)
  | wait {u abandon next} : Settled (.wait u abandon next)

theorem settled_advance (t : Task σ ε α) (s : σ) : (t.advance s).2.Settled := by
  induction t generalizing s with
  | done r => exact .done
  | read next ih => exact ih s s
  | write s' next ih => exact ih s'
  | wait u abandon next => exact .wait

/-- **A task runs as what its turn leaves.** -/
theorem run_advance [Clocked σ] (t : Task σ ε α) (s : σ) :
    t.run s = (t.advance s).2.run (t.advance s).1 := by
  induction t generalizing s with
  | done r => rfl
  | read next ih => exact ih s s
  | write s' next ih => exact ih s'
  | wait u abandon next => rfl

/-- The rest of a task after some of its turns, from whatever states. -/
inductive Remainder (t : Task σ ε α) : Task σ ε α → Prop
  | first (s : σ) : Remainder t (t.advance s).2
  | next {u abandon next} (s : σ) : Remainder t (.wait u abandon next) →
      Remainder t (next.advance s).2

/-- The task may end with the result. -/
def MayEnd (t : Task σ ε α) (r : Except ε α) : Prop := t.Remainder (.done r)

theorem Remainder.mayEnd [Clocked σ] {t t' : Task σ ε α} {s : σ}
    (h : t.Remainder (t'.advance s).2) : t.MayEnd (t'.run s).1 := by
  induction t' generalizing s with
  | done r => exact h
  | read next ih => exact ih s h
  | write s' next ih => exact ih h
  | wait u abandon next ih => exact ih (.next _ h)

theorem mayEnd_run [Clocked σ] (t : Task σ ε α) (s : σ) : t.MayEnd (t.run s).1 :=
  Remainder.mayEnd (.first s)

theorem MayEnd.eq_of_done {r r' : Except ε α} (h : (.done r : Task σ ε α).MayEnd r') : r' = r := by
  have hr : ∀ t, (.done r : Task σ ε α).Remainder t → t = .done r := by
    intro t ht
    induction ht with
    | first s => rfl
    | next s _ ih => cases ih
  cases hr _ h
  rfl

/-- A task that waits for nothing but time. -/
def Timed : Task σ ε α → Prop
  | .done _ => True
  | .read next => ∀ s, (next s).Timed
  | .write _ next => next.Timed
  | .wait u _ next => (∀ condition, u ≠ .holds condition) ∧ next.Timed

theorem Timed.advance {t : Task σ ε α} (h : t.Timed) (s : σ) : (t.advance s).2.Timed := by
  induction t generalizing s with
  | done r => exact h
  | read next ih => exact ih s (h s) s
  | write s' next ih => exact ih h s'
  | wait u abandon next => exact h

theorem Timed.remainder {t t' : Task σ ε α} (h : t.Timed) (hr : t.Remainder t') : t'.Timed := by
  induction hr with
  | first s => exact h.advance s
  | next s _ ih => exact ih.2.advance s

/-! ## Turns of compound tasks -/

/-- A turn of one task after another is one of the first, and one of the second if the first
    ends in it. -/
theorem advance_andThen (t : Task σ ε α) (f : α → Task σ ε β) (s : σ) :
    (t.andThen f).advance s = ((t.advance s).2.andThen f).advance (t.advance s).1 := by
  induction t generalizing s with
  | done r => rfl
  | read next ih => exact ih s s
  | write s' next ih => exact ih s'
  | wait u abandon next => rfl

theorem advance_attempt (t : Task σ ε α) (s : σ) :
    (t.attempt : Task σ ε' (Except ε α)).advance s =
      ((t.advance s).1, (t.advance s).2.attempt) := by
  induction t generalizing s with
  | done r => rfl
  | read next ih => exact ih s s
  | write s' next ih => exact ih s'
  | wait u abandon next => rfl

theorem advance_onFirst (t : Task σ ε α) (s : σ) (q : τ) :
    (t.onFirst).advance (s, q) = (((t.advance s).1, q), (t.advance s).2.onFirst) := by
  induction t generalizing s with
  | done r => rfl
  | read next ih => exact ih s s
  | write s' next ih => exact ih s'
  | wait u abandon next => rfl

/-! ## Runs of compound tasks -/

theorem run_onFirst [Clocked σ] (t : Task σ ε α) (s : σ) (q : τ) :
    t.onFirst.run (s, q) = ((t.run s).1, (t.run s).2, q) := by
  induction t generalizing s with
  | done r => rfl
  | read next ih => exact ih s s
  | write s' next ih => exact ih s'
  | wait u abandon next ih => cases u <;> exact ih _

theorem run_withLocal [Clocked σ] (q : τ) (t : Task (σ × τ) ε α) (s : σ) :
    (t.withLocal q).run s =
      ((t.run (s, q)).1.map (·, (t.run (s, q)).2.2), (t.run (s, q)).2.1) := by
  induction t generalizing s q with
  | done r => cases r <;> rfl
  | read next ih => exact ih (s, q) q s
  | write s' next ih => exact ih s'.2 s'.1
  | wait u abandon next ih => cases u <;> exact ih _ _

/-- A task that cannot fail. -/
theorem run_certain [Clocked σ] (t : Task σ Empty Unit) (s : σ) :
    (t.certain : Task σ ε Unit).run s = (.ok (), (t.run s).2) := by
  induction t generalizing s with
  | done r =>
    cases r with
    | error e => exact e.elim
    | ok _ => rfl
  | read next ih => exact ih s s
  | write s' next ih => exact ih s'
  | wait u abandon next ih => exact ih _

theorem run_andThen_eq_ok [Clocked σ] {t : Task σ ε α} {f : α → Task σ ε β} {b : β} {s s' : σ}
    (h : (t.andThen f).run s = (.ok b, s')) :
    ∃ a s₁, t.run s = (.ok a, s₁) ∧ (f a).run s₁ = (.ok b, s') := by
  rw [run_andThen] at h
  rcases ht : t.run s with ⟨_ | a, s₁⟩ <;> rw [ht] at h
  · cases h
  · exact ⟨a, s₁, rfl, h⟩

theorem run_recover [Clocked σ] (t : Task σ ε α) (handler : ε → Task σ ε' α) (s : σ) :
    (t.recover handler).run s = match t.run s with
      | (.ok a, s') => (.ok a, s')
      | (.error e, s') => (handler e).run s' := by
  rw [recover, run_andThen, run_attempt]
  rcases t.run s with ⟨_ | _, _⟩ <;> rfl

theorem run_onAbandon [Clocked σ] (f : σ → σ) (t : Task σ ε α) (s : σ) :
    (t.onAbandon f).run s = t.run s := by
  induction t generalizing s with
  | done r => rfl
  | read next ih => exact ih s s
  | write s' next ih => exact ih s'
  | wait u abandon next ih => exact ih _

/-! ## Turns of lanes -/

theorem reaches_advance (t : Lane σ) (s : σ) : Reaches (t.advance s).2 t := by
  induction t generalizing s with
  | done r => exact .here
  | read next ih => exact .read s (ih s s)
  | write s' next ih => exact .write (ih s')
  | wait u abandon next => exact .here

/-- What follows a turn goes on from where the turn stops. -/
theorem advance_upToWait (t : Lane σ) (k : (r : Lane σ) → Reaches r t → Task σ ε α) (s : σ) :
    (t.upToWait k).advance s =
      (k (t.advance s).2 (reaches_advance t s)).advance (t.advance s).1 := by
  induction t generalizing s with
  | done r => rfl
  | read next ih => exact ih s _ s
  | write s' next ih => exact ih _ s'
  | wait u abandon next => rfl

end VectorStore.Task
