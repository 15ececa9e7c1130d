/-
  Deadlines that are integers.

  Where the deadline of a context is an integer, or there is none, whether there is time left is
  a comparison of integers (`LeavesTime`): then an operation runs (`inTime_of_leavesTime`), else
  it refuses (`run_failIfExpired_late`, `run_withDeadline_late`).
-/
import Mathlib.Algebra.Group.Int.Defs
import Mathlib.Algebra.Group.Nat.Defs
import Mathlib.Logic.Basic
import VectorStore.Proofs.Numbers
import VectorStore.Proofs.Store.Runs

namespace VectorStore

/-! ## Deadlines -/

/-- The deadline of a context, if it is an integer; a truth value is one. -/
def Context.deadline? (c : Context) : Option Int :=
  match c.deadline with
  | .int n => some n
  | .bool b => some (if b then 1 else 0)
  | _ => none

/-- The context has no deadline, or one that is an integer below `2 ^ 63`. -/
def Context.Dated (c : Context) : Prop := c.deadline = .null ∨ ∃ d ∈ c.deadline?, d < 2 ^ 63

/-- No deadline has passed. -/
def Store.LeavesTime (ctx : Option Context) (now : Int) : Prop :=
  ∀ c ∈ ctx, ∀ d ∈ c.deadline?, now < d

theorem Context.remaining_of_deadline? {c : Context} {d : Int} (h : d ∈ c.deadline?) (now : Int) :
    c.remaining now = .ok (.int (max 0 (d - now))) := by
  rw [Context.deadline?] at h
  rw [Context.remaining, Context.remainingTo]
  split at h
  · next n hn =>
    cases h
    rw [hn]
    rfl
  · next b hb =>
    cases h
    rw [hb]
    rfl
  · cases h

namespace Store

variable {β α : Type} {ctx : Option Context} {s : Session β}

/-- The budget of an operation before its deadline is the time up to it. -/
theorem budget_of_lt {c : Context} {d now : Int} (hd : d ∈ c.deadline?) (hmax : d < 2 ^ 63)
    (hnow : 0 ≤ now) (h : now < d) : ∃ x, Number.ofInt? (d - now) = some x ∧
      c.remaining now >>= Budget.ofMilliseconds = .ok (.left (Time.ofMilliseconds x)) := by
  obtain ⟨x, hx⟩ : ∃ x, Number.ofInt? (d - now) = some x := Number.exists_ofInt? (by omega)
  refine ⟨x, hx, ?_⟩
  rw [Context.remaining_of_deadline? hd, Int.max_eq_right (by omega)]
  show Budget.ofMilliseconds _ = _
  unfold Budget.ofMilliseconds
  split
  · next he => cases he
  · next he =>
    injection he with he
    omega
  · rw [Value.toFloat, hx]
    rfl

/-- Where the deadline has not passed, there is time. -/
theorem inTime_of_leavesTime {now : Int} (hctx : ∀ c ∈ ctx, c.Dated) (hnow : 0 ≤ now)
    (h : LeavesTime ctx now) : InTime ctx now := by
  intro c hc
  rcases hctx c hc with hnull | ⟨d, hd, hlt⟩
  · refine ⟨.unlimited, ?_, by simp⟩
    rw [Context.remaining, Context.remainingTo, hnull]
    rfl
  · obtain ⟨x, -, hbudget⟩ := budget_of_lt hd hlt hnow (h c hc d hd)
    exact ⟨_, hbudget, by simp⟩

/-- Where the deadline has passed, nothing remains. -/
theorem remaining_of_late {now : Int} (h : ¬LeavesTime ctx now) :
    ∃ c, ctx = some c ∧ c.remaining now = .ok (.int 0) := by
  simp only [LeavesTime, not_forall] at h
  obtain ⟨c, hc, d, hd, hle⟩ := h
  refine ⟨c, hc, ?_⟩
  rw [Context.remaining_of_deadline? hd, Int.max_eq_left (by omega)]

theorem run_failIfExpired_late (h : ¬LeavesTime ctx s.now) :
    (failIfExpired ctx).run s = (.error expired, s) := by
  obtain ⟨c, rfl, hc⟩ := remaining_of_late h
  rw [failIfExpired, Task.run, hc]
  rfl

theorem run_withDeadline_late (h : ¬LeavesTime ctx s.now)
    (t : Option (Task.Deadline Failure) → Task (Session β) Failure α) :
    (withDeadline ctx t).run s = (.error timedOut, s) := by
  obtain ⟨c, rfl, hc⟩ := remaining_of_late h
  rw [withDeadline, Task.run, hc]
  rfl

end Store

end VectorStore
