/-
  Tasks: computations that take time.

  A task reads and writes a state, waits, and ends with a result or a failure.  It is a tree,
  so every task ends.  A wait carries what happens to the state when it is cut short
  (`abandon`), for instance the rollback of an open transaction.  The clock moves in waits alone:
  to read, to write and to compute takes no time, so that a deadline falls due in a wait or not
  at all.

  * tasks form a monad over their results; `attempt` turns a failure into a value;
  * `zoom` runs a task on a part of a larger state, `withLocal` on a state of its own;
  * `onAbandon` adds to what happens when the task is cut short;
  * `within` cuts a task short when its deadline has come;
  * `run` carries a task out on a state with a clock.
-/
import VectorStore.Time

namespace VectorStore

/-- What a wait is for. -/
inductive Until (σ : Type) where
  /-- that some time has passed -/
  | passed (span : Time)
  /-- a point in time -/
  | reached (time : Time)
  /-- a state of things, and then the turn behind whoever can go on already -/
  | holds (condition : σ → Bool)

/-- A computation on a state `σ` that ends with an `α` or fails with an `ε`. -/
inductive Task (σ ε α : Type) where
  | done (result : Except ε α)
  | read (next : σ → Task σ ε α)
  | write (s : σ) (next : Task σ ε α)
  /-- `abandon` happens to the state if the wait is cut short -/
  | wait (u : Until σ) (abandon : σ → σ) (next : Task σ ε α)

/-- A state with a clock. -/
class Clocked (σ : Type) where
  /-- the time -/
  clock : σ → Time
  /-- the state at another time -/
  atTime : Time → σ → σ

/-- A clock in the first part of a state is one of the whole. -/
instance [Clocked σ] : Clocked (σ × τ) where
  clock s := Clocked.clock s.1
  atTime time s := (Clocked.atTime time s.1, s.2)

namespace Until

variable {σ τ : Type}

/-- The wait in a larger state. -/
def comap (view : τ → σ) : Until σ → Until τ
  | passed span => .passed span
  | reached time => .reached time
  | holds condition => .holds fun t => condition (view t)

/-- When the wait is over, if that is known now. -/
def due? (now : Time) : Until σ → Option Time
  | passed span => some (now + span)
  | reached time => some time
  | holds _ => none

end Until

namespace Task

variable {σ τ ε α β : Type}

/-! ## Sequencing -/

/-- The task that ends at once. -/
def ret (a : α) : Task σ ε α := .done (.ok a)

/-- The task that fails at once. -/
def fail (e : ε) : Task σ ε α := .done (.error e)

/-- One task after another, which takes its result. -/
def andThen : Task σ ε α → (α → Task σ ε β) → Task σ ε β
  | .done (.ok a), f => f a
  | .done (.error e), _ => .done (.error e)
  | .read next, f => .read fun s => (next s).andThen f
  | .write s next, f => .write s (next.andThen f)
  | .wait u abandon next, f => .wait u abandon (next.andThen f)

instance : Monad (Task σ ε) where
  pure := ret
  bind := andThen

/-- The state. -/
def get : Task σ ε σ := .read fun s => ret s

/-- Changes the state. -/
def modify (f : σ → σ) : Task σ ε Unit := .read fun s => .write (f s) (ret ())

/-- A result or a failure that is known already. -/
def ofExcept (r : Except ε α) : Task σ ε α := .done r

/-- Waits; nothing happens to the state if the wait is cut short. -/
def await (u : Until σ) : Task σ ε Unit := .wait u id (ret ())

/-- Lets those go on that can go on already. -/
def turn : Task σ ε Unit := await (.holds fun _ => true)

/-- Waits for some time, or for no longer than a turn. -/
def sleep (span : Time) : Task σ ε Unit := if 0 < span then await (.passed span) else turn

/-- The task with its failure as a value. -/
def attempt {ε' : Type} : Task σ ε α → Task σ ε' (Except ε α)
  | .done r => .done (.ok r)
  | .read next => .read fun s => (next s).attempt
  | .write s next => .write s next.attempt
  | .wait u abandon next => .wait u abandon next.attempt

/-- The task with another one in place of a failure. -/
def recover {ε' : Type} (t : Task σ ε α) (handler : ε → Task σ ε' α) : Task σ ε' α :=
  t.attempt.andThen fun
    | .ok a => ret a
    | .error e => handler e

/-- A task that cannot fail, where failures are of any type. -/
def certain : Task σ Empty α → Task σ ε α
  | .done (.ok a) => .done (.ok a)
  | .read next => .read fun s => (next s).certain
  | .write s next => .write s next.certain
  | .wait u abandon next => .wait u abandon next.certain

/-! ## States -/

/-- The task on a larger state of which its own is a part. -/
def zoom (view : τ → σ) (update : σ → τ → τ) : Task σ ε α → Task τ ε α
  | .done r => .done r
  | .read next => .read fun t => (next (view t)).zoom view update
  | .write s next => .read fun t => .write (update s t) (next.zoom view update)
  | .wait u abandon next =>
    .wait (u.comap view) (fun t => update (abandon (view t)) t) (next.zoom view update)

/-- The task with a part of its state kept to itself: `q` at first, and at the end given
    back with the result. -/
def withLocal (q : τ) : Task (σ × τ) ε α → Task σ ε (α × τ)
  | .done r => .done (r.map (·, q))
  | .read next => .read fun s => (next (s, q)).withLocal q
  | .write (s, q') next => .write s (next.withLocal q')
  | .wait u abandon next =>
    .wait (u.comap fun s => (s, q)) (fun s => (abandon (s, q)).1) (next.withLocal q)

/-- The task on a pair of states of which it uses the first. -/
def onFirst (t : Task σ ε α) : Task (σ × τ) ε α :=
  t.zoom Prod.fst fun s p => (s, p.2)

/-! ## Being cut short -/

/-- A point in time from which on a task is late, and the failure of being late. -/
structure Deadline (ε : Type) where
  time : Time
  late : ε

/-- The task with something more that happens to the state when it is cut short. -/
def onAbandon (f : σ → σ) : Task σ ε α → Task σ ε α
  | .done r => .done r
  | .read next => .read fun s => (next s).onAbandon f
  | .write s next => .write s (next.onAbandon f)
  | .wait u abandon next => .wait u (fun s => f (abandon s)) (next.onAbandon f)

/-- What happens to the state first, and then a failure. -/
def failAfter (f : σ → σ) (e : ε) : Task σ ε α := .read fun s => .write (f s) (fail e)

/-- The task cut short where it would wait. -/
def withoutWait (late : ε) : Task σ ε α → Task σ ε α
  | .done r => .done r
  | .read next => .read fun s => (next s).withoutWait late
  | .write s next => .write s (next.withoutWait late)
  | .wait _ abandon _ => failAfter abandon late

/-- The task with a deadline: a wait up to the deadline or beyond it is cut short there, and
    the task fails.  If the deadline comes in the moment in which a wait is over, the task
    may still go on to its next wait. -/
def within [Clocked σ] (d : Deadline ε) : Task σ ε α → Task σ ε α
  | .done r => .done r
  | .read next => .read fun s => (next s).within d
  | .write s next => .write s (next.within d)
  | .wait u abandon next => .read fun s =>
    match u.due? (Clocked.clock s) with
    | none => .wait u abandon (next.within d)
    | some time =>
      if d.time ≤ time then .wait (.reached d.time) abandon (failAfter abandon d.late)
      else if d.time < time + Time.moment then
        .wait (.reached time) abandon (next.withoutWait d.late)
      else .wait (.reached time) abandon (next.within d)

/-- The task with a deadline if there is one. -/
def bounded [Clocked σ] (d : Option (Deadline ε)) (t : Task σ ε α) : Task σ ε α :=
  match d with
  | none => t
  | some d => t.within d

/-! ## Running -/

/-- The outcome of a task and the state it leaves. -/
def run [Clocked σ] : Task σ ε α → σ → Except ε α × σ
  | .done r, s => (r, s)
  | .read next, s => (next s).run s
  | .write s next, _ => next.run s
  | .wait u _ next, s =>
    next.run <| match u.due? (Clocked.clock s) with
      | none => s
      | some time => Clocked.atTime time s

/-! ## Small lemmas -/

theorem andThen_assoc {γ : Type} (t : Task σ ε α) (f : α → Task σ ε β) (g : β → Task σ ε γ) :
    (t.andThen f).andThen g = t.andThen fun a => (f a).andThen g := by
  induction t with
  | done r => cases r <;> rfl
  | read next ih => simp [andThen, ih]
  | write s next ih => simp [andThen, ih]
  | wait u abandon next ih => simp [andThen, ih]

/-- Running one task after another runs the second from where the first stops. -/
theorem run_andThen [Clocked σ] (t : Task σ ε α) (f : α → Task σ ε β) (s : σ) :
    (t.andThen f).run s =
      match t.run s with
      | (.ok a, s') => (f a).run s'
      | (.error e, s') => (.error e, s') := by
  induction t generalizing s with
  | done r => cases r <;> rfl
  | read next ih => exact ih s s
  | write s' next ih => exact ih s'
  | wait u abandon next ih => exact ih _

/-- An attempt never fails: its result is the outcome of the task. -/
theorem run_attempt [Clocked σ] {ε' : Type} (t : Task σ ε α) (s : σ) :
    (t.attempt : Task σ ε' (Except ε α)).run s = (.ok (t.run s).1, (t.run s).2) := by
  induction t generalizing s with
  | done r => rfl
  | read next ih => exact ih s s
  | write s' next ih => exact ih s'
  | wait u abandon next ih => exact ih _

end Task

end VectorStore
