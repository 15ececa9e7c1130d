/-
  What computations fail with.

  * `FailsOnly`: a result may be a failure only as is said; so may what is put together from such
    results, which succeeds only if they do (`bind_eq_ok`);
  * `Task.Fails`: so may the end of a task, whatever it finds in its state and whatever happens
    while it waits (`Fails.andThen`, `Fails.recover`).
-/
import VectorStore.Task

namespace VectorStore

variable {ε ε' α β : Type} {P : ε → Prop}

/-- What comes of two steps comes of the second with the result of the first. -/
theorem bind_eq_ok {x : Except ε α} {f : α → Except ε β} {b : β} (h : x >>= f = .ok b) :
    ∃ a, x = .ok a ∧ f a = .ok b := by
  cases x with
  | error e => cases h
  | ok a => exact ⟨a, rfl, h⟩

/-- Where items fail in one way only, or else give a value, so do all of them together. -/
theorem mapM_checked {f : α → Except ε β} {p : α → Bool} {g : α → β} {e : ε}
    (hf : ∀ a, f a = if p a then .ok (g a) else .error e) (l : List α) :
    l.mapM f = if l.all p then .ok (l.map g) else .error e := by
  induction l with
  | nil => rfl
  | cons a l ih =>
    rw [List.mapM_cons, hf, ih, List.all_cons]
    cases p a
    · rfl
    · cases l.all p <;> rfl

/-- A failure, if there is one, is as said. -/
def FailsOnly (P : ε → Prop) (r : Except ε α) : Prop := ∀ e, r = .error e → P e

theorem failsOnly_ok (a : α) : FailsOnly P (.ok a) := nofun

theorem failsOnly_error {e : ε} (h : P e) : FailsOnly P (.error e : Except ε α) := by
  rintro _ ⟨⟩
  exact h

theorem FailsOnly.mapError {P : ε' → Prop} {r : Except ε α} {f : ε → ε'}
    (h : FailsOnly (fun e => P (f e)) r) : FailsOnly P (r.mapError f) := by
  cases r with
  | error e => exact failsOnly_error (h e rfl)
  | ok a => exact failsOnly_ok a

theorem FailsOnly.bind {r : Except ε α} {f : α → Except ε β} (h : FailsOnly P r)
    (hf : ∀ a, FailsOnly P (f a)) : FailsOnly P (r >>= f) := by
  cases r with
  | error e => exact failsOnly_error (h e rfl)
  | ok a => exact hf a

theorem FailsOnly.mapM {f : α → Except ε β} (hf : ∀ a, FailsOnly P (f a)) (as : List α) :
    FailsOnly P (as.mapM f) := by
  induction as with
  | nil => exact failsOnly_ok []
  | cons a as ih =>
    rw [List.mapM_cons]
    exact (hf a).bind fun b => ih.bind fun bs => failsOnly_ok (b :: bs)

namespace Task

variable {σ : Type}

/-- Whatever the task finds in its state, it fails only as is said. -/
def Fails (P : ε → Prop) : Task σ ε α → Prop
  | .done r => FailsOnly P r
  | .read next => ∀ s, (next s).Fails P
  | .write _ next => next.Fails P
  | .wait _ _ next => next.Fails P

theorem fails_pure (a : α) : (pure a : Task σ ε α).Fails P := failsOnly_ok a

theorem fails_modify (f : σ → σ) : (modify f : Task σ ε Unit).Fails P := fun _ => failsOnly_ok ()

theorem Fails.andThen {t : Task σ ε α} {f : α → Task σ ε β} (h : t.Fails P)
    (hf : ∀ a, (f a).Fails P) : (t >>= f).Fails P := by
  show (t.andThen f).Fails P
  induction t with
  | done r =>
    cases r with
    | ok a => exact hf a
    | error e => exact failsOnly_error (h e rfl)
  | read next ih => exact fun s => ih s (h s)
  | write s next ih => exact ih h
  | wait u abandon next ih => exact ih h

/-- A task whose failures become others. -/
theorem Fails.recover {P : ε' → Prop} {t : Task σ ε α} {leaves : ε → ε'}
    (h : t.Fails fun e => P (leaves e)) : (t.recover fun e => .fail (leaves e)).Fails P := by
  induction t with
  | done r =>
    cases r with
    | ok a => exact failsOnly_ok a
    | error e => exact failsOnly_error (h e rfl)
  | read next ih => exact fun s => ih s (h s)
  | write s next ih => exact ih h
  | wait u abandon next ih => exact ih h

/-- Where any failure is as said, every task fails so. -/
theorem fails_of_forall (t : Task σ ε α) (h : ∀ e, P e) : t.Fails P := by
  induction t with
  | done r => exact fun e _ => h e
  | read next ih => exact fun s => ih s
  | write s next ih => exact ih
  | wait u abandon next ih => exact ih

end Task

end VectorStore
