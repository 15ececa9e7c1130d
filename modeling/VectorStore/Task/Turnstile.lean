/-
  Turnstiles: one task at a time.

  Whoever comes to a turnstile draws a ticket and waits until the tickets before it were given
  back, so tasks pass in the order in which they came.  A ticket is given back whether its
  task succeeds or fails.  When a task is cut short, all that go on beside it are too, and
  the turnstile is as good as new.
-/
import VectorStore.Task

namespace VectorStore

/-- How many tickets were drawn and how many of them were given back. -/
structure Turnstile where
  drawn : Nat := 0
  returned : Nat := 0

namespace Turnstile

variable {σ ε α : Type}

/-- The turnstile after one more ticket was drawn. -/
def draw (t : Turnstile) : Turnstile := { t with drawn := t.drawn + 1 }

/-- The turnstile after one more ticket was given back. -/
def giveBack (t : Turnstile) : Turnstile := { t with returned := t.returned + 1 }

/-- The task behind the turnstile that `view` finds in the state and `change` changes. -/
def pass (view : σ → Turnstile) (change : (Turnstile → Turnstile) → σ → σ) (t : Task σ ε α) :
    Task σ ε α :=
  .read fun s =>
    let ticket := (view s).drawn
    let isNext (s : σ) : Bool := (view s).returned == ticket
    let entrance : Task σ ε Unit := if isNext s then .ret () else .await (.holds isNext)
    .write (change draw s) <|
      ((entrance.andThen fun _ => t).onAbandon (change fun _ => {})).attempt.andThen fun r =>
        (Task.modify (change giveBack)).andThen fun _ => .ofExcept r

end Turnstile

end VectorStore
