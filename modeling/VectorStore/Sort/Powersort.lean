/-
  Sorting by merging runs in the order of their powers.

  The list is cut into runs from left to right.  The boundary between two neighbouring runs
  has a power: how deep the boundary lies in a balanced tree over the whole list.  Runs wait
  on a stack, and a boundary is merged away before one of smaller power is put on top of it,
  so the runs that are merged are of similar length.

  For an order the outcome is the stable sort.  A relation that is none, such as the
  comparison of doubles among which there is one that is not a number, has no sorted
  arrangement; the outcome is then the arrangement that these merges leave.
-/
import VectorStore.Sort.Merge
import VectorStore.Sort.Run

namespace VectorStore.Sort

variable {α : Type}

/-- The least length of a run: the length of the list halved until it is below 64, plus one
    if a bit was lost. -/
def leastRun (n : Nat) (lost : Nat := 0) : Nat :=
  if n < 64 then n + lost else leastRun (n / 2) (max lost (n % 2))

/-- The number of binary digits of `a / n` and `b / n` up to the first in which they differ,
    among at most `digits`. -/
def firstDifference (n : Nat) : Nat → Nat → Nat → Nat
  | 0, _, _ => 0
  | digits + 1, a, b =>
    if n ≤ a then firstDifference n digits (2 * (a - n)) (2 * (b - n)) + 1
    else if n ≤ b then 1
    else firstDifference n digits (2 * a) (2 * b) + 1

/-- The power of the boundary between a run of length `n₁` that starts at `start` and one of
    length `n₂` behind it, in a list of length `n`. -/
def powerAt (n start n₁ n₂ : Nat) : Nat :=
  firstDifference n (n.log2 + 3) (2 * start + n₁) (2 * start + 2 * n₁ + n₂)

/-- A run that waits to be merged. -/
structure Waiting (α : Type) where
  start : Nat
  items : List α
  /-- the power of the boundary to the run on top of it -/
  power : Nat

/-- The run as one with the run on top of it, and the patience after the merge. -/
def Waiting.join (below : α → α → Bool) (patience : Nat) (w top : Waiting α) : Waiting α × Nat :=
  let (items, patience) := mergeRuns below patience w.items top.items
  (⟨w.start, items, top.power⟩, patience)

/-- The stack, top first, when the boundaries of greater power are merged away. -/
def collapse (below : α → α → Bool) (power patience : Nat) (top : Waiting α) :
    List (Waiting α) → List (Waiting α) × Nat
  | [] => ([{ top with power }], patience)
  | w :: stack =>
    if power < w.power then
      let (joined, patience) := w.join below patience top
      collapse below power patience joined stack
    else ({ top with power } :: w :: stack, patience)

/-- The stack with a run put on top, in a list of length `n`. -/
def pushRun (below : α → α → Bool) (n patience : Nat) (run : List α) :
    List (Waiting α) → List (Waiting α) × Nat
  | [] => ([⟨0, run, 0⟩], patience)
  | top :: stack =>
    let start := top.start + top.items.length
    let power := powerAt n top.start top.items.length run.length
    let (stack, patience) := collapse below power patience top stack
    (⟨start, run, 0⟩ :: stack, patience)

/-- The runs of a list on a stack, in a list of length `n`. -/
def stackRuns (below : α → α → Bool) (n : Nat) (stack : List (Waiting α)) (patience : Nat)
    (items : List α) : List (Waiting α) × Nat :=
  match items with
  | [] => (stack, patience)
  | x :: rest =>
    let cut := longRun below (leastRun n) (x :: rest)
    let (stack, patience) := pushRun below n patience cut.1 stack
    stackRuns below n stack patience cut.2
termination_by items.length
decreasing_by exact length_longRun_lt below (leastRun n) x rest

/-- The items of the stack, top first, merged into one run: the topmost two, or the two below
    the top if the lower of them is shorter than the top. -/
def mergeAll (below : α → α → Bool) (patience : Nat) : List (Waiting α) → List α
  | [] => []
  | [w] => w.items
  | [top, w] => (w.join below patience top).1.items
  | top :: w :: v :: stack =>
    if v.items.length < top.items.length then
      let (joined, patience) := v.join below patience w
      mergeAll below patience (top :: joined :: stack)
    else
      let (joined, patience) := w.join below patience top
      mergeAll below patience (joined :: v :: stack)
termination_by stack => stack.length

/-- The items in ascending order. -/
def powersort (below : α → α → Bool) (items : List α) : List α :=
  let (stack, patience) := stackRuns below items.length [] Merging.worthLeaping items
  mergeAll below patience stack

end VectorStore.Sort
