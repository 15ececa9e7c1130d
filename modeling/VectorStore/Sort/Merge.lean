/-
  Merging two runs.

  Two neighbouring runs become one.  What is in place already stays: the beginning of the
  first run, the end of the second.  The rest is merged from that end where the run to be
  set aside is the shorter one, item by item at first; when one run has won often enough in
  a row, its items are taken by leaps (`Merging.leaps`), the number of them found by
  `leading`.  How many wins are often enough is adapted to the data and carried from merge
  to merge.

  `below` need not be an order.  For an order the outcome is the stable merge; for any other
  relation it depends on which items are compared, and that is fixed here.
-/
namespace VectorStore.Sort

variable {α : Type}

/-- The end from which runs are merged. -/
inductive End where
  | low
  | high
  deriving DecidableEq

/-! ## Leaps -/

/-- Strides of growing width while `goesOn` holds where they lead: the last place at which it
    held and the place at which it did not, `limit` at most. -/
def strides (goesOn : Nat → Bool) (limit near far : Nat) : Nat × Nat :=
  if h : near < far ∧ far < limit ∧ goesOn far = true then
    strides goesOn limit far (2 * far + 1)
  else (near, min far limit)
termination_by limit - near

/-- The number of places from `lo` to `hi` up to which `goesOn` holds, found by halving; of
    two middle places the one nearer to the low end is looked at. -/
def halving (e : End) (goesOn : Nat → Bool) (lo hi : Nat) : Nat :=
  if h : lo < hi then
    let mid := match e with
      | .low => lo + (hi - lo) / 2
      | .high => hi - 1 - (hi - lo) / 2
    if goesOn mid then halving e goesOn (mid + 1) hi else halving e goesOn lo mid
  else hi
termination_by hi - lo
decreasing_by
  · cases e <;> simp only <;> omega
  · cases e <;> simp only <;> omega

/-- How many items at the beginning are taken to satisfy `goesOn`; not all of them are
    looked at. -/
def leading (e : End) (goesOn : α → Bool) (items : List α) : Nat :=
  let holds (i : Nat) : Bool := (items[i]?.map goesOn).getD false
  if holds 0 then
    let (near, far) := strides holds items.length 0 1
    halving e holds (near + 1) far
  else 0

/-! ## The merge -/

/-- A merge under way: what is merged, and what is left of the run that was set aside and of
    the other one.  All are in the order in which they are merged. -/
structure Merging (α : Type) where
  merged : List α
  aside : List α
  other : List α

namespace Merging

/-- Whether nothing is left to be compared: the last item of the run set aside goes last. -/
def isOver (m : Merging α) : Bool := m.other.isEmpty || m.aside.length ≤ 1

/-- All items when the merge is over. -/
def items (m : Merging α) : List α := m.merged ++ m.other ++ m.aside

/-- The number of items that are left. -/
def left (m : Merging α) : Nat := m.aside.length + m.other.length

/-- Takes items from the run set aside. -/
def takeAside (n : Nat) (m : Merging α) : Merging α :=
  ⟨m.merged ++ m.aside.take n, m.aside.drop n, m.other⟩

/-- Takes items from the other run. -/
def takeOther (n : Nat) (m : Merging α) : Merging α :=
  ⟨m.merged ++ m.other.take n, m.aside, m.other.drop n⟩

/-- Whether an item of the other run goes before one of the run set aside. -/
def otherFirst (e : End) (below : α → α → Bool) (aside other : α) : Bool :=
  match e with
  | .low => below other aside
  | .high => below aside other

/-- Leaps over the items of the run set aside that go before the next one of the other run,
    and then takes that one; also how many were leapt over. -/
def leapAside (e : End) (below : α → α → Bool) (m : Merging α) : Merging α × Nat :=
  match m.other with
  | [] => (m, 0)
  | y :: _ =>
    let n := leading e (fun x => !otherFirst e below x y) m.aside
    let m' := m.takeAside n
    (if m'.isOver then m' else m'.takeOther 1, n)

/-- Leaps over the items of the other run that go before the next one of the run set aside,
    and then takes that one; also how many were leapt over. -/
def leapOther (e : End) (below : α → α → Bool) (m : Merging α) : Merging α × Nat :=
  match m.aside with
  | [] => (m, 0)
  | x :: _ =>
    let n := leading e (fun y => otherFirst e below x y) m.other
    let m' := m.takeOther n
    (if m'.isOver then m' else m'.takeAside 1, n)

/-- The wins in a row after which leaps pay off. -/
def worthLeaping : Nat := 7

/-- How the next items are taken. -/
inductive Pace where
  /-- one by one; which run won last, and how often in a row -/
  | single (other : Bool) (streak : Nat)
  | leaps

/-- Merges until nothing is left to be compared, within a number of steps; `patience` is how
    many wins in a row lead to leaps. -/
def go (e : End) (below : α → α → Bool) : Nat → Pace → Nat → Merging α → Merging α × Nat
  | 0, _, patience, m => (m, patience)
  | steps + 1, pace, patience, m =>
    if m.isOver then (m, patience)
    else match pace, m.aside, m.other with
    | .single lastOther streak, x :: _, y :: _ =>
      let other := otherFirst e below x y
      let streak := if other = lastOther then streak + 1 else 1
      let m' := if other then m.takeOther 1 else m.takeAside 1
      go e below steps (if patience ≤ streak then .leaps else .single other streak) patience m'
    | .leaps, _, _ =>
      let first := match e with
        | .low => leapAside e below m
        | .high => leapOther e below m
      if first.1.isOver then (first.1, patience)
      else
        let second := match e with
          | .low => leapOther e below first.1
          | .high => leapAside e below first.1
        if second.1.isOver then (second.1, patience)
        else if worthLeaping ≤ first.2 || worthLeaping ≤ second.2 then
          go e below steps .leaps (max 1 (patience - 1)) second.1
        else go e below steps (.single false 0) (patience + 1) second.1
    | _, _, _ => (m, patience)

end Merging

/-- Two neighbouring runs as one, and the patience after it. -/
def mergeRuns (below : α → α → Bool) (patience : Nat) (first second : List α) : List α × Nat :=
  match second with
  | [] => (first, patience)
  | y :: _ =>
    let n := leading .low (fun x => !below y x) first
    match (first.drop n).getLast? with
    | none => (first ++ second, patience)
    | some last =>
      let k := second.length - leading .high (fun y => !below y last) second.reverse
      let a := first.drop n
      let b := second.take k
      if b.isEmpty then (first ++ second, patience)
      else if a.length ≤ b.length then
        let start := Merging.takeOther 1 ⟨[], a, b⟩
        let (m, patience) := Merging.go .low below start.left (.single false 0) patience start
        (first.take n ++ m.items ++ second.drop k, patience)
      else
        let start := Merging.takeOther 1 ⟨[], b.reverse, a.reverse⟩
        let (m, patience) := Merging.go .high below start.left (.single false 0) patience start
        (first.take n ++ m.items.reverse ++ second.drop k, patience)

end VectorStore.Sort
