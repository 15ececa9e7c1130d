/-
  Agendas: entries by the time at which they are due.

  An agenda is a binary heap, the entry due first in front.  In which order entries come out
  that are due at the same time depends on where in the heap they came to stand, which
  `rise` and `sink` fix.

  `push` and `pop?` keep account of the number of entries; `popDue?` takes out all that are
  due at one moment.
-/
import VectorStore.Time

namespace VectorStore

/-- Entries by the time at which they are due. -/
structure Agenda (α : Type) where
  heap : Array (Time × α)

namespace Agenda

variable {α : Type}

/-- The agenda without entries. -/
def empty : Agenda α := ⟨#[]⟩

/-- The number of entries. -/
def size (a : Agenda α) : Nat := a.heap.size

/-- Moves an entry toward the front past all above it that are due later. -/
def rise (heap : Array (Time × α)) (i : Nat) (h : i < heap.size) : Array (Time × α) :=
  if hi : 0 < i then
    have hp : (i - 1) / 2 < heap.size := by omega
    if heap[i].1 < heap[(i - 1) / 2].1 then
      rise (heap.swap i ((i - 1) / 2)) ((i - 1) / 2) (by simpa using hp)
    else heap
  else heap
termination_by i

/-- Moves an entry down to where nothing is below it, each time in place of the one of the
    two below it that is due first, of equals the second; then it rises from there. -/
def sink (heap : Array (Time × α)) (i : Nat) (h : i < heap.size) : Array (Time × α) :=
  if hl : 2 * i + 1 < heap.size then
    if hr : 2 * i + 2 < heap.size then
      if heap[2 * i + 1].1 < heap[2 * i + 2].1 then
        sink (heap.swap i (2 * i + 1)) (2 * i + 1) (by simpa using hl)
      else sink (heap.swap i (2 * i + 2)) (2 * i + 2) (by simpa using hr)
    else sink (heap.swap i (2 * i + 1)) (2 * i + 1) (by simpa using hl)
  else rise heap i h
termination_by heap.size - i
decreasing_by all_goals simp only [Array.size_swap]; omega

@[simp] theorem size_rise (heap : Array (Time × α)) (i : Nat) (h : i < heap.size) :
    (rise heap i h).size = heap.size := by
  fun_induction rise heap i h with
  | case1 heap i h hi hp hlt ih => simpa using ih
  | case2 => rfl
  | case3 => rfl

@[simp] theorem size_sink (heap : Array (Time × α)) (i : Nat) (h : i < heap.size) :
    (sink heap i h).size = heap.size := by
  fun_induction sink heap i h with
  | case1 heap i h hl hr hlt ih => simpa using ih
  | case2 heap i h hl hr hlt ih => simpa using ih
  | case3 heap i h hl hr ih => simpa using ih
  | case4 => simp

/-- The agenda with an entry. -/
def push (a : Agenda α) (time : Time) (x : α) : Agenda α :=
  ⟨rise (a.heap.push (time, x)) a.heap.size (by simp)⟩

/-- The heap with another entry in place of the one in front. -/
def replaceFirst (heap : Array (Time × α)) (e : Time × α) : Array (Time × α) :=
  if h : 0 < heap.size then sink (heap.set 0 e) 0 (by simpa using h) else heap

/-- The entry due first and the agenda without it: the entry at the very end takes its place. -/
def pop? (a : Agenda α) : Option ((Time × α) × Agenda α) := do
  let first ← a.heap[0]?
  let last ← a.heap.back?
  return (first, ⟨replaceFirst a.heap.pop last⟩)

@[simp] theorem size_replaceFirst (heap : Array (Time × α)) (e : Time × α) :
    (replaceFirst heap e).size = heap.size := by
  rw [replaceFirst]
  split <;> simp

@[simp] theorem size_push (a : Agenda α) (time : Time) (x : α) :
    (a.push time x).size = a.size + 1 := by
  simp [push, size]

theorem size_pop {a b : Agenda α} {e : Time × α} (h : a.pop? = some (e, b)) :
    b.size + 1 = a.size := by
  obtain ⟨first, hf, h⟩ := Option.bind_eq_some_iff.1 h
  obtain ⟨last, -, h⟩ := Option.bind_eq_some_iff.1 h
  obtain ⟨hs, -⟩ := Array.getElem?_eq_some_iff.1 hf
  simp only [pure, Option.some.injEq, Prod.mk.injEq] at h
  rw [← h.2]
  simp only [size, size_replaceFirst, Array.size_pop]
  omega

/-- The entries that are due before a time, in the order in which they come out, and the
    agenda without them. -/
def popBefore (time : Time) (a : Agenda α) : List α × Agenda α :=
  match h : a.pop? with
  | none => ([], a)
  | some (e, b) =>
    have := size_pop h
    if e.1 < time then
      let (entries, rest) := popBefore time b
      (e.2 :: entries, rest)
    else ([], a)
termination_by a.size

/-- The next time at which an entry is due, the entries due at that moment in the order in
    which they come out, and the agenda without them. -/
def popDue? (a : Agenda α) : Option (Time × List α × Agenda α) :=
  a.pop?.map fun (e, b) =>
    let (entries, rest) := popBefore (e.1 + Time.moment) b
    (e.1, e.2 :: entries, rest)

theorem size_popBefore (time : Time) (a : Agenda α) :
    (popBefore time a).2.size + (popBefore time a).1.length = a.size := by
  fun_induction popBefore time a with
  | case1 a h => rfl
  | case2 a e b h hb hlt entries rest heq ih =>
    rw [heq] at ih
    simp only [List.length_cons]
    simp only at ih
    omega
  | case3 => rfl

theorem size_popDue {a b : Agenda α} {time : Time} {entries : List α}
    (h : a.popDue? = some (time, entries, b)) :
    b.size + entries.length = a.size ∧ 0 < entries.length := by
  obtain ⟨⟨e, c⟩, hp, hc⟩ := Option.map_eq_some_iff.1 h
  simp only [Prod.mk.injEq] at hc
  obtain ⟨-, rfl, rfl⟩ := hc
  have h₁ := size_pop hp
  have h₂ := size_popBefore (e.1 + Time.moment) c
  simp only [List.length_cons]
  omega

end Agenda

end VectorStore
