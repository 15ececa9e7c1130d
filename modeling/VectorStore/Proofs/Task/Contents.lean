/-
  What an agenda holds.

  Entries change their places in the heap but none is lost and none comes up twice.

  * `entries` lists what an agenda holds; `entries_push`, `entries_popDue` say what is entered
    and what comes out, in whatever order;
  * `popDue_eq_none_iff`: nothing comes out just if there is nothing.
-/
import Mathlib.Data.List.Perm.Basic
import VectorStore.Task.Agenda

namespace VectorStore.Agenda

variable {α : Type}

/-! ## The heap -/

theorem rise_perm (heap : Array (Time × α)) (i : Nat) (h : i < heap.size) :
    (rise heap i h).Perm heap := by
  fun_induction rise heap i h with
  | case1 heap i h hi hp hlt ih => exact ih.trans (Array.swap_perm _ _)
  | case2 => exact .refl _
  | case3 => exact .refl _

theorem sink_perm (heap : Array (Time × α)) (i : Nat) (h : i < heap.size) :
    (sink heap i h).Perm heap := by
  fun_induction sink heap i h with
  | case1 heap i h hl hr hlt ih => exact ih.trans (Array.swap_perm _ _)
  | case2 heap i h hl hr hlt ih => exact ih.trans (Array.swap_perm _ _)
  | case3 heap i h hl hr ih => exact ih.trans (Array.swap_perm _ _)
  | case4 heap i h hl => exact rise_perm heap i h

/-! ## Entries -/

/-- What the agenda holds. -/
def entries (a : Agenda α) : List α := a.heap.toList.map (·.2)

theorem heap_push (a : Agenda α) (time : Time) (x : α) :
    (a.push time x).heap.toList.Perm (a.heap.toList ++ [(time, x)]) := by
  have h := (rise_perm (a.heap.push (time, x)) a.heap.size (by simp)).toList
  simpa [push] using h

theorem entries_push (a : Agenda α) (time : Time) (x : α) :
    (a.push time x).entries.Perm (a.entries ++ [x]) := by
  have h := (a.heap_push time x).map (·.2)
  simpa [entries] using h

theorem replaceFirst_perm (x e : Time × α) (xs : List (Time × α)) :
    (replaceFirst ⟨x :: xs⟩ e).toList.Perm (e :: xs) := by
  have h : 0 < (⟨x :: xs⟩ : Array (Time × α)).size := Nat.zero_lt_succ _
  rw [replaceFirst, dif_pos h]
  exact (sink_perm _ _ _).toList

/-- The first entry comes out, all others stay. -/
theorem heap_pop {a b : Agenda α} {e : Time × α} (h : a.pop? = some (e, b)) :
    (e :: b.heap.toList).Perm a.heap.toList := by
  obtain ⟨⟨list⟩⟩ := a
  obtain ⟨first, hf, h⟩ := Option.bind_eq_some_iff.1 h
  obtain ⟨last, hl, h⟩ := Option.bind_eq_some_iff.1 h
  simp only [pure, Option.some.injEq, Prod.mk.injEq] at h
  obtain ⟨rfl, rfl⟩ := h
  obtain ⟨before, rfl⟩ : ∃ before, list = before ++ [last] := by
    simpa [List.getLast?_eq_some_iff] using hl
  have hpop : (⟨before ++ [last]⟩ : Array (Time × α)).pop = ⟨before⟩ := by simp
  rw [hpop]
  cases before with
  | nil => cases hf; exact .refl _
  | cons x xs =>
    cases hf
    exact ((replaceFirst_perm x last xs).trans (List.perm_append_singleton last xs).symm).cons x

theorem entries_pop {a b : Agenda α} {e : Time × α} (h : a.pop? = some (e, b)) :
    (e.2 :: b.entries).Perm a.entries := by
  have hp := (heap_pop h).map (·.2)
  simpa [entries] using hp

theorem pop_eq_none_iff {a : Agenda α} : a.pop? = none ↔ a.entries = [] := by
  obtain ⟨⟨list⟩⟩ := a
  cases list with
  | nil => exact ⟨fun _ => rfl, fun _ => rfl⟩
  | cons x xs => simp [pop?, entries, List.getLast?_cons]

theorem entries_popBefore (time : Time) (a : Agenda α) :
    ((popBefore time a).1 ++ (popBefore time a).2.entries).Perm a.entries := by
  fun_induction popBefore time a with
  | case1 a h => exact .refl _
  | case2 a e b h hb hlt entries rest heq ih =>
    rw [heq] at ih
    exact (ih.cons e.2).trans (entries_pop h)
  | case3 => exact .refl _

/-- **What is due comes out, all else stays.** -/
theorem entries_popDue {a b : Agenda α} {time : Time} {due : List α}
    (h : a.popDue? = some (time, due, b)) : (due ++ b.entries).Perm a.entries := by
  obtain ⟨⟨e, c⟩, hp, hc⟩ := Option.map_eq_some_iff.1 h
  simp only [Prod.mk.injEq] at hc
  obtain ⟨-, rfl, rfl⟩ := hc
  exact ((entries_popBefore (e.1 + Time.moment) c).cons e.2).trans (entries_pop hp)

theorem popDue_eq_none_iff {a : Agenda α} : a.popDue? = none ↔ a.entries = [] := by
  rw [popDue?, Option.map_eq_none_iff, pop_eq_none_iff]

end VectorStore.Agenda
