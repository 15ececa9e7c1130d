/-
  The order in which agendas come out.

  Where all times are numbers, an agenda is sorted as heaps are: nothing is due before what stands
  above it.

  * `sorted_rise`, `sorted_sink`: an entry out of place comes to stand where it belongs, whichever
    way it goes;
  * `Timely.push`, `Timely.pop`, `Timely.popBefore`: so agendas stay sorted, and what comes out
    first is due first;
  * `heap_popDue`, `Timely.popDue`: what comes out at one moment, and what stays.
-/
import VectorStore.Proofs.Task.Contents
import VectorStore.Proofs.Times

namespace VectorStore.Agenda

variable {α : Type} {heap : Array (Time × α)} {i : ℕ}

/-! ## Heaps -/

/-- When the entry at an index is due, as a place among all times. -/
def rank (heap : Array (Time × α)) (i : ℕ) : ℤ ×ₗ ℤ ×ₗ ℤ :=
  (heap[i]?.map fun e => Number.place e.1).getD (toLex (0, toLex (0, 0)))

theorem rank_eq (h : i < heap.size) : rank heap i = Number.place heap[i].1 := by
  rw [rank, Array.getElem?_eq_getElem h]
  rfl

theorem rank_swap {j : ℕ} (hi : i < heap.size) (hj : j < heap.size) (k : ℕ) :
    rank (heap.swap i j hi hj) k =
      if j = k then rank heap i else if i = k then rank heap j else rank heap k := by
  rw [rank, Array.getElem?_swap, rank_eq hi, rank_eq hj, rank]
  split
  · rfl
  · split <;> rfl

/-- Nothing is due before what stands above it. -/
def Sorted (heap : Array (Time × α)) : Prop :=
  ∀ k, 0 < k → k < heap.size → rank heap ((k - 1) / 2) ≤ rank heap k

/-- The heap is sorted but for the entry at an index, which may be due before what is above it. -/
structure SortedBelow (heap : Array (Time × α)) (i : ℕ) : Prop where
  others : ∀ k, 0 < k → k < heap.size → k ≠ i → rank heap ((k - 1) / 2) ≤ rank heap k
  past : 0 < i → ∀ k, 0 < k → k < heap.size → (k - 1) / 2 = i →
    rank heap ((i - 1) / 2) ≤ rank heap k

/-- The heap is sorted but for the entry at an index. -/
structure SortedAround (heap : Array (Time × α)) (i : ℕ) : Prop where
  others : ∀ k, 0 < k → k < heap.size → k ≠ i → (k - 1) / 2 ≠ i →
    rank heap ((k - 1) / 2) ≤ rank heap k
  past : 0 < i → ∀ k, 0 < k → k < heap.size → (k - 1) / 2 = i →
    rank heap ((i - 1) / 2) ≤ rank heap k

/-- All times are from zero on. -/
def Numbered (heap : Array (Time × α)) : Prop := ∀ e ∈ heap.toList, 0 ≤ e.1

theorem Numbered.lt_iff (hn : Numbered heap) {j : ℕ} (hi : i < heap.size) (hj : j < heap.size) :
    heap[i].1 < heap[j].1 ↔ rank heap i < rank heap j := by
  have hi' : 0 ≤ heap[i].1 := hn _ (Array.getElem_mem_toList hi)
  have hj' : 0 ≤ heap[j].1 := hn _ (Array.getElem_mem_toList hj)
  rw [rank_eq hi, rank_eq hj]
  exact Number.lt_iff_place (Number.isNumber_of_nonneg hi') (Number.isNumber_of_nonneg hj')

theorem Numbered.perm {heap' : Array (Time × α)} (hn : Numbered heap)
    (hp : heap'.toList.Perm heap.toList) : Numbered heap' := fun e he => hn e (hp.mem_iff.1 he)

theorem Numbered.swap (hn : Numbered heap) {j : ℕ} (hi : i < heap.size) (hj : j < heap.size) :
    Numbered (heap.swap i j hi hj) := hn.perm (Array.swap_perm hi hj).toList

/-- **An entry rises to where it belongs.** -/
theorem sorted_rise (hn : Numbered heap) (h : i < heap.size) (hs : SortedBelow heap i) :
    Sorted (rise heap i h) := by
  fun_induction rise heap i h with
  | case1 heap i h hi hp hlt ih =>
    have hup : rank heap i < rank heap ((i - 1) / 2) := (hn.lt_iff h hp).1 hlt
    refine ih (hn.swap h hp) ⟨fun k hk hks hkp => ?_, fun hp0 k hk hks hki => ?_⟩
    · rw [Array.size_swap] at hks
      have hold := hs.others k hk hks
      have hpast := hs.past hi k hk hks
      simp only [rank_swap]
      -- the index itself, its sibling, what is below it, and all others
      by_cases hki : k = i
      · subst hki
        rw [if_pos rfl, if_neg (by omega), if_pos rfl]
        exact hup.le
      · rw [if_neg (by omega : ¬(i - 1) / 2 = k), if_neg (by omega : ¬i = k)]
        split
        · next hsame =>
          rw [hsame] at hup
          exact hup.le.trans (hold hki)
        · split
          · next hbelow => exact hpast hbelow.symm
          · exact hold hki
    · rw [Array.size_swap] at hks
      have habove := hs.others ((i - 1) / 2) hp0 hp (by omega)
      simp only [rank_swap]
      rw [if_neg (by omega), if_neg (by omega)]
      by_cases hki' : k = i
      · subst hki'
        rw [if_neg (by omega), if_pos rfl]
        exact habove
      · rw [if_neg (by omega), if_neg (by omega)]
        have hold := hs.others k hk hks hki'
        rw [hki] at hold
        exact habove.trans hold
  | case2 heap i h hi hp hlt =>
    intro k hk hks
    by_cases hki : k = i
    · subst hki
      exact not_lt.1 fun hup => hlt ((hn.lt_iff h hp).2 hup)
    · exact hs.others k hk hks hki
  | case3 heap i h hi => exact fun k hk hks => hs.others k hk hks (by omega)

/-- A place and the one below it that is due first are exchanged. -/
theorem SortedAround.swap (hs : SortedAround heap i) {c : ℕ} (hi : i < heap.size)
    (hc : c < heap.size) (hci : (c - 1) / 2 = i) (hic : i < c)
    (hfirst : ∀ k, 0 < k → k < heap.size → (k - 1) / 2 = i → rank heap c ≤ rank heap k) :
    SortedAround (heap.swap i c hi hc) c := by
  refine ⟨fun k hk hks hkc hbelow => ?_, fun _ k hk hks hkc => ?_⟩
  · rw [Array.size_swap] at hks
    have hpast := hs.past
    simp only [rank_swap]
    by_cases hki : k = i
    · subst hki
      rw [if_neg (by omega), if_neg (by omega), if_neg (by omega), if_pos rfl]
      exact hpast hk c (by omega) hc hci
    · rw [if_neg (by omega : ¬c = k), if_neg (by omega : ¬i = k), if_neg (by omega)]
      split
      · next hsame => exact hfirst k hk hks hsame.symm
      · next hother => exact hs.others k hk hks hki (by omega)
  · rw [Array.size_swap] at hks
    simp only [rank_swap]
    rw [if_neg (by omega), if_pos hci.symm, if_neg (by omega), if_neg (by omega)]
    have hold := hs.others k hk hks (by omega) (by omega)
    rw [hkc] at hold
    exact hold

/-- **An entry sinks, and rises, to where it belongs.** -/
theorem sorted_sink (hn : Numbered heap) (h : i < heap.size) (hs : SortedAround heap i) :
    Sorted (sink heap i h) := by
  fun_induction sink heap i h with
  | case1 heap i h hl hr hlt ih =>
    have hleft : rank heap (2 * i + 1) < rank heap (2 * i + 2) := (hn.lt_iff hl hr).1 hlt
    refine ih (hn.swap h hl) (hs.swap h hl (by omega) (by omega) fun k hk hks hki => ?_)
    obtain rfl | rfl : k = 2 * i + 1 ∨ k = 2 * i + 2 := by omega
    · exact le_refl _
    · exact hleft.le
  | case2 heap i h hl hr hlt ih =>
    have hright : rank heap (2 * i + 2) ≤ rank heap (2 * i + 1) :=
      not_lt.1 fun hleft => hlt ((hn.lt_iff hl hr).2 hleft)
    refine ih (hn.swap h hr) (hs.swap h hr (by omega) (by omega) fun k hk hks hki => ?_)
    obtain rfl | rfl : k = 2 * i + 1 ∨ k = 2 * i + 2 := by omega
    · exact hright
    · exact le_refl _
  | case3 heap i h hl hr ih =>
    refine ih (hn.swap h hl) (hs.swap h hl (by omega) (by omega) fun k hk hks hki => ?_)
    obtain rfl : k = 2 * i + 1 := by omega
    exact le_refl _
  | case4 heap i h hl =>
    exact sorted_rise hn h ⟨fun k hk hks hki => hs.others k hk hks hki (by omega),
      fun _ k hk hks hki => by omega⟩

/-- What is in front is due first. -/
theorem Sorted.front_le (hs : Sorted heap) {k : ℕ} (hk : k < heap.size) :
    rank heap 0 ≤ rank heap k := by
  induction k using Nat.strongRecOn with
  | ind k ih =>
    rcases Nat.eq_zero_or_pos k with rfl | hpos
    · exact le_refl _
    · exact (ih ((k - 1) / 2) (by omega) (by omega)).trans (hs k hpos hk)

/-! ## Agendas -/

/-- The agenda is sorted, and its times are from zero on. -/
structure Timely (a : Agenda α) : Prop where
  sorted : Sorted a.heap
  numbered : Numbered a.heap

variable {a b : Agenda α} {e : Time × α} {time : Time}

theorem timely_empty : (empty : Agenda α).Timely :=
  ⟨fun _ _ hk => absurd hk (Nat.not_lt_zero _), nofun⟩

theorem Timely.push (h : a.Timely) (ht : 0 ≤ time) (x : α) : (a.push time x).Timely := by
  have hn : Numbered (a.heap.push (time, x)) := by
    intro e he
    rw [Array.toList_push, List.mem_append, List.mem_singleton] at he
    rcases he with he | rfl
    · exact h.numbered e he
    · exact ht
  refine ⟨sorted_rise hn _ ⟨fun k hk hks hki => ?_, fun _ k hk hks hki => ?_⟩,
    hn.perm (rise_perm _ _ _).toList⟩
  · rw [Array.size_push] at hks
    have hold := h.sorted k hk (by omega)
    have hparent : (k - 1) / 2 ≠ a.heap.size := by omega
    simpa [rank, Array.getElem?_push, hki, hparent] using hold
  · rw [Array.size_push] at hks
    omega

/-- **What comes out first is due first.** -/
theorem Timely.pop (h : a.Timely) (hp : a.pop? = some (e, b)) :
    b.Timely ∧ 0 ≤ e.1 ∧ ∀ x ∈ b.heap.toList, ¬x.1 < e.1 := by
  have hperm := heap_pop hp
  have hall : ∀ x ∈ e :: b.heap.toList, 0 ≤ x.1 := fun x hx => h.numbered x (hperm.mem_iff.1 hx)
  have he : 0 ≤ e.1 := hall e (List.mem_cons_self ..)
  have hb : Numbered b.heap := fun x hx => hall x (List.mem_cons_of_mem _ hx)
  obtain ⟨first, hf, hp⟩ := Option.bind_eq_some_iff.1 hp
  obtain ⟨last, hl, hp⟩ := Option.bind_eq_some_iff.1 hp
  simp only [pure, Option.some.injEq, Prod.mk.injEq] at hp
  obtain ⟨rfl, rfl⟩ := hp
  obtain ⟨hsize, hfirst⟩ := Array.getElem?_eq_some_iff.1 hf
  refine ⟨⟨?_, hb⟩, he, fun x hx hlt => ?_⟩
  · show Sorted (replaceFirst a.heap.pop last)
    rw [replaceFirst]
    split
    · next hpos =>
      refine sorted_sink ?_ _
        ⟨fun k hk hks hki hbelow => ?_, fun hzero => absurd hzero (lt_irrefl _)⟩
      · intro x hx
        rw [Array.toList_set] at hx
        rcases List.mem_or_eq_of_mem_set hx with hx | rfl
        · rw [Array.toList_pop] at hx
          exact h.numbered x (List.dropLast_subset _ hx)
        · exact h.numbered x (Array.mem_toList_iff.2 (Array.mem_of_back? hl))
      · rw [Array.size_set, Array.size_pop] at hks
        have hold := h.sorted k hk (by omega)
        have hrank (j : ℕ) (hj : j ≠ 0) (hjs : j < a.heap.size - 1) :
            rank (a.heap.pop.set 0 last hpos) j = rank a.heap j := by
          rw [rank, rank, Array.getElem?_set_ne hpos (Ne.symm hj), Array.getElem?_pop, if_pos hjs]
        rw [hrank _ hbelow (by omega), hrank k (by omega) hks]
        exact hold
    · next hempty => exact fun k _ hk => absurd (Nat.zero_lt_of_lt hk) hempty
  · have hmem : x ∈ a.heap.toList := hperm.mem_iff.1 (List.mem_cons_of_mem _ hx)
    obtain ⟨k, hk, rfl⟩ := List.getElem_of_mem hmem
    rw [Array.length_toList] at hk
    have hle := h.sorted.front_le hk
    rw [Array.getElem_toList, ← hfirst, h.numbered.lt_iff hk hsize] at hlt
    exact absurd hlt (not_lt.2 hle)

theorem Timely.popBefore (h : a.Timely) (ht : 0 ≤ time) :
    (popBefore time a).2.Timely ∧ ∀ e ∈ (Agenda.popBefore time a).2.heap.toList, ¬e.1 < time := by
  fun_induction Agenda.popBefore time a with
  | case1 a hp =>
    have hnone : a.heap.toList = [] := List.map_eq_nil_iff.1 (pop_eq_none_iff.1 hp)
    refine ⟨h, ?_⟩
    rw [hnone]
    exact List.forall_mem_nil _
  | case2 a e b hp hb hlt entries rest heq ih =>
    rw [heq] at ih
    exact ih (h.pop hp).1
  | case3 a e b hp hb hnot =>
    obtain ⟨hb, he, hlater⟩ := h.pop hp
    refine ⟨h, fun x hx hlt => ?_⟩
    rcases List.mem_cons.1 ((heap_pop hp).mem_iff.2 hx) with rfl | hx'
    · exact hnot hlt
    · have hx0 : 0 ≤ x.1 := h.numbered x hx
      have hplace {y z : Time} (hy : 0 ≤ y) (hz : 0 ≤ z) :
          y < z ↔ Number.place y < Number.place z :=
        Number.lt_iff_place (Number.isNumber_of_nonneg hy) (Number.isNumber_of_nonneg hz)
      have hlater := hlater x hx'
      rw [hplace hx0 he, not_lt] at hlater
      rw [hplace he ht, not_lt] at hnot
      rw [hplace hx0 ht] at hlt
      exact absurd hlt (not_lt.2 (hnot.trans hlater))

theorem heap_popBefore (time : Time) (a : Agenda α) :
    ∃ due : List (Time × α), due.map (·.2) = (popBefore time a).1 ∧ (∀ e ∈ due, e.1 < time) ∧
      (due ++ (popBefore time a).2.heap.toList).Perm a.heap.toList := by
  fun_induction popBefore time a with
  | case1 a h => exact ⟨[], rfl, List.forall_mem_nil _, .refl _⟩
  | case2 a e b h hb hlt entries rest heq ih =>
    rw [heq] at ih
    obtain ⟨due, hdue, hbefore, hperm⟩ := ih
    exact ⟨e :: due, congrArg (e.2 :: ·) hdue, List.forall_mem_cons.2 ⟨hlt, hbefore⟩,
      (hperm.cons e).trans (heap_pop h)⟩
  | case3 a => exact ⟨[], rfl, List.forall_mem_nil _, .refl _⟩

/-- **What is due comes out with the times at which it is**, all else stays. -/
theorem heap_popDue {due : List α} (h : a.popDue? = some (time, due, b)) :
    ∃ x first, due = x :: first.map (·.2) ∧ (∀ e ∈ first, e.1 < time + Time.moment) ∧
      ((time, x) :: first ++ b.heap.toList).Perm a.heap.toList := by
  obtain ⟨⟨e, c⟩, hp, hc⟩ := Option.map_eq_some_iff.1 h
  simp only [Prod.mk.injEq] at hc
  obtain ⟨rfl, rfl, rfl⟩ := hc
  obtain ⟨first, hfirst, hbefore, hperm⟩ := heap_popBefore (e.1 + Time.moment) c
  exact ⟨e.2, first, by rw [hfirst], hbefore, (hperm.cons e).trans (heap_pop hp)⟩

/-- **The time comes first, and what stays is due later.** -/
theorem Timely.popDue {due : List α} (h : a.Timely) (hd : a.popDue? = some (time, due, b)) :
    b.Timely ∧ 0 ≤ time ∧ (∀ e ∈ a.heap.toList, ¬e.1 < time) ∧
      ∀ e ∈ b.heap.toList, ¬e.1 < time + Time.moment := by
  obtain ⟨⟨e, c⟩, hp, hc⟩ := Option.map_eq_some_iff.1 hd
  simp only [Prod.mk.injEq] at hc
  obtain ⟨rfl, -, rfl⟩ := hc
  obtain ⟨hc, he, hlater⟩ := h.pop hp
  have hmoment : 0 ≤ Time.moment := Number.nonneg_iff.2 rfl
  obtain ⟨hb, hpast⟩ := hc.popBefore (Number.nonneg_add he hmoment)
  refine ⟨hb, he, fun x hx => ?_, hpast⟩
  rcases List.mem_cons.1 ((heap_pop hp).mem_iff.2 hx) with rfl | hx
  · exact Number.lt_irrefl _
  · exact hlater x hx

end VectorStore.Agenda
