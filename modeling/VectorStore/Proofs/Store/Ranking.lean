/-
  The order of matches.

  Doubles that are numbers are ordered by their place (`Number.lt_iff_place`), so items with such
  scores have one order in which the higher score comes first, and of equal scores the earlier
  item (`Precedes`).

  * `sortDescending_positions`: sorting puts items into this order;
  * `topMatches_topMatches`: the best of the best are the best.
-/
import Mathlib.Data.Prod.Lex
import Mathlib.Order.Compare
import VectorStore.Store.Ranking

namespace VectorStore

/-! ## Doubles in order -/

namespace Number

open Float.Model (UnpackedFloat)

/-- The place of a double among all of them: its sign and whether it is zero or infinite, then
    its exponent, then its mantissa.  What is not a number comes below. -/
def placeOf : UnpackedFloat → ℤ ×ₗ ℤ ×ₗ ℤ
  | .notANumber => toLex (-3, toLex (0, 0))
  | .infinity .negative => toLex (-2, toLex (0, 0))
  | .finite .negative m e _ => toLex (-1, toLex (-e, -(m : ℤ)))
  | .zero _ => toLex (0, toLex (0, 0))
  | .finite .positive m e _ => toLex (1, toLex (e, (m : ℤ)))
  | .infinity .positive => toLex (2, toLex (0, 0))

theorem then_eq_lt_iff (e e' : ℤ) (m m' : ℕ) :
    (compare e e').then (compare m m') = .lt ↔ e < e' ∨ e = e' ∧ m < m' := by
  rw [Ordering.then_eq_lt, compare_lt_iff_lt, compare_lt_iff_lt, compare_eq_iff_eq]

theorem swap_then_eq_lt_iff (e e' : ℤ) (m m' : ℕ) :
    ((compare e e').then (compare m m')).swap = .lt ↔ e' < e ∨ e = e' ∧ m' < m := by
  rw [Ordering.swap_eq_lt, Ordering.then_eq_gt, compare_gt_iff_gt, compare_gt_iff_gt,
    compare_eq_iff_eq]

theorem lt_iff_placeOf {a b : UnpackedFloat} (ha : a.beq a = true) (hb : b.beq b = true) :
    a.lt b = true ↔ placeOf a < placeOf b := by
  have hlt : compare UnpackedFloat.Sign.negative UnpackedFloat.Sign.positive = .lt := rfl
  have hgt : compare UnpackedFloat.Sign.positive UnpackedFloat.Sign.negative = .gt := rfl
  have heq : ∀ s : UnpackedFloat.Sign, compare s s = .eq := fun s => by cases s <;> rfl
  rcases a with ⟨_ | _⟩ | _ | _ | ⟨_ | _, m, e, hm⟩
  case notANumber => cases ha
  all_goals
    rcases b with ⟨_ | _⟩ | _ | _ | ⟨_ | _, m', e', hm'⟩
    case notANumber => cases hb
    all_goals
      dsimp only [UnpackedFloat.lt, UnpackedFloat.compare, placeOf]
      simp only [Prod.Lex.toLex_lt_toLex, beq_iff_eq, Option.some.injEq, then_eq_lt_iff,
        swap_then_eq_lt_iff, hlt, hgt, heq, reduceCtorEq, true_iff, false_iff, true_and,
        false_and, or_false]
      omega

theorem compare_swap (a b : UnpackedFloat) : b.compare a = (a.compare b).map Ordering.swap := by
  have hint (e e' : ℤ) : (compare e e').swap = compare e' e := Std.OrientedOrd.eq_swap.symm
  have hnat (m m' : ℕ) : (compare m m').swap = compare m' m := Std.OrientedOrd.eq_swap.symm
  rcases a with ⟨_ | _⟩ | _ | _ | ⟨_ | _, m, e, hm⟩ <;>
    rcases b with ⟨_ | _⟩ | _ | _ | ⟨_ | _, m', e', hm'⟩ <;>
    first
    | rfl
    | dsimp only [UnpackedFloat.compare, Option.map_some]
      simp only [Ordering.swap_then, hint, hnat]

theorem lt_iff {x y : Float} : x < y ↔ x.toModel.unpack.compare y.toModel.unpack = some .lt := by
  have h : x < y ↔ x.toModel.unpack.lt y.toModel.unpack = true := by
    show decide (x.toModel < y.toModel) = true ↔ _
    rw [decide_eq_true_eq]
    rfl
  rw [h, UnpackedFloat.lt, beq_iff_eq]

def place (x : Float) : ℤ ×ₗ ℤ ×ₗ ℤ := placeOf x.toModel.unpack

/-- **Of two numbers the one with the lower place is less.** -/
theorem lt_iff_place {x y : Float} (hx : (x == x) = true) (hy : (y == y) = true) :
    x < y ↔ place x < place y := by
  rw [lt_iff, ← beq_iff_eq, ← UnpackedFloat.lt, lt_iff_placeOf hx hy, place, place]

/-- Of equal doubles none is less. -/
theorem not_lt_of_beq {x y : Float} (h : (x == y) = true) : ¬y < x := by
  have hxy : x.toModel.unpack.compare y.toModel.unpack = some .eq := beq_iff_eq.1 h
  rw [lt_iff, compare_swap, hxy]
  simp

end Number

namespace Store

/-! ## Items in descending order -/

section

variable {α : Type} {f : α → Float} {xs : List α}

/-- An item at its position goes before another one: its score is not lower, and it is higher
    unless the position is lower. -/
def Precedes (f : α → Float) (a b : α × ℕ) : Prop :=
  ¬f a.1 < f b.1 ∧ (f b.1 < f a.1 ∨ a.2 < b.2)

instance (f : α → Float) (a b : α × ℕ) : Decidable (Precedes f a b) :=
  inferInstanceAs (Decidable (_ ∧ _))

/-- There is only one order of items. -/
theorem eq_of_precedes {l l' : List (α × ℕ)} (hperm : l.Perm l') (h : l.Pairwise (Precedes f))
    (h' : l'.Pairwise (Precedes f)) : l = l' := by
  refine hperm.eq_of_pairwise (fun a b _ _ ⟨hab, ha⟩ ⟨hba, hb⟩ => ?_) h h'
  have hlt := ha.resolve_left hba
  have hlt' := hb.resolve_left hab
  omega

/-- Whether an item may stand before another one. -/
def atLeast (f : α → Float) (a b : α) : Bool := decide (Number.place (f b) ≤ Number.place (f a))

theorem atLeast_trans (f : α → Float) (a b c : α) (hab : atLeast f a b) (hbc : atLeast f b c) :
    atLeast f a c := by
  simp only [atLeast, decide_eq_true_eq] at *
  exact hbc.trans hab

theorem atLeast_total (f : α → Float) (a b : α) : atLeast f a b || atLeast f b a := by
  simp only [atLeast, Bool.or_eq_true, decide_eq_true_eq]
  exact le_total _ _

theorem atLeast_eq {a b : α} (ha : (f a == f a) = true) (hb : (f b == f b) = true) :
    atLeast f a b = !decide (f a < f b) := by
  rw [atLeast, ← decide_not]
  exact decide_eq_decide.2 (by rw [Number.lt_iff_place ha hb, not_lt])

/-- Where all scores are numbers, sorting is by their places. -/
theorem sortDescending_eq (h : ∀ x ∈ xs, (f x == f x) = true) :
    sortDescending (fun a b => decide (f b < f a)) xs = xs.mergeSort (atLeast f) := by
  have hcongr : (xs.mergeSort (atLeast f)).map id = (xs.map id).mergeSort
      fun a b => !decide (f a < f b) :=
    List.map_mergeSort fun a ha b hb => atLeast_eq (h a ha) (h b hb)
  rw [List.map_id, List.map_id] at hcongr
  exact hcongr.symm

/-- **Sorting puts each item at its place**: the higher scores first, and items of equal score in
    the order in which they were. -/
theorem sortDescending_positions (h : ∀ x ∈ xs, (f x == f x) = true) :
    ∃ ps : List (α × ℕ), ps.Perm xs.zipIdx ∧ ps.Pairwise (Precedes f) ∧
      sortDescending (fun a b => decide (f b < f a)) xs = ps.map Prod.fst := by
  refine ⟨xs.zipIdx.mergeSort (List.zipIdxLE (atLeast f)), List.mergeSort_perm _ _, ?_, ?_⟩
  · have hperm := List.mergeSort_perm xs.zipIdx (List.zipIdxLE (atLeast f))
    have hsorted := List.pairwise_mergeSort (List.zipIdxLE_trans (atLeast_trans f))
      (List.zipIdxLE_total (atLeast_total f)) xs.zipIdx
    have hpositions : (xs.zipIdx.mergeSort (List.zipIdxLE (atLeast f))).Pairwise
        fun a b => a.2 ≠ b.2 := by
      rw [← List.pairwise_map (f := Prod.snd) (R := (· ≠ ·))]
      refine (hperm.map Prod.snd).nodup_iff.2 ?_
      rw [List.zipIdx_map_snd]
      exact List.nodup_range'
    refine (hsorted.and hpositions).imp_of_mem fun {a b} ha hb ⟨hle, hne⟩ => ?_
    have hnum {c : α × ℕ} (hc : c ∈ xs.zipIdx.mergeSort (List.zipIdxLE (atLeast f))) :
        (f c.1 == f c.1) = true :=
      h c.1 (List.fst_mem_of_mem_zipIdx (hperm.mem_iff.1 hc))
    rw [List.zipIdxLE, atLeast_eq (hnum ha) (hnum hb), atLeast_eq (hnum hb) (hnum ha)] at hle
    by_cases hab : f a.1 < f b.1
    · simp [hab] at hle
    refine ⟨hab, or_iff_not_imp_left.2 fun hba => ?_⟩
    simp only [hab, hba, decide_false, Bool.not_false, if_true, decide_eq_true_eq] at hle
    omega
  · rw [sortDescending_eq h, ← List.mergeSort_zipIdx]

end

/-! ## Matches in descending order -/

section

variable {found : List Match}

theorem ranked_eq (h : found.all isRanked) :
    ranked found = sortDescending (fun a b => decide (b.score < a.score)) found := by
  rw [ranked, if_pos h]

/-- The best of the best are the best. -/
theorem topMatches_topMatches (h : found.all isRanked) (k : ℕ) :
    topMatches k (topMatches k found) = topMatches k found := by
  have hnum : ∀ m ∈ found, (m.score == m.score) = true := List.all_eq_true.1 h
  have hsorted := List.pairwise_mergeSort (atLeast_trans Match.score) (atLeast_total Match.score)
    found
  rw [← sortDescending_eq hnum, ← ranked_eq h] at hsorted
  have htop : ∀ m ∈ topMatches k found, (m.score == m.score) = true := fun m hm => by
    rw [topMatches, ranked_eq h] at hm
    exact hnum m (List.mem_mergeSort.1 (List.mem_of_mem_take hm))
  have hagain : ranked (topMatches k found) = topMatches k found := by
    rw [ranked_eq (List.all_eq_true.2 htop), sortDescending_eq htop]
    exact List.mergeSort_of_pairwise (hsorted.sublist (List.take_sublist _ _))
  rw [topMatches, hagain, topMatches, List.take_take, min_self]

end

end Store

end VectorStore
