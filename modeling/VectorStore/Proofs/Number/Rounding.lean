/-
  Rounding to doubles.

  * `IsNearest`: an integer is nearest to a number, and even if two are; `Denotes`: residual bits
    tell enough of a number for that (`Denotes.isNearest`), and still do once they are shifted
    (`Denotes.shiftRight`);
  * `Rounds`: a number becomes another one by rounding to a double; `Rounds.mono`: this keeps the
    order;
  * `rounds_roundWithAccuracy`: so is the number rounded that a mantissa denotes, if its residual
    bits are accurate and it has bits enough; `rounds_normalize`: so is any integral mantissa.
-/
import VectorStore.Proofs.Number.Amounts

namespace VectorStore.Number

open Float.Model (UnpackedFloat Format totalExponent)
open Float.Model.UnpackedFloat (Sign Accuracy ExtendedMantissa)

/-! ## Nearest integers -/

/-- The integer is nearest to the number; of two that are equally near it is the even one. -/
structure IsNearest (k : ℕ) (x : ℚ) : Prop where
  low : (k : ℚ) - 1 / 2 ≤ x
  high : x ≤ k + 1 / 2
  even : x = k - 1 / 2 ∨ x = k + 1 / 2 → k % 2 = 0

theorem IsNearest.mono {k k' : ℕ} {x x' : ℚ} (h : IsNearest k x) (h' : IsNearest k' x')
    (hx : x ≤ x') : k ≤ k' := by
  by_contra hlt
  have hk : (k' : ℚ) + 1 ≤ k := by exact_mod_cast Nat.lt_of_not_le hlt
  have hlow := h.low
  have hhigh := h'.high
  -- both numbers lie in the middle between two integers that are both even
  have heven := h.even (.inl (by linarith))
  have heven' := h'.even (.inr (by linarith))
  have hnext : (k : ℚ) = (k' + 1 : ℕ) := by push_cast; linarith
  have : k = k' + 1 := by exact_mod_cast hnext
  omega

theorem isNearest_self (k : ℕ) : IsNearest k k :=
  ⟨by linarith, by linarith, by rintro (h | h) <;> linarith⟩

theorem isNearest_le {k n : ℕ} {x : ℚ} (h : IsNearest k x) (hx : x ≤ n) : k ≤ n :=
  h.mono (isNearest_self n) hx

theorem le_isNearest {k n : ℕ} {x : ℚ} (h : IsNearest k x) (hx : n ≤ x) : n ≤ k :=
  (isNearest_self n).mono h hx

/-! ## Mantissas with residual bits -/

/-- The mantissa is the integer part of the number, and its residual bits say how the rest
    compares with nothing and with a half. -/
structure Denotes (em : ExtendedMantissa) (x : ℚ) : Prop where
  low : (em.mantissa : ℚ) ≤ x
  high : x < em.mantissa + 1
  roundBit : em.roundBit = true ↔ (em.mantissa : ℚ) + 1 / 2 ≤ x
  stickyBit : em.stickyBit = true ↔ x ≠ em.mantissa ∧ x ≠ em.mantissa + 1 / 2

theorem Denotes.shiftRightOne {em : ExtendedMantissa} {x : ℚ} (h : Denotes em x) :
    Denotes em.shiftRightOne (x / 2) := by
  obtain ⟨m, round, sticky⟩ := em
  obtain ⟨hlow, hhigh, hround, hsticky⟩ := h
  dsimp only at hlow hhigh hround hsticky
  have hm : (m : ℚ) = 2 * (m / 2 : ℕ) + (m % 2 : ℕ) := by exact_mod_cast (Nat.div_add_mod m 2).symm
  -- something is left of a half just if one of the residual bits is set
  have hrest : (round || sticky) = true ↔ x ≠ m := by
    rw [Bool.or_eq_true, hround, hsticky]
    constructor
    · rintro (h | h)
      · exact fun he => by linarith
      · exact h.1
    · intro hne
      by_cases hhalf : x = m + 1 / 2
      · exact .inl hhalf.ge
      · exact .inr ⟨hne, hhalf⟩
  have hbit : m % 2 = 0 ∨ m % 2 = 1 := Nat.mod_two_eq_zero_or_one m
  rcases hbit with hbit | hbit <;> rw [hbit] at hm <;> push_cast at hm
  · refine ⟨?_, ?_, ?_, ?_⟩ <;> dsimp only [ExtendedMantissa.shiftRightOne]
    · linarith
    · linarith
    · simp only [hbit, bne_self_eq_false, Bool.false_eq_true, false_iff, not_le]
      linarith
    · rw [hrest]
      constructor
      · exact fun hne => ⟨fun he => hne (by linarith), fun he => by linarith⟩
      · exact fun hne he => hne.1 (by linarith)
  · refine ⟨?_, ?_, ?_, ?_⟩ <;> dsimp only [ExtendedMantissa.shiftRightOne]
    · linarith
    · linarith
    · rw [hbit]
      simp only [bne_iff_ne, ne_eq, one_ne_zero, not_false_eq_true, true_iff]
      linarith
    · rw [hrest]
      constructor
      · exact fun hne => ⟨fun he => by linarith, fun he => hne (by linarith)⟩
      · exact fun hne he => hne.2 (by linarith)

theorem Denotes.shiftRight {em : ExtendedMantissa} {x : ℚ} (h : Denotes em x) (n : ℕ) :
    Denotes (em >>> n) (x / 2 ^ n) := by
  show Denotes (n.repeat ExtendedMantissa.shiftRightOne em) _
  induction n with
  | zero => simpa [Nat.repeat] using h
  | succ n ih =>
    have hstep := ih.shiftRightOne
    rw [div_div, ← pow_succ] at hstep
    exact hstep

theorem Denotes.isNearest {em : ExtendedMantissa} {x : ℚ} (h : Denotes em x) :
    IsNearest em.roundedMantissa x := by
  obtain ⟨m, round, sticky⟩ := em
  obtain ⟨hlow, hhigh, hround, hsticky⟩ := h
  dsimp only at hlow hhigh hround hsticky
  rcases round with _ | _ <;> rcases sticky with _ | _ <;>
    simp only [Bool.false_eq_true, false_iff, not_le, true_iff, not_and, not_not,
      ExtendedMantissa.roundedMantissa, ExtendedMantissa.accuracy,
      Accuracy.roundToNearestEven] at hround hsticky ⊢
  · have hx : x = m := by
      by_contra hne
      linarith [hsticky hne]
    rw [hx]
    exact isNearest_self m
  · exact ⟨by linarith, by linarith, by rintro (he | he) <;> linarith⟩
  · have hx : x = m + 1 / 2 := hsticky (by linarith)
    rcases Nat.mod_two_eq_zero_or_one m with hm | hm <;> rw [hm]
    · exact ⟨by simp; linarith, by simp; linarith, fun _ => hm⟩
    · refine ⟨by push_cast; linarith, by push_cast; linarith, fun _ => by omega⟩
  · refine ⟨by push_cast; linarith, by push_cast; linarith, ?_⟩
    rintro (he | he) <;> push_cast at he
    · exact absurd (by linarith) hsticky.2
    · linarith

theorem denotes_exact (m : ℕ) : Denotes (.ofMantissaAndAccuracy m .exact) m := by
  refine ⟨le_rfl, by simp [ExtendedMantissa.ofMantissaAndAccuracy], ?_, ?_⟩ <;>
    simp [ExtendedMantissa.ofMantissaAndAccuracy]

theorem mantissa_ofMantissaAndAccuracy (m : ℕ) (accuracy : Accuracy) :
    (ExtendedMantissa.ofMantissaAndAccuracy m accuracy).mantissa = m := by
  rcases accuracy with _ | ⟨_ | _ | _⟩ <;> rfl

/-! ## Rounding -/

/-- The number from zero on becomes the other one by rounding: it is rounded to the nearest multiple
    of the unit of its binade, and beyond the doubles to the first power of two there. -/
def RoundsSize (q r : ℚ) : Prop :=
  ∃ (k : ℕ) (t : ℤ), -1074 ≤ t ∧ (-1074 < t → 2 ^ 52 ≤ q / 2 ^ t) ∧ q / 2 ^ t < 2 ^ 53 ∧
    IsNearest k (q / 2 ^ t) ∧ r = min ((k : ℚ) * 2 ^ t) overflow

/-- **Rounding keeps the order.** -/
theorem RoundsSize.mono {q q' r r' : ℚ} (h : RoundsSize q r) (h' : RoundsSize q' r') (hq : q ≤ q') :
    r ≤ r' := by
  obtain ⟨k, t, ht, hnormal, hlt, hnear, hr⟩ := h
  obtain ⟨k', t', ht', hnormal', hlt', hnear', hr'⟩ := h'
  rw [hr, hr']
  refine min_le_min ?_ le_rfl
  rcases lt_trichotomy t t' with hunit | rfl | hunit
  · -- the binade above begins where the one below ends
    have hk : (k : ℚ) ≤ 2 ^ 53 := by
      exact_mod_cast isNearest_le (n := 2 ^ 53) hnear (by push_cast; exact hlt.le)
    have hk' : (2 : ℚ) ^ 52 ≤ k' := by
      exact_mod_cast le_isNearest (n := 2 ^ 52) hnear' (by push_cast; exact hnormal' (by omega))
    calc (k : ℚ) * 2 ^ t ≤ 2 ^ 53 * 2 ^ t := by gcongr
      _ ≤ 2 ^ 52 * 2 ^ t' := two_zpow_succ_le hunit
      _ ≤ k' * 2 ^ t' := by gcongr
  · have hkk : (k : ℚ) ≤ k' := by exact_mod_cast hnear.mono hnear' (by gcongr)
    gcongr
  · -- the lower number cannot lie in the binade above
    have hge : (2 : ℚ) ^ 52 * 2 ^ t ≤ q := by
      have := hnormal (by omega)
      rwa [le_div_iff₀ (by positivity)] at this
    have hq' : q' < 2 ^ 53 * 2 ^ t' := by rwa [div_lt_iff₀ (by positivity)] at hlt'
    have := two_zpow_succ_le hunit
    linarith

theorem RoundsSize.nonneg {q r : ℚ} (h : RoundsSize q r) : 0 ≤ r := by
  obtain ⟨k, t, -, -, -, -, hr⟩ := h
  rw [hr]
  exact le_min (by positivity) overflow_pos.le

/-- The number becomes the other one by rounding, whatever its sign. -/
def Rounds (q r : ℚ) : Prop := 0 ≤ q ∧ RoundsSize q r ∨ q ≤ 0 ∧ RoundsSize (-q) (-r)

theorem rounds_zero : Rounds 0 0 :=
  .inl ⟨le_rfl, 0, -1074, le_rfl, by simp, by simp, by simpa using isNearest_self 0,
    by simp [overflow_pos.le]⟩

theorem Rounds.mono {q q' r r' : ℚ} (h : Rounds q r) (h' : Rounds q' r') (hq : q ≤ q') :
    r ≤ r' := by
  rcases h with ⟨hzero, h⟩ | ⟨hzero, h⟩ <;> rcases h' with ⟨hzero', h'⟩ | ⟨hzero', h'⟩
  · exact h.mono h' hq
  · -- both are zero
    obtain rfl : q = 0 := by linarith
    obtain rfl : q' = 0 := by linarith
    have hr : RoundsSize 0 0 := ⟨0, -1074, le_rfl, by simp, by simp,
      by simpa using isNearest_self 0, by simp [overflow_pos.le]⟩
    have hr0 : r ≤ 0 := h.mono hr le_rfl
    have hr0' : -r' ≤ 0 := h'.mono hr (by simp)
    linarith
  · have := h.nonneg
    have := h'.nonneg
    linarith
  · have := h'.mono h (by linarith)
    linarith

theorem RoundsSize.signed {q r : ℚ} (s : Sign) (hq : 0 ≤ q) (h : RoundsSize q r) :
    Rounds (signed s q) (signed s r) := by
  cases s with
  | positive => exact .inl ⟨hq, h⟩
  | negative =>
    refine .inr ⟨neg_nonpos.2 hq, ?_⟩
    show RoundsSize (- -q) (- -r)
    rwa [neg_neg, neg_neg]

/-- What a double is need not be rounded. -/
theorem IsCanonical.roundsSize {m : ℕ} {e : ℤ} (h : IsCanonical m e) :
    RoundsSize (m * 2 ^ e) (min (m * 2 ^ e) overflow) := by
  have hunit : (m * 2 ^ e : ℚ) / 2 ^ e = m := by
    rw [mul_div_assoc, div_self (by positivity), mul_one]
  refine ⟨m, e, h.ge, ?_, ?_, ?_, rfl⟩ <;> rw [hunit]
  · intro he
    exact_mod_cast h.normal.resolve_right (by omega)
  · exact_mod_cast h.lt
  · exact isNearest_self m

theorem rounds_self {u : UnpackedFloat} (hu : IsPacked u) (hfinite : IsFinite u) :
    Rounds (amount u) (amount u) := by
  rcases u with s | _ | s | ⟨s, m, e, hm⟩
  · cases hfinite
  · cases hfinite
  · exact rounds_zero
  · have hround := hu.canonical.roundsSize
    rw [min_eq_left hu.lt_overflow.le] at hround
    exact hround.signed s (by positivity)

/-! ## Rounding of mantissas -/

theorem shiftToTargetExponent_eq (m : ℕ) (e : ℤ) (accuracy : Accuracy) :
    UnpackedFloat.shiftToTargetExponent .binary64 m e accuracy =
      (ExtendedMantissa.ofMantissaAndAccuracy m accuracy >>>
        (max ((m.log2 : ℤ) + 1 + e - 53) (-1074) - e).toNat,
        e + (max ((m.log2 : ℤ) + 1 + e - 53) (-1074) - e).toNat) := rfl

/-- A mantissa that was rounded up to 54 bits is shifted once more, which loses nothing. -/
theorem canonical_shift {k : ℕ} {t : ℤ} (hk : k ≤ 2 ^ 53) (hpos : 0 < k) (ht : -1074 ≤ t)
    (hnormal : -1074 < t → 2 ^ 52 ≤ k) :
    ∃ m e, 0 < m ∧ IsCanonical m e ∧ (m * 2 ^ e : ℚ) = k * 2 ^ t ∧
      (UnpackedFloat.shiftToTargetExponent .binary64 k t .exact).1.mantissa = m ∧
      (UnpackedFloat.shiftToTargetExponent .binary64 k t .exact).2 = e := by
  have hshift : UnpackedFloat.shiftToTargetExponent .binary64 k t .exact =
      (ExtendedMantissa.ofMantissaAndAccuracy k .exact >>>
        (max ((k.log2 : ℤ) + 1 + t - 53) (-1074) - t).toNat,
        t + (max ((k.log2 : ℤ) + 1 + t - 53) (-1074) - t).toNat) := rfl
  rw [hshift]
  rcases hk.lt_or_eq with hlt | rfl
  · have hlog : k.log2 < 53 := (Nat.log2_lt hpos.ne').2 hlt
    have hnone : (max ((k.log2 : ℤ) + 1 + t - 53) (-1074) - t).toNat = 0 := by omega
    rw [hnone]
    refine ⟨k, t, hpos, ⟨hlt, ?_, ht⟩, rfl, rfl, by simp⟩
    rcases ht.lt_or_eq with ht' | ht'
    · exact .inl (hnormal ht')
    · exact .inr ht'.symm
  · have hone : (max (((2 ^ 53).log2 : ℤ) + 1 + t - 53) (-1074) - t).toNat = 1 := by
      rw [Nat.log2_two_pow]
      omega
    rw [hone]
    refine ⟨2 ^ 52, t + 1, by norm_num, ⟨by norm_num, .inl le_rfl, by omega⟩, ?_, rfl, rfl⟩
    push_cast
    rw [zpow_add₀ (by norm_num), zpow_one]
    ring

theorem mantissa_shift_zero (t : ℤ) :
    (UnpackedFloat.shiftToTargetExponent .binary64 0 t .exact).1.mantissa = 0 := by
  rw [shiftToTargetExponent_eq]
  generalize (max (((0 : ℕ).log2 : ℤ) + 1 + t - 53) (-1074) - t).toNat = n
  have hlow := ((denotes_exact 0).shiftRight n).low
  rw [Nat.cast_zero, zero_div] at hlow
  exact_mod_cast le_antisymm hlow (by positivity)

/-- A number is scaled into its binade by the unit that its mantissa asks for. -/
theorem scaled_bounds {m n : ℕ} {e t : ℤ} {x : ℚ} (hlow : (m : ℚ) ≤ x) (hhigh : x < m + 1)
    (ht : t = max ((m.log2 : ℤ) + 1 + e - 53) (-1074)) (hn : t = e + n) :
    x / 2 ^ n < 2 ^ 53 ∧ (-1074 < t → 2 ^ 52 ≤ x / 2 ^ n) := by
  constructor
  · have hm : (m + 1 : ℚ) ≤ 2 ^ (m.log2 + 1) := by exact_mod_cast Nat.lt_log2_self
    rw [div_lt_iff₀ (by positivity), ← pow_add]
    calc x < m + 1 := hhigh
      _ ≤ 2 ^ (m.log2 + 1) := hm
      _ ≤ 2 ^ (53 + n) := pow_le_pow_right₀ (by norm_num) (by omega)
  · intro hnormal
    have hpos : m ≠ 0 := by
      rintro rfl
      have : (0 : ℕ).log2 = 0 := by decide
      omega
    have hm : (2 : ℚ) ^ m.log2 ≤ m := by exact_mod_cast Nat.log2_self_le hpos
    rw [le_div_iff₀ (by positivity), ← pow_add]
    calc (2 : ℚ) ^ (52 + n) = 2 ^ m.log2 := by congr 1; omega
      _ ≤ m := hm
      _ ≤ x := hlow

/-- **Rounding a mantissa that tells enough** rounds the number that it denotes. -/
theorem rounds_roundWithAccuracy {m : ℕ} {e : ℤ} {accuracy : Accuracy} {x : ℚ} (s : Sign)
    (hx : Denotes (.ofMantissaAndAccuracy m accuracy) x)
    (he : e ≤ max ((m.log2 : ℤ) + 1 + e - 53) (-1074)) :
    Rounds (signed s (x * 2 ^ e))
        (amount (stored (.roundWithAccuracy .binary64 s m e accuracy))) ∧
      stored (.roundWithAccuracy .binary64 s m e accuracy) ≠ .notANumber := by
  -- the first shift leaves the exponent at its target
  obtain ⟨t, ht⟩ : ∃ t, t = max ((m.log2 : ℤ) + 1 + e - 53) (-1074) := ⟨_, rfl⟩
  obtain ⟨n, hn⟩ : ∃ n : ℕ, t = e + n := ⟨(t - e).toNat, by omega⟩
  have hshift : UnpackedFloat.shiftToTargetExponent .binary64 m e accuracy =
      (ExtendedMantissa.ofMantissaAndAccuracy m accuracy >>> n, t) := by
    have hamount : (t - e).toNat = n := by omega
    rw [shiftToTargetExponent_eq, ← ht, hamount, hn]
  have hunit : x * 2 ^ e / 2 ^ t = x / 2 ^ n := by
    rw [hn, zpow_add₀ (by norm_num), zpow_natCast]
    field_simp
  have hlow := hx.low
  have hhigh := hx.high
  rw [mantissa_ofMantissaAndAccuracy] at hlow hhigh
  obtain ⟨hlt, hnormal⟩ := scaled_bounds hlow hhigh ht hn
  obtain ⟨k, hk⟩ : ∃ k, k =
    (ExtendedMantissa.ofMantissaAndAccuracy m accuracy >>> n).roundedMantissa := ⟨_, rfl⟩
  have hnear : IsNearest k (x / 2 ^ n) := hk ▸ (hx.shiftRight n).isNearest
  have hx0 : 0 ≤ x := le_trans (by positivity) hlow
  have hround : Rounds (signed s (x * 2 ^ e)) (signed s (min (k * 2 ^ t) overflow)) :=
    RoundsSize.signed s (by positivity)
      ⟨k, t, by omega, by rwa [hunit], by rwa [hunit], by rwa [hunit], rfl⟩
  rw [UnpackedFloat.roundWithAccuracy, hshift]
  dsimp only
  rw [← hk]
  rcases Nat.eq_zero_or_pos k with rfl | hpos
  · rw [dif_pos (mantissa_shift_zero t), stored_zero]
    have hzero : min (((0 : ℕ) : ℚ) * 2 ^ t) overflow = 0 := by simp [overflow_pos.le]
    rw [hzero] at hround
    exact ⟨by cases s <;> simpa [amount, signed] using hround, by simp⟩
  · have hk53 : k ≤ 2 ^ 53 := isNearest_le hnear (by push_cast; exact hlt.le)
    have hk52 (h : -1074 < t) : 2 ^ 52 ≤ k :=
      le_isNearest hnear (by push_cast; exact hnormal h)
    obtain ⟨m', e', hm', hcanonical, hsame, hmantissa, hexponent⟩ :=
      canonical_shift hk53 hpos (by omega) hk52
    simp only [hmantissa, hexponent, dif_neg hm'.ne']
    rw [amount_stored hcanonical, hsame]
    exact ⟨hround, stored_ne_notANumber hcanonical⟩

theorem log2_shiftLeft {n : ℕ} (hn : 0 < n) (k : ℕ) : (n <<< k).log2 = n.log2 + k := by
  have hpos : n <<< k ≠ 0 := by
    rw [Nat.shiftLeft_eq]
    positivity
  rw [Nat.log2_eq_iff hpos, Nat.shiftLeft_eq]
  constructor
  · rw [pow_add]
    exact Nat.mul_le_mul_right _ (Nat.log2_self_le hn.ne')
  · rw [Nat.add_right_comm, pow_add]
    exact Nat.mul_lt_mul_of_pos_right Nat.lt_log2_self (Nat.two_pow_pos k)

/-- A mantissa that is shifted to a lower exponent stands for the same number. -/
theorem shiftLeft_mul_zpow (n k : ℕ) (e : ℤ) :
    ((n <<< k : ℕ) : ℚ) * 2 ^ (e - k) = n * 2 ^ e := by
  rw [Nat.shiftLeft_eq, zpow_sub₀ (by norm_num), zpow_natCast]
  push_cast
  field_simp

theorem rounds_round {n : ℕ} (hn : 0 < n) (s : Sign) (e : ℤ) :
    Rounds (signed s (n * 2 ^ e)) (amount (stored (.round .binary64 s n e))) ∧
      stored (.round .binary64 s n e) ≠ .notANumber := by
  obtain ⟨k, hk⟩ : ∃ k, k = (e - max ((n.log2 : ℤ) + 1 + e - 53) (-1074)).toNat := ⟨_, rfl⟩
  have hround : UnpackedFloat.round .binary64 s n e =
      .roundWithAccuracy .binary64 s (n <<< k) (e - k) .exact := by rw [hk]; rfl
  rw [hround, ← shiftLeft_mul_zpow n k e]
  exact rounds_roundWithAccuracy s (denotes_exact _) (by rw [log2_shiftLeft hn]; push_cast; omega)

theorem rounds_normalize (n e : ℤ) (zero : Sign) :
    Rounds (n * 2 ^ e) (amount (stored (.normalize .binary64 n e zero))) ∧
      stored (.normalize .binary64 n e zero) ≠ .notANumber := by
  rw [UnpackedFloat.normalize]
  split
  · next h =>
    rw [compare_lt_iff_lt] at h
    have hn : ((-n).toNat : ℤ) = -n := by omega
    have hq : (n * 2 ^ e : ℚ) = signed .negative ((-n).toNat * 2 ^ e) := by
      rw [signed, ← Int.cast_natCast, hn]
      push_cast
      ring
    rw [hq]
    exact rounds_round (by omega) _ _
  · next h =>
    rw [compare_eq_iff_eq] at h
    rw [stored_zero, h]
    exact ⟨by simpa [amount] using rounds_zero, nofun⟩
  · next h =>
    rw [compare_gt_iff_gt] at h
    have hn : (n.toNat : ℤ) = n := by omega
    have hq : (n * 2 ^ e : ℚ) = signed .positive (n.toNat * 2 ^ e) := by
      rw [signed, ← Int.cast_natCast, hn]
    rw [hq]
    exact rounds_round (by omega) _ _

end VectorStore.Number
