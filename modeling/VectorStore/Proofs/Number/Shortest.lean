/-
  The shortest decimal of a double.

  * `ten_zpow_near`: powers of ten are compared with powers of two by the logarithm of two to five
    places;
  * `holds_around_iff`: the interval around a double holds the numbers that round to it;
  * `Interval.magnitude_spec`: a value has no fewer digits before its point than are guessed, so
    17 digits are enough (`roundsTo_of_seventeen`);
  * `shortest_spec`: the shortest decimal is found, and rounds to the double.
-/
import VectorStore.Number.Shortest
import VectorStore.Proofs.Number.Nearest

namespace VectorStore.Number

/-! ## Powers of two and of ten -/

theorem two_pow_le_ten_pow : 2 ^ 100000 ≤ 10 ^ 30103 ∧ 10 ^ 30103 ≤ 2 * 2 ^ 100000 := by
  decide +kernel

/-- A power of a number that is between another and its double. -/
theorem zpow_le_of_le_two_mul {a b : ℚ} (ha : 0 < a) (hab : a ≤ b) (hba : b ≤ 2 * a) (n : ℤ) :
    b ^ n ≤ a ^ n * 2 ^ n.natAbs ∧ a ^ n ≤ b ^ n * 2 ^ n.natAbs := by
  have hb : 0 < b := ha.trans_le hab
  have hone : ∀ k : ℕ, (1 : ℚ) ≤ 2 ^ k := fun k => one_le_pow₀ (by norm_num)
  obtain ⟨k, rfl | rfl⟩ := n.eq_nat_or_neg
  · simp only [zpow_natCast, Int.natAbs_natCast]
    constructor
    · rw [← mul_pow, mul_comm a]
      gcongr
    · calc a ^ k ≤ b ^ k := by gcongr
        _ ≤ b ^ k * 2 ^ k := le_mul_of_one_le_right (by positivity) (hone k)
  · simp only [zpow_neg, zpow_natCast, Int.natAbs_neg, Int.natAbs_natCast]
    constructor
    · calc (b ^ k)⁻¹ ≤ (a ^ k)⁻¹ := by gcongr
        _ ≤ (a ^ k)⁻¹ * 2 ^ k := le_mul_of_one_le_right (by positivity) (hone k)
    · rw [inv_le_iff_one_le_mul₀ (by positivity), mul_comm _ (2 ^ k : ℚ), mul_comm, ← mul_assoc,
        ← mul_pow, mul_comm a, ← div_eq_mul_inv, one_le_div (by positivity)]
      gcongr

/-- A power of ten is compared with one of two by a quotient near the logarithm of two. -/
theorem zpow_near {k l : ℕ} (hl : 0 < l) (hlow : (2 : ℚ) ^ l ≤ 10 ^ k)
    (hhigh : (10 : ℚ) ^ k ≤ 2 * 2 ^ l) {n : ℤ} (hn : n.natAbs ≤ l) :
    (10 : ℚ) ^ (n * k / l) ≤ 2 ^ (n + 1) ∧ (2 : ℚ) ^ (n - 1) ≤ 10 ^ (n * k / l + 1) := by
  obtain ⟨hten, htwo⟩ := zpow_le_of_le_two_mul (by positivity) hlow hhigh n
  have hl' : (0 : ℤ) < l := by exact_mod_cast hl
  have hfloor : n * k / l * l ≤ n * k := Int.ediv_mul_le _ hl'.ne'
  have hceil : n * k ≤ (n * k / l + 1) * l := (Int.lt_ediv_add_one_mul_self _ hl').le
  have habs : (2 : ℚ) ^ n.natAbs ≤ 2 ^ l := by gcongr; norm_num
  rw [← zpow_natCast (10 : ℚ), ← zpow_natCast (2 : ℚ) l, ← zpow_mul, ← zpow_mul, mul_comm (k : ℤ),
    mul_comm (l : ℤ)] at hten htwo
  constructor
  · rw [← pow_le_pow_iff_left₀ (by positivity) (by positivity) hl.ne', ← zpow_natCast,
      ← zpow_natCast, ← zpow_mul, ← zpow_mul]
    calc (10 : ℚ) ^ (n * k / l * l) ≤ 10 ^ (n * k) := by gcongr; norm_num
      _ ≤ 2 ^ (n * l) * 2 ^ n.natAbs := hten
      _ ≤ 2 ^ (n * l) * 2 ^ l := by gcongr
      _ = 2 ^ ((n + 1) * l) := by
        rw [add_mul, one_mul, zpow_add₀ (by norm_num), zpow_natCast]
  · rw [← pow_le_pow_iff_left₀ (by positivity) (by positivity) hl.ne', ← zpow_natCast,
      ← zpow_natCast, ← zpow_mul, ← zpow_mul]
    calc (2 : ℚ) ^ ((n - 1) * l) = 2 ^ (n * l) / 2 ^ l := by
          rw [sub_mul, one_mul, zpow_sub₀ (by norm_num), zpow_natCast]
      _ ≤ 10 ^ (n * k) * 2 ^ n.natAbs / 2 ^ l := by gcongr
      _ ≤ 10 ^ (n * k) * 2 ^ l / 2 ^ l := by gcongr
      _ = 10 ^ (n * k) := mul_div_cancel_right₀ _ (by positivity)
      _ ≤ 10 ^ ((n * k / l + 1) * l) := by gcongr; norm_num

/-- **The powers of ten near a power of two**, by the logarithm of two to five places. -/
theorem ten_zpow_near {n : ℤ} (hn : n.natAbs ≤ 100000) :
    (10 : ℚ) ^ (n * 30103 / 100000) ≤ 2 ^ (n + 1) ∧
      (2 : ℚ) ^ (n - 1) ≤ 10 ^ (n * 30103 / 100000 + 1) := by
  obtain ⟨hlow, hhigh⟩ := two_pow_le_ten_pow
  refine zpow_near (k := 30103) (l := 100000) (by decide) ?_ ?_ hn
  · exact_mod_cast hlow
  · exact_mod_cast hhigh

/-! ## The interval around a double -/

variable {m : ℕ} {e : ℤ}

/-- A power as a fraction of natural numbers. -/
theorem cast_pow_toNat (b : ℕ) (hb : (b : ℚ) ≠ 0) (e : ℤ) :
    ((if 0 ≤ e then Nat.pow b e.toNat else 1 : ℕ) : ℚ) =
      b ^ e * ((if 0 ≤ e then 1 else Nat.pow b (-e).toNat : ℕ) : ℚ) := by
  split
  · next he =>
    obtain ⟨k, rfl⟩ := Int.eq_ofNat_of_zero_le he
    simp [Nat.pow_eq]
  · next he =>
    obtain ⟨k, hk⟩ := Int.eq_ofNat_of_zero_le (a := -e) (by omega)
    obtain rfl : e = -k := by omega
    simp [Nat.pow_eq, hb]

/-- An interval holds the numbers between its ends, and the ends if it is closed. -/
theorem Interval.holds_iff {i : Interval} (hden : 0 < i.den) {c : ℕ} {t : ℤ} {q : ℚ}
    (hq : q = c * 10 ^ t) : i.holds c t = true ↔
      (i.low / i.den : ℚ) ≤ q ∧ q ≤ i.high / i.den ∧
        (q = i.low / i.den ∨ q = i.high / i.den → i.closed = true) := by
  obtain ⟨low, value, high, den, closed⟩ := i
  have hden' : (0 : ℚ) < den := by exact_mod_cast hden
  have hten := cast_pow_toNat 10 (by norm_num) t
  obtain ⟨scale, hscale⟩ : ∃ s : ℕ, (if 0 ≤ t then 1 else Nat.pow 10 (-t).toNat) = s := ⟨_, rfl⟩
  obtain ⟨x, hx⟩ : ∃ x, (if 0 ≤ t then c * Nat.pow 10 t.toNat * den else c * den) = x := ⟨_, rfl⟩
  have hpos : (0 : ℚ) < scale := by
    rw [← hscale]
    split
    · norm_num
    · simp [Nat.pow_eq]
  have hxq : (x : ℚ) = q * (den * scale) := by
    have hpower : x = c * (if 0 ≤ t then Nat.pow 10 t.toNat else 1) * den := by
      rw [← hx]
      split <;> simp
    rw [hpower, Nat.cast_mul, Nat.cast_mul, hten, hscale, hq]
    push_cast
    ring
  have hbound (a : ℕ) : (a * scale : ℚ) = a / den * (den * scale) := by
    field_simp
  have hprod : (0 : ℚ) < den * scale := by positivity
  have hlow : low * scale ≤ x ↔ (low / den : ℚ) ≤ q := by
    rw [← Nat.cast_le (α := ℚ), Nat.cast_mul, hbound, hxq, mul_le_mul_iff_left₀ hprod]
  have hlow' : low * scale < x ↔ (low / den : ℚ) < q := by
    rw [← Nat.cast_lt (α := ℚ), Nat.cast_mul, hbound, hxq, mul_lt_mul_iff_left₀ hprod]
  have hhigh : x ≤ high * scale ↔ q ≤ (high / den : ℚ) := by
    rw [← Nat.cast_le (α := ℚ), Nat.cast_mul, hbound, hxq, mul_le_mul_iff_left₀ hprod]
  have hhigh' : x < high * scale ↔ q < (high / den : ℚ) := by
    rw [← Nat.cast_lt (α := ℚ), Nat.cast_mul, hbound, hxq, mul_lt_mul_iff_left₀ hprod]
  simp only [Interval.holds, hscale, hx]
  cases closed
  · simp only [Bool.false_eq_true, if_false, Bool.and_eq_true, decide_eq_true_eq, hlow', hhigh',
      imp_false, not_or]
    constructor
    · rintro ⟨h1, h2⟩
      exact ⟨h1.le, h2.le, h1.ne', h2.ne⟩
    · rintro ⟨h1, h2, h3, h4⟩
      exact ⟨lt_of_le_of_ne h1 (Ne.symm h3), lt_of_le_of_ne h2 h4⟩
  · simp only [if_true, Bool.and_eq_true, decide_eq_true_eq, hlow, hhigh, implies_true, and_true]

/-- What the interval around a double is made of. -/
theorem around_spec (hm : 0 < m) : 0 < (around m e).den ∧
    ((around m e).low / (around m e).den : ℚ) = (m - reach m e) * 2 ^ e ∧
    ((around m e).value / (around m e).den : ℚ) = m * 2 ^ e ∧
    ((around m e).high / (around m e).den : ℚ) = (m + 1 / 2) * 2 ^ e ∧
    ((around m e).closed = true ↔ m % 2 = 0) := by
  have htwo := cast_pow_toNat 2 (by norm_num) e
  rw [around]
  generalize (if 0 ≤ e then Nat.pow 2 e.toNat else 1) = up at *
  have hdown : 0 < (if 0 ≤ e then 1 else Nat.pow 2 (-e).toNat) := by
    split
    · norm_num
    · simp [Nat.pow_eq]
  generalize (if 0 ≤ e then 1 else Nat.pow 2 (-e).toNat) = down at *
  have hdown' : (0 : ℚ) < down := by exact_mod_cast hdown
  refine ⟨Nat.mul_pos (by decide) hdown, ?_, ?_, ?_, by simp⟩
  · have hle : (if m = Nat.pow 2 52 ∧ -1074 < e then 1 else 2) ≤ 4 * m := by split <;> omega
    have hreach : ((if m = Nat.pow 2 52 ∧ -1074 < e then 1 else 2 : ℕ) : ℚ) = 4 * reach m e := by
      rw [reach, Nat.pow_eq]
      split_ifs <;> norm_num
    rw [Nat.cast_mul, Nat.cast_sub hle, hreach, htwo]
    push_cast
    field_simp
  · push_cast
    rw [htwo]
    push_cast
    field_simp
  · push_cast
    rw [htwo]
    push_cast
    field_simp
    ring

theorem value_around_pos (hm : 0 < m) : 0 < (around m e).value := by
  obtain ⟨-, -, hvalue, -⟩ := around_spec (e := e) hm
  have hm' : (0 : ℚ) < m := by exact_mod_cast hm
  have hpos : (0 : ℚ) < m * 2 ^ e := by positivity
  rw [Nat.pos_iff_ne_zero]
  intro h
  rw [h, Nat.cast_zero, zero_div] at hvalue
  exact hpos.ne hvalue

/-- **The interval around a double holds the numbers that round to it.** -/
theorem holds_around_iff (hm : 0 < m) {c : ℕ} {t : ℤ} :
    (around m e).holds c t = true ↔ RoundsTo m e (c * 10 ^ t) := by
  obtain ⟨hden, hlow, -, hhigh, hclosed⟩ := around_spec (e := e) hm
  have hpow : (0 : ℚ) < 2 ^ e := by positivity
  rw [Interval.holds_iff hden rfl, hlow, hhigh, hclosed]
  generalize (c * 10 ^ t : ℚ) = q
  constructor
  · rintro ⟨h1, h2, h3⟩
    refine ⟨(le_div_iff₀ hpow).2 h1, (div_le_iff₀ hpow).2 h2, ?_⟩
    rw [div_eq_iff hpow.ne', div_eq_iff hpow.ne']
    exact h3
  · rintro ⟨h1, h2, h3⟩
    rw [div_eq_iff hpow.ne', div_eq_iff hpow.ne'] at h3
    exact ⟨(le_div_iff₀ hpow).1 h1, (div_le_iff₀ hpow).1 h2, h3⟩

/-! ## Decimals inside the interval -/

namespace Interval

variable {i : Interval} {t : ℤ}

/-- The logarithm of ten that is guessed from those of two. -/
def guess (i : Interval) : ℤ := (((i.value.log2 : ℤ) - i.den.log2) * 30103) / 100000 - 1

/-- **A value has no fewer digits before its point than its magnitude says.** -/
theorem magnitude_spec (hvalue : 0 < i.value) (hden : 0 < i.den)
    (hrange : ((i.value.log2 : ℤ) - i.den.log2).natAbs ≤ 100000) :
    (10 : ℚ) ^ (i.magnitude - 1) ≤ i.value / i.den ∧ i.guess ≤ i.magnitude := by
  have hden' : (0 : ℚ) < i.den := by exact_mod_cast hden
  have hreaches (k : ℤ) : (if 0 ≤ k then decide (i.value < i.den * Nat.pow 10 k.toNat)
      else decide (i.value * Nat.pow 10 (-k).toNat < i.den)) = true ↔
        (i.value / i.den : ℚ) < 10 ^ k := by
    rw [div_lt_iff₀ hden']
    split
    · next hk =>
      obtain ⟨n, rfl⟩ := Int.eq_ofNat_of_zero_le hk
      simp only [decide_eq_true_eq, Nat.pow_eq, Int.toNat_natCast, zpow_natCast]
      rw [mul_comm]
      exact_mod_cast Iff.rfl
    · next hk =>
      obtain ⟨n, hn⟩ := Int.eq_ofNat_of_zero_le (a := -k) (by omega)
      obtain rfl : k = -n := by omega
      simp only [decide_eq_true_eq, Nat.pow_eq, neg_neg, Int.toNat_natCast, zpow_neg,
        zpow_natCast]
      rw [inv_mul_eq_div, lt_div_iff₀ (by positivity)]
      exact_mod_cast Iff.rfl
  rw [magnitude]
  dsimp only
  rw [show (((i.value.log2 : ℤ) - i.den.log2) * 30103) / 100000 - 1 = i.guess from rfl]
  simp only [hreaches]
  split
  · -- the guess is not too high
    refine ⟨?_, le_refl _⟩
    obtain ⟨hten, -⟩ := ten_zpow_near hrange
    obtain ⟨htwo, -⟩ := log2_sub_log2 hvalue.ne' hden.ne'
    rw [guess]
    generalize (i.value.log2 : ℤ) - i.den.log2 = n at hten htwo ⊢
    refine le_of_lt (lt_of_le_of_lt ?_ htwo)
    calc (10 : ℚ) ^ (n * 30103 / 100000 - 1 - 1) = 10 ^ (n * 30103 / 100000) / 100 := by
          rw [zpow_sub₀ (by norm_num), zpow_sub₀ (by norm_num), zpow_one]
          ring
      _ ≤ 2 ^ (n + 1) / 100 := by gcongr
      _ ≤ 2 ^ (n - 1) := by
        rw [zpow_add₀ (by norm_num), zpow_sub₀ (by norm_num), zpow_one]
        have : (0 : ℚ) < 2 ^ n := by positivity
        linarith
  · next hguess =>
    split
    · exact ⟨by simpa using hguess, by omega⟩
    · next hguess =>
      split
      · refine ⟨?_, by omega⟩
        rw [show i.guess + 2 - 1 = i.guess + 1 by ring]
        exact not_lt.1 hguess
      · next hguess =>
        refine ⟨?_, by omega⟩
        rw [show i.guess + 3 - 1 = i.guess + 2 by ring]
        exact not_lt.1 hguess

/-- What is found on a grid is on it, and inside the interval. -/
theorem holds_of_onGrid {d : Digits} (h : i.onGrid t = some d) :
    i.holds d.digits d.exponent = true ∧ d.exponent = t := by
  rw [onGrid] at h
  generalize (if 0 ≤ t then i.value else i.value * Nat.pow 10 (-t).toNat) = num at h
  generalize (if 0 ≤ t then i.den * Nat.pow 10 t.toNat else i.den) = den at h
  generalize (if 2 * (num % den) < den ∨ (2 * (num % den) = den ∧ num / den % 2 = 0) then
    num / den else num / den + 1) = nearer at h
  split at h
  · next hin =>
    cases h
    exact ⟨hin, rfl⟩
  · split at h
    · next hin =>
      cases h
      exact ⟨hin, rfl⟩
    · split at h
      · next hin =>
        cases h
        exact ⟨hin, rfl⟩
      · cases h

/-- The nearer of the two integers next to a fraction is the fraction rounded. -/
theorem nearer_eq_roundDiv (num den : ℕ) :
    (if 2 * (num % den) < den ∨ (2 * (num % den) = den ∧ num / den % 2 = 0) then num / den
      else num / den + 1) = roundDiv num den := by
  rw [roundDiv]
  split_ifs <;> omega

theorem abs_roundDiv_sub_le (num : ℕ) {den : ℕ} (hden : 0 < den) :
    |(roundDiv num den : ℚ) - num / den| ≤ 1 / 2 := by
  have hden' : (0 : ℚ) < den := by exact_mod_cast hden
  have hlow : (2 * num : ℚ) ≤ 2 * (roundDiv num den * den) + den := by
    exact_mod_cast le_two_mul_roundDiv hden
  have hhigh : (2 * (roundDiv num den * den) : ℚ) ≤ 2 * num + den := by
    exact_mod_cast two_mul_roundDiv_le
  have hle : (num / den : ℚ) ≤ roundDiv num den + 1 / 2 := by
    rw [div_le_iff₀ hden']
    linarith
  have hge : (roundDiv num den : ℚ) - 1 / 2 ≤ num / den := by
    rw [le_div_iff₀ hden']
    linarith
  rw [abs_le]
  constructor <;> linarith

/-- **Something is found on a grid if the interval holds the number on it that is nearest.** -/
theorem isSome_onGrid (hden : 0 < i.den)
    (h : ∀ c : ℕ, |c * 10 ^ t - (i.value / i.den : ℚ)| ≤ 10 ^ t / 2 → i.holds c t = true) :
    (i.onGrid t).isSome = true := by
  have hten := cast_pow_toNat 10 (by norm_num) t
  obtain ⟨num, hnum⟩ : ∃ n, (if 0 ≤ t then i.value else i.value * Nat.pow 10 (-t).toNat) = n :=
    ⟨_, rfl⟩
  obtain ⟨den, hd⟩ : ∃ d, (if 0 ≤ t then i.den * Nat.pow 10 t.toNat else i.den) = d := ⟨_, rfl⟩
  have hpos : 0 < den := by
    rw [← hd]
    split
    · exact Nat.mul_pos hden (by simp [Nat.pow_eq])
    · exact hden
  have hquot : (num / den : ℚ) = i.value / i.den / 10 ^ t := by
    have hn : num = i.value * (if 0 ≤ t then 1 else Nat.pow 10 (-t).toNat) := by
      rw [← hnum]
      split <;> simp
    have hd' : den = i.den * (if 0 ≤ t then Nat.pow 10 t.toNat else 1) := by
      rw [← hd]
      split <;> simp
    have hscale : ((if 0 ≤ t then 1 else Nat.pow 10 (-t).toNat : ℕ) : ℚ) ≠ 0 := by
      split <;> simp [Nat.pow_eq]
    rw [hn, hd', Nat.cast_mul, Nat.cast_mul, hten, div_div, mul_comm ((10 : ℕ) ^ t : ℚ),
      ← mul_assoc, mul_comm (i.den : ℚ), mul_assoc, mul_comm, mul_div_mul_left _ _ hscale]
    norm_num
  rw [onGrid, hnum, hd, nearer_eq_roundDiv, if_pos]
  · rfl
  · apply h
    have hnear := abs_roundDiv_sub_le num hpos
    have hpow : (0 : ℚ) < 10 ^ t := by positivity
    rw [hquot] at hnear
    calc |(roundDiv num den : ℚ) * 10 ^ t - i.value / i.den|
        = |(roundDiv num den : ℚ) - i.value / i.den / 10 ^ t| * 10 ^ t := by
          rw [← abs_of_pos hpow, ← abs_mul, abs_of_pos hpow, sub_mul, div_mul_cancel₀ _ hpow.ne']
      _ ≤ 1 / 2 * 10 ^ t := by gcongr
      _ = 10 ^ t / 2 := by ring

end Interval

/-! ## The shortest decimal -/

/-- Taking zeros off the end keeps the decimal. -/
theorem Digits.stripped_spec (fuel : ℕ) (d : Digits) :
    ((d.stripped fuel).digits * 10 ^ (d.stripped fuel).exponent : ℚ) =
      d.digits * 10 ^ d.exponent ∧ d.exponent ≤ (d.stripped fuel).exponent := by
  induction fuel generalizing d with
  | zero => exact ⟨rfl, le_refl _⟩
  | succ fuel ih =>
    rw [stripped]
    split
    · next h =>
      obtain ⟨hvalue, hle⟩ := ih ⟨d.digits / 10, d.exponent + 1⟩
      refine ⟨?_, by simp at hle; omega⟩
      have hten : d.digits = d.digits / 10 * 10 := by omega
      rw [hvalue]
      dsimp only
      rw [zpow_add₀ (by norm_num), zpow_one]
      conv_rhs => rw [hten]
      push_cast
      ring
    · exact ⟨rfl, le_refl _⟩

/-- The value of a double is between the least one and the power of two beyond the greatest. -/
theorem double_bounds (hd : IsDouble m e) (hm : 0 < m) :
    (2 : ℚ) ^ (-1074 : ℤ) ≤ m * 2 ^ e ∧ (m * 2 ^ e : ℚ) < 2 ^ (1024 : ℤ) := by
  have hone : (1 : ℚ) ≤ m := by exact_mod_cast hm
  have htop : (m : ℚ) < 2 ^ (53 : ℤ) := by exact_mod_cast hd.lt
  have hge := hd.ge
  have hle := hd.le
  constructor
  · calc (2 : ℚ) ^ (-1074 : ℤ) ≤ 2 ^ e := by gcongr; norm_num
      _ ≤ m * 2 ^ e := le_mul_of_one_le_left (by positivity) hone
  · calc (m * 2 ^ e : ℚ) < 2 ^ (53 : ℤ) * 2 ^ e := by gcongr
      _ = 2 ^ (53 + e) := by rw [zpow_add₀ (by norm_num)]
      _ ≤ 2 ^ (1024 : ℤ) := by gcongr <;> [norm_num; omega]

/-- The logarithm of a value by those of its parts is that of a double. -/
theorem log2_around (hd : IsDouble m e) (hm : 0 < m) :
    -1076 < ((around m e).value.log2 : ℤ) - (around m e).den.log2 ∧
      ((around m e).value.log2 : ℤ) - (around m e).den.log2 < 1025 := by
  obtain ⟨hden, -, hvalue, -⟩ := around_spec (e := e) hm
  obtain ⟨hmin, hmax⟩ := double_bounds hd hm
  obtain ⟨hlow, hhigh⟩ := log2_sub_log2 (value_around_pos hm).ne' hden.ne'
  rw [hvalue] at hlow hhigh
  have h1 := (zpow_lt_zpow_iff_right₀ (by norm_num)).1 (hlow.trans hmax)
  have h2 := (zpow_lt_zpow_iff_right₀ (by norm_num)).1 (hmin.trans_lt hhigh)
  omega

/-- With 17 digits the number nearest to a double rounds to it. -/
theorem roundsTo_of_seventeen (hd : IsDouble m e) {k : ℤ}
    (hk : (10 : ℚ) ^ (k - 1) ≤ m * 2 ^ e) {q : ℚ}
    (hq : |q - m * 2 ^ e| ≤ 10 ^ (k - 17) / 2) : RoundsTo m e q := by
  have hpow : (0 : ℚ) < 2 ^ e := by positivity
  have htop : (m : ℚ) < 2 ^ 53 := by exact_mod_cast hd.lt
  have hstep : (10 : ℚ) ^ (k - 17) = 10 ^ (k - 1) / 10 ^ 16 := by
    rw [show k - 17 = k - 1 - 16 by ring, zpow_sub₀ (by norm_num)]
    rfl
  have hclose : |q / 2 ^ e - m| ≤ m / (2 * 10 ^ 16) := by
    rw [← mul_le_mul_iff_left₀ hpow, ← abs_of_pos hpow, ← abs_mul, abs_of_pos hpow, sub_mul,
      div_mul_cancel₀ _ hpow.ne']
    refine hq.trans ?_
    rw [hstep]
    linarith
  have hreach : (m / (2 * 10 ^ 16) : ℚ) < reach m e := by
    rw [reach]
    split
    · next h =>
      rw [h.1]
      norm_num
    · linarith
  have hhalf := reach_le m e
  obtain ⟨hlow, hhigh⟩ := abs_le.1 hclose
  refine ⟨by linarith, by linarith, ?_⟩
  rintro (hend | hend) <;> linarith

/-- **The shortest decimal of a double rounds to it.** -/
theorem shortest_spec (hd : IsDouble m e) (hm : 0 < m) :
    RoundsTo m e ((shortest m e).digits * 10 ^ (shortest m e).exponent) ∧
      -350 ≤ (shortest m e).exponent := by
  obtain ⟨hden, -, hvalue, -⟩ := around_spec (e := e) hm
  obtain ⟨hmin, hmax⟩ := log2_around hd hm
  obtain ⟨hmagnitude, hguess⟩ := Interval.magnitude_spec (value_around_pos hm) hden (by omega)
  rw [hvalue] at hmagnitude
  rw [Interval.guess] at hguess
  rw [shortest]
  generalize (around m e).magnitude = k at hmagnitude hguess
  obtain ⟨d, hfound⟩ : ∃ d, (List.range 17).findSome?
      (fun (n : ℕ) => (around m e).onGrid (k - ((n : ℤ) + 1))) = some d := by
    rw [← Option.isSome_iff_exists, List.findSome?_isSome_iff]
    refine ⟨16, by simp, ?_⟩
    rw [show k - (((16 : ℕ) : ℤ) + 1) = k - 17 by norm_num]
    refine Interval.isSome_onGrid hden fun c hc => (holds_around_iff hm).2 ?_
    rw [hvalue] at hc
    exact roundsTo_of_seventeen hd hmagnitude hc
  rw [hfound, Option.getD_some]
  obtain ⟨n, hn, hgrid⟩ := List.exists_of_findSome?_eq_some hfound
  obtain ⟨hholds, hexponent⟩ := Interval.holds_of_onGrid hgrid
  obtain ⟨hsame, hle⟩ := d.stripped_spec 400
  rw [hsame]
  refine ⟨(holds_around_iff hm).1 hholds, ?_⟩
  have hlt := List.mem_range.1 hn
  omega

end VectorStore.Number
