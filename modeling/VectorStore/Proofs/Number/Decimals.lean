/-
  Decimals read as doubles.

  * `RoundsTo.bounds`: what rounds to a double is within the range of the doubles, so the size that
    is guessed for a decimal does not take it for one beyond (`size_bounds`);
  * `decimalToFloat_of_roundsTo`: a decimal that rounds to a double is read as the double.
-/
import VectorStore.Number.Reader
import VectorStore.Proofs.Number.Shortest

namespace VectorStore.Number

/-! ## Decimals that round to a double -/

/-- Powers of ten beyond the range of the doubles. -/
theorem power_bounds : (2 : ℚ) ^ (1025 : ℤ) ≤ 10 ^ (320 : ℤ) ∧
    (10 : ℚ) ^ (-350 : ℤ) ≤ 2 ^ (-1077 : ℤ) ∧ (10 : ℚ) ^ (350 : ℤ) ≤ 2 ^ (1400 : ℤ) := by
  have h1 : 2 ^ 1025 ≤ 10 ^ 320 := by decide +kernel
  have h2 : 2 ^ 1077 ≤ 10 ^ 350 := by decide +kernel
  have h3 : 10 ^ 350 ≤ 2 ^ 1400 := by decide +kernel
  refine ⟨by exact_mod_cast h1, ?_, by exact_mod_cast h3⟩
  rw [zpow_neg, zpow_neg, inv_le_inv₀ (by positivity) (by positivity)]
  exact_mod_cast h2

variable {m c : ℕ} {e t : ℤ}

/-- What rounds to a double is within its range. -/
theorem RoundsTo.bounds (hd : IsDouble m e) (hm : 0 < m) {q : ℚ} (h : RoundsTo m e q) :
    (2 : ℚ) ^ (-1075 : ℤ) ≤ q ∧ q ≤ 2 ^ (1024 : ℤ) := by
  have hpow : (0 : ℚ) < 2 ^ e := by positivity
  have hone : (1 : ℚ) ≤ m := by exact_mod_cast hm
  have htop : (m : ℚ) + 1 ≤ 2 ^ (53 : ℤ) := by exact_mod_cast hd.lt
  have hge := hd.ge
  have hle := hd.le
  have hlow := (le_div_iff₀ hpow).1 h.low
  have hhigh := (div_le_iff₀ hpow).1 h.high
  have hreach := reach_le m e
  constructor
  · calc (2 : ℚ) ^ (-1075 : ℤ) = 1 / 2 * 2 ^ (-1074 : ℤ) := by
          rw [show (-1075 : ℤ) = -1074 - 1 by norm_num, zpow_sub₀ (by norm_num), zpow_one]
          ring
      _ ≤ 1 / 2 * 2 ^ e := by gcongr; norm_num
      _ ≤ (m - reach m e) * 2 ^ e := by gcongr; linarith
      _ ≤ q := hlow
  · calc q ≤ (m + 1 / 2) * 2 ^ e := hhigh
      _ ≤ 2 ^ (53 : ℤ) * 2 ^ e := by gcongr; linarith
      _ = 2 ^ (53 + e) := by rw [zpow_add₀ (by norm_num)]
      _ ≤ 2 ^ (1024 : ℤ) := by gcongr <;> [norm_num; omega]

/-- A decimal that rounds to a positive double is not zero. -/
theorem RoundsTo.digits_ne_zero (hm : 0 < m) (h : RoundsTo m e (c * 10 ^ t)) : c ≠ 0 := by
  rintro rfl
  have := h.pos hm
  simp at this

/-- A decimal that rounds to a double has no size out of range. -/
theorem size_bounds (hd : IsDouble m e) (hm : 0 < m) (h : RoundsTo m e (c * 10 ^ t))
    (ht : -350 ≤ t) :
    (c.log2 : ℤ) * 30103 / 100000 + t ≤ 320 ∧ -350 ≤ (c.log2 : ℤ) * 30103 / 100000 + t := by
  obtain ⟨hmin, hmax⟩ := h.bounds hd hm
  have hc := h.digits_ne_zero hm
  have hten : (0 : ℚ) < 10 ^ t := by positivity
  have hlow : (2 : ℚ) ^ (c.log2 : ℤ) ≤ c := by exact_mod_cast Nat.log2_self_le hc
  have hhigh : (c : ℚ) < 2 ^ ((c.log2 : ℤ) + 1) := by exact_mod_cast Nat.lt_log2_self
  obtain ⟨hlarge, hsmall, hfew⟩ := power_bounds
  have hnonneg : 0 ≤ (c.log2 : ℤ) := Int.natCast_nonneg _
  generalize (c.log2 : ℤ) = n at hlow hhigh hnonneg ⊢
  have hrange : n ≤ 2424 := by
    have hle : (2 : ℚ) ^ n ≤ 2 ^ (2424 : ℤ) := by
      calc (2 : ℚ) ^ n ≤ c := hlow
        _ = c * 10 ^ t * 10 ^ (-t) := by
          rw [mul_assoc, ← zpow_add₀ (by norm_num), add_neg_cancel, zpow_zero, mul_one]
        _ ≤ 2 ^ (1024 : ℤ) * 10 ^ (350 : ℤ) :=
          mul_le_mul hmax (zpow_le_zpow_right₀ (by norm_num) (by omega)) (by positivity)
            (by positivity)
        _ ≤ 2 ^ (1024 : ℤ) * 2 ^ (1400 : ℤ) := mul_le_mul_of_nonneg_left hfew (by positivity)
        _ = 2 ^ (2424 : ℤ) := by
          rw [show (2424 : ℤ) = 1024 + 1400 by norm_num, zpow_add₀ (by norm_num)]
    exact (zpow_le_zpow_iff_right₀ (by norm_num)).1 hle
  obtain ⟨hfloor, hceil⟩ := ten_zpow_near (n := n) (by omega)
  generalize n * 30103 / 100000 = a at hfloor hceil ⊢
  constructor
  · have hle : (10 : ℚ) ^ (a + t) ≤ 10 ^ (320 : ℤ) := by
      calc (10 : ℚ) ^ (a + t) = 10 ^ a * 10 ^ t := zpow_add₀ (by norm_num) a t
        _ ≤ 2 ^ (n + 1) * 10 ^ t := by gcongr
        _ = 2 * (2 ^ n * 10 ^ t) := by rw [zpow_add₀ (by norm_num), zpow_one]; ring
        _ ≤ 2 * (c * 10 ^ t) := by gcongr
        _ ≤ 2 * 2 ^ (1024 : ℤ) := by gcongr
        _ = 2 ^ (1025 : ℤ) := by
          rw [show (1025 : ℤ) = 1 + 1024 by norm_num, zpow_add₀ (by norm_num), zpow_one]
        _ ≤ 10 ^ (320 : ℤ) := hlarge
    exact (zpow_le_zpow_iff_right₀ (by norm_num)).1 hle
  · have hlt : (10 : ℚ) ^ (-350 : ℤ) < 10 ^ (a + 1 + t) := by
      calc (10 : ℚ) ^ (-350 : ℤ) ≤ 2 ^ (-1077 : ℤ) := hsmall
        _ = 2 ^ (-1075 : ℤ) / 4 := by
          rw [show (-1077 : ℤ) = -1075 - 2 by norm_num, zpow_sub₀ (by norm_num)]
          norm_num
        _ ≤ c * 10 ^ t / 4 := by gcongr
        _ < 2 ^ (n + 1) * 10 ^ t / 4 := by gcongr
        _ = 2 ^ (n - 1) * 10 ^ t := by
          rw [zpow_add₀ (by norm_num), zpow_sub₀ (by norm_num), zpow_one]
          ring
        _ ≤ 10 ^ (a + 1) * 10 ^ t := by gcongr
        _ = 10 ^ (a + 1 + t) := (zpow_add₀ (by norm_num) _ _).symm
    have := (zpow_lt_zpow_iff_right₀ (by norm_num)).1 hlt
    omega

/-- **A decimal that rounds to a double is read as the double.** -/
theorem decimalToFloat_of_roundsTo {x : Float} {negative : Bool}
    (hx : Binary.ofFloat x = .finite negative m e) (hm : 0 < m)
    (h : RoundsTo m e (c * 10 ^ t)) (ht : -350 ≤ t) : decimalToFloat negative c t = x := by
  have hd := (ofFloat_finite hx).1
  have hc := h.digits_ne_zero hm
  obtain ⟨hlarge, hsmall⟩ := size_bounds hd hm h ht
  have hnear {num den : ℕ} (hden : 0 < den) (hq : (num / den : ℚ) = c * 10 ^ t) :
      nearest? negative num den = some x := by
    rw [nearest?, nearestBits?_of_roundsTo hden hd hm (hq ▸ h), Option.map_some]
    exact congrArg some (ofBits_signedBits hx)
  rw [decimalToFloat, if_neg hc, if_neg (by omega), if_neg (by omega)]
  split
  · next hpos =>
    obtain ⟨k, rfl⟩ := Int.eq_ofNat_of_zero_le hpos
    rw [hnear (by decide) (by simp [Nat.pow_eq]), Option.getD_some]
  · next hneg =>
    obtain ⟨k, hk⟩ := Int.eq_ofNat_of_zero_le (a := -t) (by omega)
    obtain rfl : t = -k := by omega
    rw [hnear (by simp [Nat.pow_eq]) (by simp [Nat.pow_eq]; rfl), Option.getD_some]

end VectorStore.Number
