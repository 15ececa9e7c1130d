/-
  The double nearest to a fraction.

  * `RoundsTo m e q`: the number rounds to the double `m · 2^e`, being no more than half a unit
    above it, and no more than `reach` below it;
  * `binade_spec`: a fraction lies in the binade that the logarithms of its parts give;
  * `nearestBits?_of_roundsTo`: so the bits found for a fraction that rounds to a double are those
    of the double, whichever numerator and denominator it has.
-/
import VectorStore.Number.Binary
import VectorStore.Proofs.Number.Doubles

namespace VectorStore.Number

/-! ## What rounds to a double -/

/-- How far the numbers that round to a double reach below it, in units of its mantissa: half a
    unit, but a quarter where the doubles below lie closer together. -/
def reach (m : ℕ) (e : ℤ) : ℚ := if m = 2 ^ 52 ∧ -1074 < e then 1 / 4 else 1 / 2

/-- The numbers that round to the double `m · 2^e`; the ends do just if the mantissa is even. -/
structure RoundsTo (m : ℕ) (e : ℤ) (q : ℚ) : Prop where
  low : m - reach m e ≤ q / 2 ^ e
  high : q / 2 ^ e ≤ m + 1 / 2
  even : q / 2 ^ e = m - reach m e ∨ q / 2 ^ e = m + 1 / 2 → m % 2 = 0

theorem reach_le (m : ℕ) (e : ℤ) : reach m e ≤ 1 / 2 := by
  rw [reach]
  split <;> norm_num

/-- What rounds to a positive double is positive. -/
theorem RoundsTo.pos {m : ℕ} {e : ℤ} {q : ℚ} (h : RoundsTo m e q) (hm : 0 < m) : 0 < q := by
  have hm' : (1 : ℚ) ≤ m := by exact_mod_cast hm
  have hreach := reach_le m e
  have hscaled : 0 < q / 2 ^ e := by linarith [h.low]
  exact (div_pos_iff_of_pos_right (by positivity)).1 hscaled

/-- **The quotient rounded to nearest is the integer that is nearest**, the even one of two. -/
theorem roundDiv_eq {n d k : ℕ} (hd : 0 < d) (hlow : (k : ℚ) - 1 / 2 ≤ n / d)
    (hhigh : (n / d : ℚ) ≤ k + 1 / 2)
    (heven : (n / d : ℚ) = k - 1 / 2 ∨ (n / d : ℚ) = k + 1 / 2 → k % 2 = 0) :
    roundDiv n d = k := by
  have hd' : (0 : ℚ) < d := by exact_mod_cast hd
  -- the same bounds on integers
  have hl : 2 * (k * d) ≤ 2 * n + d := by
    rw [le_div_iff₀ hd'] at hlow
    have : (2 * (k * d) : ℚ) ≤ 2 * n + d := by linarith
    exact_mod_cast this
  have hh : 2 * n ≤ 2 * (k * d) + d := by
    rw [div_le_iff₀ hd'] at hhigh
    have : (2 * n : ℚ) ≤ 2 * (k * d) + d := by linarith
    exact_mod_cast this
  have he : 2 * (k * d) = 2 * n + d ∨ 2 * n = 2 * (k * d) + d → k % 2 = 0 := by
    intro h
    apply heven
    rw [div_eq_iff hd'.ne', div_eq_iff hd'.ne']
    rcases h with h | h
    · left
      have : (2 * (k * d) : ℚ) = 2 * n + d := by exact_mod_cast h
      linarith
    · right
      have : (2 * n : ℚ) = 2 * (k * d) + d := by exact_mod_cast h
      linarith
  have hdiv := Nat.div_add_mod n d
  have hmod := Nat.mod_lt n hd
  rw [Nat.mul_comm] at hdiv
  -- the integer part is `k`, or the integer below
  have hq : n / d = k ∨ n / d + 1 = k := by
    have h1 : n / d < k + 1 := (Nat.div_lt_iff_lt_mul hd).2 (by rw [Nat.add_mul]; omega)
    have h2 : k ≤ n / d + 1 := by
      by_contra hlt
      have : (n / d + 2) * d ≤ k * d := Nat.mul_le_mul_right d (by omega)
      rw [Nat.add_mul] at this
      omega
    omega
  rcases hq with rfl | rfl
  · rw [roundDiv]
    split
    · rfl
    · split
      · omega
      · rw [if_pos (he (by omega))]
  · rw [Nat.add_mul] at hl hh he
    rw [roundDiv]
    split
    · omega
    · split
      · rfl
      · have := he (by omega)
        rw [if_neg (by omega)]

/-- Scaling divides by a power of two. -/
theorem scaled_div (num : ℕ) {den : ℕ} (hden : 0 < den) (e : ℤ) :
    0 < (scaled num den e).2 ∧
      ((scaled num den e).1 / (scaled num den e).2 : ℚ) = num / den / 2 ^ e := by
  have hden' : (den : ℚ) ≠ 0 := by exact_mod_cast hden.ne'
  rw [scaled]
  split
  · next he =>
    obtain ⟨k, rfl⟩ := Int.eq_ofNat_of_zero_le he
    refine ⟨Nat.mul_pos hden (Nat.two_pow_pos _), ?_⟩
    simp [Nat.pow_eq, div_div]
  · next he =>
    obtain ⟨k, hk⟩ := Int.eq_ofNat_of_zero_le (a := -e) (by omega)
    obtain rfl : e = -k := by omega
    refine ⟨hden, ?_⟩
    simp [Nat.pow_eq]
    ring

/-- The exponent that gives a mantissa of 53 bits is near the difference of the logarithms. -/
theorem log2_sub_log2 {num den : ℕ} (hnum : num ≠ 0) (hden : den ≠ 0) :
    (2 : ℚ) ^ ((num.log2 : ℤ) - den.log2 - 1) < num / den ∧
      (num / den : ℚ) < 2 ^ ((num.log2 : ℤ) - den.log2 + 1) := by
  have hden' : (0 : ℚ) < den := by exact_mod_cast Nat.pos_of_ne_zero hden
  have hn : (2 : ℚ) ^ num.log2 ≤ num := by exact_mod_cast Nat.log2_self_le hnum
  have hn' : (num : ℚ) < 2 ^ (num.log2 + 1) := by exact_mod_cast Nat.lt_log2_self
  have hd : (2 : ℚ) ^ den.log2 ≤ den := by exact_mod_cast Nat.log2_self_le hden
  have hd' : (den : ℚ) < 2 ^ (den.log2 + 1) := by exact_mod_cast Nat.lt_log2_self
  constructor
  · rw [lt_div_iff₀ hden']
    calc (2 : ℚ) ^ ((num.log2 : ℤ) - den.log2 - 1) * den
        < 2 ^ ((num.log2 : ℤ) - den.log2 - 1) * 2 ^ (den.log2 + 1) := by gcongr
      _ = 2 ^ num.log2 := by
        rw [← zpow_natCast, ← zpow_add₀ (by norm_num), ← zpow_natCast]
        congr 1
        push_cast
        ring
      _ ≤ num := hn
  · rw [div_lt_iff₀ hden']
    calc (num : ℚ) < 2 ^ (num.log2 + 1) := hn'
      _ = 2 ^ ((num.log2 : ℤ) - den.log2 + 1) * 2 ^ den.log2 := by
        rw [← zpow_natCast, ← zpow_natCast, ← zpow_add₀ (by norm_num)]
        congr 1
        push_cast
        ring
      _ ≤ 2 ^ ((num.log2 : ℤ) - den.log2 + 1) * den := by gcongr

/-! ## The double nearest to a fraction -/

/-- The exponent of the fraction's binade, its mantissas having 53 bits. -/
def binade (num den : ℕ) : ℤ :=
  let guess : ℤ := (num.log2 : ℤ) - den.log2 - 52
  let s := scaled num den guess
  if s.1 < s.2 * Nat.pow 2 52 then guess - 1 else guess

/-- **A fraction lies in its binade.** -/
theorem binade_spec {num den : ℕ} (hnum : num ≠ 0) (hden : 0 < den) :
    (2 : ℚ) ^ (binade num den + 52) ≤ num / den ∧ (num / den : ℚ) < 2 ^ (binade num den + 53) := by
  obtain ⟨hlow, hhigh⟩ := log2_sub_log2 hnum hden.ne'
  rw [binade]
  generalize hg : (num.log2 : ℤ) - den.log2 - 52 = guess
  obtain ⟨hpos, hquot⟩ := scaled_div num hden guess
  have hpos' : (0 : ℚ) < (scaled num den guess).2 := by exact_mod_cast hpos
  have hiff : (scaled num den guess).1 < (scaled num den guess).2 * Nat.pow 2 52 ↔
      (num / den : ℚ) < 2 ^ (guess + 52) := by
    have hscale : (num / den / 2 ^ guess : ℚ) < 2 ^ 52 ↔ (num / den : ℚ) < 2 ^ (guess + 52) := by
      rw [div_lt_iff₀ (by positivity), ← zpow_natCast, ← zpow_add₀ (by norm_num), add_comm]
      rfl
    rw [← hscale, ← hquot, div_lt_iff₀ hpos', Nat.pow_eq, mul_comm]
    exact_mod_cast Iff.rfl
  split
  · next h =>
    rw [hiff] at h
    refine ⟨?_, ?_⟩
    · rw [show guess - 1 + 52 = (num.log2 : ℤ) - den.log2 - 1 by omega]
      exact hlow.le
    · rw [show guess - 1 + 53 = guess + 52 by omega]
      exact h
  · next h =>
    rw [hiff, not_lt] at h
    refine ⟨h, ?_⟩
    rw [show guess + 53 = (num.log2 : ℤ) - den.log2 + 1 by omega]
    exact hhigh

section

variable {num den m : ℕ} {e : ℤ} (hden : 0 < den)
include hden

theorem le_binade (hnum : num ≠ 0) (h : (2 : ℚ) ^ 52 ≤ num / den / 2 ^ e) : e ≤ binade num den := by
  rw [le_div_iff₀ (by positivity), ← zpow_natCast, ← zpow_add₀ (by norm_num)] at h
  have hlt := (zpow_lt_zpow_iff_right₀ (by norm_num)).1 (h.trans_lt (binade_spec hnum hden).2)
  push_cast at hlt
  omega

theorem binade_le (hnum : num ≠ 0) (h : (num / den / 2 ^ e : ℚ) < 2 ^ 53) : binade num den ≤ e := by
  rw [div_lt_iff₀ (by positivity), ← zpow_natCast, ← zpow_add₀ (by norm_num)] at h
  have hlt := (zpow_lt_zpow_iff_right₀ (by norm_num)).1 ((binade_spec hnum hden).1.trans_lt h)
  push_cast at hlt
  omega

omit hden in
/-- What the double nearest to a fraction is made of.  The powers have names, as they are not to be
    counted out. -/
theorem nearestBits?_eq {num den p q m : ℕ} {e : ℤ} (hnum : num ≠ 0) (hp : Nat.pow 2 52 = p)
    (hq : Nat.pow 2 53 = q) (he : max (binade num den) (-1074) = e)
    (hm : roundDiv (scaled num den e).1 (scaled num den e).2 = m) : nearestBits? num den =
      if m = q then if 971 < e + 1 then none else some ((e + 1 + 1075).toNat * p)
      else if 971 < e then none
      else some (if m < p then m else (e + 1075).toNat * p + (m - p)) := by
  rw [binade, hp] at he
  rw [nearestBits?, if_neg hnum, hp, hq]
  simp only [he, hm]
  clear hp hq he hm
  by_cases hcarry : m = q
  · simp [hcarry]
  · simp only [hcarry, if_false]
    split
    · rfl
    · split <;> rfl

omit hden in
theorem ne_zero_of_roundsTo (hm : 0 < m) (h : RoundsTo m e (num / den)) : num ≠ 0 := by
  rintro rfl
  have := h.pos hm
  simp at this

/-- A number in the binade of the double is rounded to its mantissa. -/
theorem nearestBits?_same (hd : IsDouble m e) (hm : 0 < m) (h : RoundsTo m e (num / den))
    (hge : -1074 < e → (2 : ℚ) ^ 52 ≤ num / den / 2 ^ e) :
    nearestBits? num den = some (bitsOf m e) := by
  have hnum := ne_zero_of_roundsTo hm h
  have hmin := hd.ge
  have hmax := hd.le
  have hmant : (m : ℚ) + 1 ≤ 2 ^ 53 := by exact_mod_cast hd.lt
  have he : max (binade num den) (-1074) = e := by
    have hbelow : binade num den ≤ e := binade_le hden hnum (by linarith [h.high])
    rcases eq_or_lt_of_le hmin with hmin | hmin
    · omega
    · have habove : e ≤ binade num den := le_binade hden hnum (hge hmin)
      omega
  have hround : roundDiv (scaled num den e).1 (scaled num den e).2 = m := by
    obtain ⟨hpos, hquot⟩ := scaled_div num hden e
    have hreach := reach_le m e
    refine roundDiv_eq hpos ?_ ?_ ?_
    · rw [hquot]
      linarith [h.low]
    · rw [hquot]
      exact h.high
    · rw [hquot]
      rintro (hend | hend)
      · exact h.even (.inl (le_antisymm (by linarith) h.low))
      · exact h.even (.inr hend)
  obtain ⟨p, hp⟩ : ∃ p, Nat.pow 2 52 = p := ⟨_, rfl⟩
  obtain ⟨p', hp'⟩ : ∃ p', Nat.pow 2 53 = p' := ⟨_, rfl⟩
  have hne : m ≠ p' := by
    have := hd.lt
    rw [← hp', Nat.pow_eq]
    omega
  rw [nearestBits?_eq hnum hp hp' he hround, if_neg hne, if_neg (by omega), bitsOf, ← hp,
    Nat.pow_eq]

/-- A number in the binade below that of a power of two is rounded up to a mantissa of one bit
    more. -/
theorem nearestBits?_carry (hd : IsDouble (2 ^ 52) e) (h : RoundsTo (2 ^ 52) e (num / den))
    (hmin : -1074 < e) (hlt : (num / den / 2 ^ e : ℚ) < 2 ^ 52) :
    nearestBits? num den = some (bitsOf (2 ^ 52) e) := by
  have hnum := ne_zero_of_roundsTo (Nat.two_pow_pos 52) h
  have hmax := hd.le
  have hlow := h.low
  rw [reach, if_pos ⟨rfl, hmin⟩] at hlow
  push_cast at hlow
  have hdouble : (num / den / 2 ^ (e - 1) : ℚ) = 2 * (num / den / 2 ^ e) := by
    rw [zpow_sub₀ (by norm_num), zpow_one]
    field_simp
  have he : max (binade num den) (-1074) = e - 1 := by
    have hbelow : binade num den ≤ e - 1 := binade_le hden hnum (by rw [hdouble]; linarith)
    have habove : e - 1 ≤ binade num den := le_binade hden hnum (by rw [hdouble]; linarith)
    omega
  have hround : roundDiv (scaled num den (e - 1)).1 (scaled num den (e - 1)).2 = 2 ^ 53 := by
    obtain ⟨hpos, hquot⟩ := scaled_div num hden (e - 1)
    refine roundDiv_eq hpos ?_ ?_ fun _ => rfl
    · rw [hquot, hdouble]
      push_cast
      linarith
    · rw [hquot, hdouble]
      push_cast
      linarith
  obtain ⟨p, hp⟩ : ∃ p, Nat.pow 2 52 = p := ⟨_, rfl⟩
  obtain ⟨p', hp'⟩ : ∃ p', Nat.pow 2 53 = p' := ⟨_, rfl⟩
  have htop : 2 ^ 53 = p' := hp'
  rw [nearestBits?_eq hnum hp hp' he hround, if_pos htop, if_neg (by omega), bitsOf,
    if_neg (by omega), Nat.sub_self, Nat.add_zero, ← hp, Nat.pow_eq, Int.sub_add_cancel]

/-- **What rounds to a double has it as the nearest.** -/
theorem nearestBits?_of_roundsTo (hd : IsDouble m e) (hm : 0 < m)
    (h : RoundsTo m e (num / den)) : nearestBits? num den = some (bitsOf m e) := by
  by_cases hcarry : -1074 < e ∧ (num / den / 2 ^ e : ℚ) < 2 ^ 52
  · obtain ⟨hmin, hlt⟩ := hcarry
    -- only what rounds to a power of two reaches down to this binade
    obtain rfl : m = 2 ^ 52 := by
      have hnormal : 2 ^ 52 ≤ m := hd.normal.resolve_right hmin.ne'
      by_contra hne
      have hgt : (2 : ℚ) ^ 52 + 1 ≤ m := by exact_mod_cast Nat.lt_of_le_of_ne hnormal (Ne.symm hne)
      linarith [h.low, reach_le m e]
    exact nearestBits?_carry hden hd h hmin hlt
  · refine nearestBits?_same hden hd hm h fun hmin => ?_
    exact not_lt.1 fun hlt => hcarry ⟨hmin, hlt⟩

end

end VectorStore.Number
