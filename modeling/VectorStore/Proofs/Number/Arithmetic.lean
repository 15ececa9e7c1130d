/-
  Arithmetic of doubles.

  * `rounds_add`, `rounds_div`: sums of finite doubles and quotients of positive ones are the exact
    ones, rounded;
  * so adding to a finite number keeps the order (`Number.add_le_add_left`), and negation,
    subtraction from one and division of a positive one turn it around (`Number.neg_le_neg`,
    `Number.sub_le_sub_left`, `Number.div_le_div_left`), infinities included.
-/
import VectorStore.Proofs.Number.Rounding

namespace VectorStore.Number

open Float.Model (UnpackedFloat Format)
open Float.Model.UnpackedFloat (Sign Accuracy ExtendedMantissa)

/-! ## Sums -/

theorem cast_apply (s : Sign) (n : ℕ) : (s.apply n : ℚ) = signed s n := by
  cases s <;> simp [Sign.apply, signed]

theorem signed_mul (s : Sign) (x y : ℚ) : signed s x * y = signed s (x * y) := by
  cases s <;> simp [signed]

/-- **The sum of finite doubles is their exact sum, rounded.** -/
theorem rounds_add {a b : UnpackedFloat} (ha : IsPacked a) (hb : IsPacked b) (hfa : IsFinite a)
    (hfb : IsFinite b) :
    Rounds (amount a + amount b) (amount (stored (a.add .binary64 b))) ∧
      stored (a.add .binary64 b) ≠ .notANumber := by
  rcases a with s | _ | s | ⟨s, m, e, hm⟩
  case infinity | notANumber => cases hfa
  all_goals
    rcases b with s' | _ | s' | ⟨s', m', e', hm'⟩
    case infinity | notANumber => cases hfb
  case zero.zero =>
    have hadd : ∃ z, (UnpackedFloat.zero s).add .binary64 (.zero s') = .zero z := by
      cases s <;> cases s' <;> exact ⟨_, rfl⟩
    obtain ⟨z, hz⟩ := hadd
    rw [hz, stored_zero]
    exact ⟨by simpa [amount] using rounds_zero, by simp⟩
  case zero.finite =>
    have hadd : (UnpackedFloat.zero s).add .binary64 (.finite s' m' e' hm') =
      .finite s' m' e' hm' := rfl
    rw [hadd, stored_self hb]
    exact ⟨by simpa [amount] using rounds_self hb hfb, by simp⟩
  case finite.zero =>
    have hadd : (UnpackedFloat.finite s m e hm).add .binary64 (.zero s') =
      .finite s m e hm := rfl
    rw [hadd, stored_self ha]
    exact ⟨by simpa [amount] using rounds_self ha hfa, by simp⟩
  case finite.finite =>
    -- both mantissas are brought to the lower exponent
    obtain ⟨k, hk⟩ : ∃ k : ℕ, min e e' = e - k := ⟨(e - min e e').toNat, by omega⟩
    obtain ⟨k', hk'⟩ : ∃ k' : ℕ, min e e' = e' - k' := ⟨(e' - min e e').toNat, by omega⟩
    have hadd : (UnpackedFloat.finite s m e hm).add .binary64 (.finite s' m' e' hm') =
        .normalize .binary64 (s.apply (m <<< k : ℕ) + s'.apply (m' <<< k' : ℕ)) (min e e')
          .positive := by
      have hkn : (e - min e e').toNat = k := by omega
      have hkn' : (e' - min e e').toNat = k' := by omega
      rw [← hkn, ← hkn']
      rfl
    have hsum : amount (.finite s m e hm) + amount (.finite s' m' e' hm') =
        (s.apply (m <<< k : ℕ) + s'.apply (m' <<< k' : ℕ) : ℤ) * 2 ^ (min e e') := by
      rw [Int.cast_add, cast_apply, cast_apply, add_mul, signed_mul, signed_mul]
      nth_rewrite 1 [hk]
      rw [hk', shiftLeft_mul_zpow, shiftLeft_mul_zpow]
      rfl
    rw [hadd, hsum]
    exact rounds_normalize _ _ _

/-! ## Quotients -/

/-- Residual bits denote a rest of less than one that is not zero. -/
theorem denotes_add (k : ℕ) {f : ℚ} {accuracy : Accuracy} (hpos : 0 < f) (hlt : f < 1)
    (hround : (ExtendedMantissa.ofMantissaAndAccuracy k accuracy).roundBit = true ↔ 1 / 2 ≤ f)
    (hsticky : (ExtendedMantissa.ofMantissaAndAccuracy k accuracy).stickyBit = true ↔ f ≠ 1 / 2) :
    Denotes (.ofMantissaAndAccuracy k accuracy) (k + f) := by
  refine ⟨?_, ?_, ?_, ?_⟩ <;> rw [mantissa_ofMantissaAndAccuracy]
  · linarith
  · linarith
  · rw [hround, add_le_add_iff_left]
  · rw [hsticky, ne_eq, ne_eq, ne_eq, add_right_inj, add_eq_left]
    exact ⟨fun h => ⟨hpos.ne', h⟩, fun h => h.2⟩

/-- The residual bits of a division tell how the remainder compares with half the divisor. -/
theorem denotes_quotient (n : ℕ) {d : ℕ} (hd : 0 < d) :
    Denotes (.ofMantissaAndAccuracy (n / d) (UnpackedFloat.accuracyOfFraction (n % d) d))
      (n / d : ℚ) := by
  have hd' : (0 : ℚ) < d := by exact_mod_cast hd
  have hrest : n % d < d := Nat.mod_lt n hd
  have hn : (n : ℚ) = d * (n / d : ℕ) + (n % d : ℕ) := by
    exact_mod_cast (Nat.div_add_mod n d).symm
  have hq : (n / d : ℚ) = (n / d : ℕ) + (n % d : ℕ) / d := by
    rw [hn, add_div, mul_div_cancel_left₀ _ hd'.ne']
  rw [hq]
  generalize n / d = k
  generalize n % d = r at hrest
  have hr : (r : ℚ) / d < 1 := (div_lt_one hd').2 (by exact_mod_cast hrest)
  rw [UnpackedFloat.accuracyOfFraction]
  rcases Nat.eq_zero_or_pos r with rfl | hpos
  · simpa using denotes_exact k
  have hpos' : 0 < (r : ℚ) / d := div_pos (by exact_mod_cast hpos) hd'
  have hhalf : compare (r / d : ℚ) (1 / 2) = compare (2 * r) d := by
    rcases h : compare (2 * r) d
    · rw [compare_lt_iff_lt] at h
      rw [compare_lt_iff_lt, div_lt_div_iff₀ hd' (by norm_num)]
      have : (2 * r : ℚ) < d := by exact_mod_cast h
      linarith
    · rw [compare_eq_iff_eq] at h
      rw [compare_eq_iff_eq, div_eq_div_iff hd'.ne' (by norm_num)]
      have : (2 * r : ℚ) = d := by exact_mod_cast h
      linarith
    · rw [compare_gt_iff_gt] at h
      rw [compare_gt_iff_gt, div_lt_div_iff₀ (by norm_num) hd']
      have : (d : ℚ) < 2 * r := by exact_mod_cast h
      linarith
  rw [if_neg hpos.ne', ← hhalf]
  apply denotes_add k hpos' hr
  · rcases h : compare (r / d : ℚ) (1 / 2)
    · rw [compare_lt_iff_lt] at h
      simpa [ExtendedMantissa.ofMantissaAndAccuracy] using h
    · rw [compare_eq_iff_eq] at h
      simp [ExtendedMantissa.ofMantissaAndAccuracy, h]
    · rw [compare_gt_iff_gt] at h
      simpa [ExtendedMantissa.ofMantissaAndAccuracy] using h.le
  · rcases h : compare (r / d : ℚ) (1 / 2)
    · rw [compare_lt_iff_lt] at h
      simpa [ExtendedMantissa.ofMantissaAndAccuracy] using h.ne
    · rw [compare_eq_iff_eq] at h
      simp [ExtendedMantissa.ofMantissaAndAccuracy, h]
    · rw [compare_gt_iff_gt] at h
      simpa [ExtendedMantissa.ofMantissaAndAccuracy] using h.ne'

/-- A dividend that is shifted far enough leaves a quotient of 53 bits. -/
theorem log2_quotient_ge {m m' n : ℕ} (hm : 0 < m) (hm' : 0 < m')
    (hn : 53 + m'.log2 ≤ m.log2 + n) : 52 ≤ ((m <<< n) / m').log2 := by
  have hge : 2 ^ 52 ≤ (m <<< n) / m' := by
    rw [Nat.le_div_iff_mul_le hm', Nat.shiftLeft_eq]
    calc 2 ^ 52 * m' ≤ 2 ^ 52 * 2 ^ (m'.log2 + 1) := Nat.mul_le_mul_left _ Nat.lt_log2_self.le
      _ = 2 ^ (53 + m'.log2) := by rw [← pow_add]; congr 1; omega
      _ ≤ 2 ^ (m.log2 + n) := Nat.pow_le_pow_right (by norm_num) hn
      _ = 2 ^ m.log2 * 2 ^ n := pow_add ..
      _ ≤ m * 2 ^ n := Nat.mul_le_mul_right _ (Nat.log2_self_le hm.ne')
  exact (Nat.le_log2 (by omega)).2 hge

/-- The quotient of two mantissas has as many bits as rounding asks for. -/
theorem divCore_accurate {m m' : ℕ} (e e' : ℤ) (hm : 0 < m) (hm' : 0 < m') :
    let (k, t, accuracy) := UnpackedFloat.divCore .binary64 m e m' e'
    ∃ x, Denotes (.ofMantissaAndAccuracy k accuracy) x ∧
      t ≤ max ((k.log2 : ℤ) + 1 + t - 53) (-1074) ∧
      x * 2 ^ t = (m * 2 ^ e) / (m' * 2 ^ e') := by
  obtain ⟨t, ht⟩ : ∃ t, t = min (e - e') (max ((m.log2 : ℤ) + 1 + e - (m'.log2 + 1 + e') - 53)
    (-1074)) := ⟨_, rfl⟩
  obtain ⟨n, hn⟩ : ∃ n : ℕ, t = e - e' - n := ⟨(e - e' - t).toNat, by omega⟩
  have hcore : UnpackedFloat.divCore .binary64 m e m' e' =
      ((m <<< n) / m', t, UnpackedFloat.accuracyOfFraction ((m <<< n) % m') m') := by
    have hshift : (e - e' - t).toNat = n := by omega
    rw [← hshift, ht]
    rfl
  rw [hcore]
  refine ⟨_, denotes_quotient _ hm', ?_, ?_⟩
  · rcases le_or_gt t (-1074) with hleast | hmore
    · exact le_max_of_le_right hleast
    · have hlog := log2_quotient_ge (n := n) hm hm' (by omega)
      omega
  · rw [Nat.shiftLeft_eq, hn, zpow_sub₀ (by norm_num), zpow_sub₀ (by norm_num), zpow_natCast]
    have : (0 : ℚ) < m' := by exact_mod_cast hm'
    push_cast
    field_simp

/-- **The quotient of positive doubles is their exact quotient, rounded.** -/
theorem rounds_div {m m' : ℕ} (e e' : ℤ) (hm : 0 < m) (hm' : 0 < m') :
    Rounds (amount (.finite .positive m e hm) / amount (.finite .positive m' e' hm'))
      (amount (stored ((UnpackedFloat.finite .positive m e hm).div .binary64
        (.finite .positive m' e' hm')))) ∧
      stored ((UnpackedFloat.finite .positive m e hm).div .binary64 (.finite .positive m' e' hm')) ≠
        .notANumber := by
  obtain ⟨x, hx, ht, hsame⟩ := divCore_accurate e e' hm hm'
  have hround := rounds_roundWithAccuracy .positive hx ht
  rw [hsame] at hround
  exact hround

/-! ## Negation -/

theorem isPacked_neg {u : UnpackedFloat} (h : IsPacked u) : IsPacked u.neg := by
  cases u with
  | finite s m e hm => exact h
  | _ => trivial

theorem amount_neg (u : UnpackedFloat) : amount u.neg = -amount u := by
  rcases u with ⟨_ | _⟩ | _ | s | ⟨_ | _, m, e, hm⟩
  case notANumber | zero => exact neg_zero.symm
  case infinity.positive | finite.positive => rfl
  all_goals exact (neg_neg _).symm

theorem unpack_neg_eq (x : Float) : (-x).toModel.unpack = x.toModel.unpack.neg :=
  stored_self (isPacked_neg (isPacked_toModel x))

theorem amountOf_neg (x : Float) : amountOf (-x) = -amountOf x := by
  rw [amountOf, unpack_neg_eq, amount_neg, amountOf]

theorem isNumber_neg {x : Float} (h : (x == x) = true) : (-x == -x) = true := by
  rw [isNumber_iff] at *
  rw [unpack_neg_eq]
  cases hu : x.toModel.unpack with
  | notANumber => exact absurd hu h
  | _ => nofun

/-- **Negation turns the order around.** -/
protected theorem neg_le_neg {x y : Float} (h : x ≤ y) : -y ≤ -x := by
  obtain ⟨hx, hy⟩ := isNumber_of_le h
  rw [le_iff_amountOf hx hy] at h
  rw [le_iff_amountOf (isNumber_neg hy) (isNumber_neg hx), amountOf_neg, amountOf_neg]
  exact neg_le_neg h

theorem sub_eq_add (a b : UnpackedFloat) : a.sub .binary64 b = a.add .binary64 b.neg := by
  have happly (s s' : Sign) (n n' : ℤ) : s.apply n - s'.apply n' = s.apply n + (-s').apply n' := by
    cases s' with
    | negative => exact sub_neg_eq_add _ _
    | positive => exact sub_eq_add_neg _ _
  rcases a with s | _ | s | ⟨s, m, e, hm⟩ <;> rcases b with s' | _ | s' | ⟨s', m', e', hm'⟩
  case finite.finite =>
    dsimp only [UnpackedFloat.sub, UnpackedFloat.add, UnpackedFloat.neg]
    rw [happly]
  all_goals rfl

/-- A difference is the sum with the negated number. -/
protected theorem sub_eq_add_neg (x y : Float) : x - y = x + -y := by
  have hunpack : (x - y).toModel = (x + -y).toModel := by
    show Float.Model.pack (x.toModel.unpack.sub .binary64 y.toModel.unpack) =
      Float.Model.pack (x.toModel.unpack.add .binary64 (-y).toModel.unpack)
    rw [sub_eq_add, unpack_neg_eq]
  exact congrArg Float.ofModel hunpack

/-! ## Monotone operations -/

theorem abs_amountOf_le (x : Float) : |amountOf x| ≤ overflow := abs_amount_le (isPacked_toModel x)

/-- The sum of a finite double and a number is the exact sum, rounded, or the infinity that is
    added. -/
theorem amount_add {a b : UnpackedFloat} (ha : IsPacked a) (hb : IsPacked b) (hfa : IsFinite a)
    (hnb : b ≠ .notANumber) :
    stored (a.add .binary64 b) ≠ .notANumber ∧
      (|amount b| < overflow ∧
          Rounds (amount a + amount b) (amount (stored (a.add .binary64 b))) ∨
        |amount b| = overflow ∧ amount (stored (a.add .binary64 b)) = amount b) := by
  cases hu : b with
  | infinity s =>
    have hadd : a.add .binary64 (.infinity s) = .infinity s := by
      cases a with
      | zero | finite => rfl
      | infinity | notANumber => cases hfa
    rw [hadd, stored_infinity]
    refine ⟨nofun, .inr ⟨?_, rfl⟩⟩
    cases s <;> simp [amount, signed, abs_of_pos overflow_pos]
  | notANumber => exact absurd hu hnb
  | zero s | finite s m e hm =>
    have hfb : IsFinite b := by
      rw [hu]
      trivial
    obtain ⟨hround, hnumber⟩ := rounds_add ha hb hfa hfb
    rw [← hu]
    exact ⟨hnumber, .inl ⟨abs_amount_lt hb hfb, hround⟩⟩

theorem isNumber_add {a x : Float} (ha : IsFinite a.toModel.unpack) (hx : (x == x) = true) :
    (a + x == a + x) = true := by
  rw [isNumber_iff] at *
  exact (amount_add (isPacked_toModel a) (isPacked_toModel x) ha hx).1

theorem amountOf_add {a x : Float} (ha : IsFinite a.toModel.unpack) (hx : (x == x) = true) :
    |amountOf x| < overflow ∧ Rounds (amountOf a + amountOf x) (amountOf (a + x)) ∨
      |amountOf x| = overflow ∧ amountOf (a + x) = amountOf x :=
  (amount_add (isPacked_toModel a) (isPacked_toModel x) ha (isNumber_iff.1 hx)).2

/-- **Adding numbers to a finite one keeps their order.** -/
protected theorem add_le_add_left {a x y : Float} (ha : IsFinite a.toModel.unpack) (h : x ≤ y) :
    a + x ≤ a + y := by
  obtain ⟨hx, hy⟩ := isNumber_of_le h
  rw [le_iff_amountOf hx hy] at h
  rw [le_iff_amountOf (isNumber_add ha hx) (isNumber_add ha hy)]
  rcases amountOf_add ha hx with ⟨hfinite, hround⟩ | ⟨hinfinite, hsame⟩ <;>
    rcases amountOf_add ha hy with ⟨hfinite', hround'⟩ | ⟨hinfinite', hsame'⟩
  · exact hround.mono hround' (by linarith)
  · -- only the infinity above comes after a finite number
    have htop : amountOf y = overflow := by
      refine (eq_or_eq_neg_of_abs_eq hinfinite').resolve_right fun hbottom => ?_
      linarith [(abs_lt.1 hfinite).1]
    rw [hsame', htop]
    exact (abs_le.1 (abs_amountOf_le _)).2
  · have hbottom : amountOf x = -overflow := by
      refine (eq_or_eq_neg_of_abs_eq hinfinite).resolve_left fun htop => ?_
      linarith [(abs_lt.1 hfinite').2]
    rw [hsame, hbottom]
    exact (abs_le.1 (abs_amountOf_le _)).1
  · rwa [hsame, hsame']

/-- **Subtracting numbers from a finite one turns their order around.** -/
protected theorem sub_le_sub_left {a x y : Float} (ha : IsFinite a.toModel.unpack) (h : x ≤ y) :
    a - y ≤ a - x := by
  rw [Number.sub_eq_add_neg, Number.sub_eq_add_neg]
  exact Number.add_le_add_left ha (Number.neg_le_neg h)

theorem unpack_div (x y : Float) : (x / y).toModel.unpack =
    stored (x.toModel.unpack.div .binary64 y.toModel.unpack) := rfl

/-- The quotient of positive numbers, the dividend being finite, is the exact quotient, rounded, or
    it is zero. -/
theorem amountOf_div {a x : Float} (ha : IsFinite a.toModel.unpack) (hapos : 0 < amountOf a)
    (hx : 0 < amountOf x) :
    (a / x == a / x) = true ∧
      (amountOf x < overflow ∧ Rounds (amountOf a / amountOf x) (amountOf (a / x)) ∨
        amountOf x = overflow ∧ amountOf (a / x) = 0) := by
  rw [isNumber_iff, amountOf, amountOf, amountOf, unpack_div]
  have hxpacked := isPacked_toModel x
  rcases eq_of_amount_pos hapos with hu | ⟨m, e, hm, hu⟩
  · rw [hu] at ha
    cases ha
  rw [hu]
  rcases eq_of_amount_pos hx with hv | ⟨m', e', hm', hv⟩ <;> rw [hv] at hxpacked ⊢
  · have hdiv : (UnpackedFloat.finite .positive m e hm).div .binary64 (.infinity .positive) =
        .zero .positive := rfl
    rw [hdiv, stored_zero]
    exact ⟨nofun, .inr ⟨rfl, rfl⟩⟩
  · obtain ⟨hround, hnumber⟩ := rounds_div e e' hm hm'
    exact ⟨hnumber, .inl ⟨hxpacked.lt_overflow, hround⟩⟩

/-- **Dividing a positive finite number by positive numbers turns their order around.** -/
protected theorem div_le_div_left {a x y : Float} (ha : IsFinite a.toModel.unpack)
    (hapos : 0 < amountOf a) (hx : 0 < amountOf x) (h : x ≤ y) : a / y ≤ a / x := by
  have hxy := (le_iff_amountOf (isNumber_of_le h).1 (isNumber_of_le h).2).1 h
  have hy : 0 < amountOf y := hx.trans_le hxy
  obtain ⟨hnx, hquot⟩ := amountOf_div ha hapos hx
  obtain ⟨hny, hquot'⟩ := amountOf_div ha hapos hy
  rw [le_iff_amountOf hny hnx]
  rcases hquot with ⟨hfinite, hround⟩ | ⟨hinfinite, hzero⟩ <;>
    rcases hquot' with ⟨hfinite', hround'⟩ | ⟨hinfinite', hzero'⟩
  · exact hround'.mono hround (div_le_div_of_nonneg_left hapos.le hx hxy)
  · rw [hzero']
    exact rounds_zero.mono hround (by positivity)
  · linarith
  · rw [hzero, hzero']

end VectorStore.Number
