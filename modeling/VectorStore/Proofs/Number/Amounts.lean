/-
  The numbers that doubles stand for.

  * `amount` is the number that a double stands for; an infinity stands for the first power of two
    that is too large to be one (`overflow`);
  * `le_iff_amountOf`: doubles that are numbers are compared by their amounts;
  * `stored_finite`: packing keeps a double in range, and one beyond becomes an infinity, so its
    amount is cut at `overflow` (`amount_stored`).
-/
import Mathlib
import VectorStore.Proofs.Number.Doubles
import VectorStore.Proofs.Times

namespace VectorStore.Number

open Float.Model (UnpackedFloat Format)
open Float.Model.UnpackedFloat (Sign packComponents unpackMantissa unpackExponent
  unpackMantissa_packComponents unpackExponent_packComponents)

/-! ## Amounts -/

/-- The first power of two beyond the doubles, which an infinity stands for. -/
@[irreducible]
def overflow : ℚ := 2 ^ (1024 : ℤ)

theorem overflow_eq : overflow = 2 ^ (1024 : ℤ) := by rw [overflow]

theorem overflow_pos : 0 < overflow := by
  rw [overflow_eq]
  exact zpow_pos (by norm_num) _

/-- The number with the sign. -/
def signed (s : Sign) (q : ℚ) : ℚ :=
  match s with
  | .negative => -q
  | .positive => q

/-- The number that a double stands for. -/
def amount : UnpackedFloat → ℚ
  | .notANumber | .zero _ => 0
  | .infinity s => signed s overflow
  | .finite s m e _ => signed s (m * 2 ^ e)

/-- The double is in range, and its mantissa has as many bits as there is room for. -/
def IsPacked : UnpackedFloat → Prop
  | .finite _ m e _ => IsDouble m e
  | _ => True

theorem toNat_one_append (m : BitVec 52) : (1#1 ++ m).toNat = 2 ^ 52 + m.toNat := by
  rw [BitVec.toNat_append, ← Nat.shiftLeft_add_eq_or_of_lt m.isLt]
  rfl

theorem isPacked_unpack (b : BitVec Format.binary64.numBits) :
    IsPacked (.unpack .binary64 b) := by
  have hm : (unpackMantissa b).toNat < 2 ^ 52 := (unpackMantissa b).isLt
  have he : (unpackExponent b).toNat < 2 ^ 11 := (unpackExponent b).isLt
  have hbias : Format.binary64.exponentBias = 1023 := rfl
  rw [UnpackedFloat.unpack]
  dsimp only
  split
  · split <;> exact trivial
  · next hfinite =>
    have hfinite' : (unpackExponent b).toNat ≠ 2047 := fun h => hfinite (BitVec.eq_of_toNat_eq h)
    split
    · next hsmall =>
      have hsmall' : (unpackExponent b).toNat = 0 := congrArg BitVec.toNat hsmall
      split
      · exact trivial
      · refine ⟨by omega, .inr ?_, ?_, ?_⟩ <;> rw [hbias, hsmall'] <;> decide
    · next hnormal =>
      have hnormal' : (unpackExponent b).toNat ≠ 0 := fun h => hnormal (BitVec.eq_of_toNat_eq h)
      have hbit := toNat_one_append (unpackMantissa b)
      refine ⟨by omega, .inl (by omega), ?_, ?_⟩ <;> rw [hbias] <;> push_cast <;> omega

theorem isPacked_toModel (x : Float) : IsPacked x.toModel.unpack := isPacked_unpack _

/-- The number that a double stands for. -/
def amountOf (x : Float) : ℚ := amount x.toModel.unpack

/-! ## Sizes -/

theorem mul_zpow_pos {m : ℕ} {e : ℤ} (hm : 0 < m) : (0 : ℚ) < m * 2 ^ e :=
  mul_pos (by exact_mod_cast hm) (zpow_pos (by norm_num) _)

theorem two_zpow_succ_le {t t' : ℤ} (h : t < t') : (2 : ℚ) ^ 53 * 2 ^ t ≤ 2 ^ 52 * 2 ^ t' := by
  calc (2 : ℚ) ^ 53 * 2 ^ t = 2 ^ 52 * 2 ^ (t + 1) := by
        rw [zpow_add₀ (by norm_num), zpow_one]; ring
    _ ≤ 2 ^ 52 * 2 ^ t' :=
        mul_le_mul_of_nonneg_left (zpow_le_zpow_right₀ (by norm_num) (by omega)) (by positivity)

theorem IsDouble.lt_overflow {m : ℕ} {e : ℤ} (h : IsDouble m e) : (m * 2 ^ e : ℚ) < overflow := by
  have hm : (m : ℚ) < 2 ^ 53 := by exact_mod_cast h.lt
  calc (m * 2 ^ e : ℚ) < 2 ^ 53 * 2 ^ e := by gcongr
    _ ≤ 2 ^ 53 * 2 ^ (971 : ℤ) := by
        refine mul_le_mul_of_nonneg_left ?_ (by positivity)
        exact zpow_le_zpow_right₀ (by norm_num) h.le
    _ = overflow := by
        rw [overflow_eq, ← zpow_natCast, ← zpow_add₀ (by norm_num)]
        rfl

theorem IsDouble.amount_lt {m m' : ℕ} {e e' : ℤ} (h : IsDouble m e) (h' : IsDouble m' e')
    (hlt : e < e' ∨ e = e' ∧ m < m') : (m * 2 ^ e : ℚ) < m' * 2 ^ e' := by
  rcases hlt with hlt | ⟨rfl, hlt⟩
  · have hm : (m : ℚ) < 2 ^ 53 := by exact_mod_cast h.lt
    have hm' : (2 : ℚ) ^ 52 ≤ m' := by
      exact_mod_cast h'.normal.resolve_right (by have := h.ge; omega)
    calc (m * 2 ^ e : ℚ) < 2 ^ 53 * 2 ^ e := by gcongr
      _ ≤ 2 ^ 52 * 2 ^ e' := two_zpow_succ_le hlt
      _ ≤ m' * 2 ^ e' := by gcongr
  · gcongr

/-- Between which amounts those of one kind lie. -/
theorem amount_bounds {a : UnpackedFloat} (ha : IsPacked a) :
    match a with
    | .infinity .positive => amount a = overflow
    | .finite .positive .. => 0 < amount a ∧ amount a < overflow
    | .finite .negative .. => -overflow < amount a ∧ amount a < 0
    | .infinity .negative => amount a = -overflow
    | _ => amount a = 0 := by
  rcases a with ⟨_ | _⟩ | _ | _ | ⟨_ | _, m, e, hm⟩
  case finite.negative =>
    exact ⟨neg_lt_neg ha.lt_overflow, neg_neg_of_pos (mul_zpow_pos hm)⟩
  case finite.positive => exact ⟨mul_zpow_pos hm, ha.lt_overflow⟩
  all_goals rfl

theorem abs_amount_le {a : UnpackedFloat} (ha : IsPacked a) : |amount a| ≤ overflow := by
  have hpos := overflow_pos
  have hbounds := amount_bounds ha
  rw [abs_le]
  rcases a with ⟨_ | _⟩ | _ | _ | ⟨_ | _, m, e, hm⟩
  all_goals
    dsimp only at hbounds
    constructor <;> linarith

/-- The double is neither infinite nor what is not a number. -/
def IsFinite : UnpackedFloat → Prop
  | .zero _ | .finite .. => True
  | _ => False

theorem abs_amount_lt {u : UnpackedFloat} (hu : IsPacked u) (hfinite : IsFinite u) :
    |amount u| < overflow := by
  have hpos := overflow_pos
  have hbounds := amount_bounds hu
  rw [abs_lt]
  rcases u with s | _ | s | ⟨⟨_ | _⟩, m, e, hm⟩
  case infinity | notANumber => cases hfinite
  all_goals
    dsimp only at hbounds
    constructor <;> linarith

theorem eq_of_amount_pos {u : UnpackedFloat} (h : 0 < amount u) :
    u = .infinity .positive ∨ ∃ m e hm, u = .finite .positive m e hm := by
  rcases u with ⟨_ | _⟩ | _ | _ | ⟨_ | _, m, e, hm⟩
  case infinity.negative => exact absurd (neg_pos.1 h) (not_lt.2 overflow_pos.le)
  case infinity.positive => exact .inl rfl
  case finite.negative =>
    exact absurd (neg_pos.1 h) (not_lt.2 (mul_zpow_pos hm).le)
  case finite.positive => exact .inr ⟨m, e, hm, rfl⟩
  all_goals exact absurd h (lt_irrefl _)

/-! ## Order -/

/-- Of two packed numbers the one with the lower place is less. -/
theorem amount_lt_of_placeOf_lt {a b : UnpackedFloat} (ha : IsPacked a) (hb : IsPacked b)
    (hna : a ≠ .notANumber) (h : placeOf a < placeOf b) : amount a < amount b := by
  have hpos := overflow_pos
  have hbounds := amount_bounds ha
  have hbounds' := amount_bounds hb
  rcases a with ⟨_ | _⟩ | _ | _ | ⟨_ | _, m, e, hm⟩
  case notANumber => exact absurd rfl hna
  all_goals
    rcases b with ⟨_ | _⟩ | _ | _ | ⟨_ | _, m', e', hm'⟩
    all_goals
      dsimp only [placeOf] at h hbounds hbounds'
      simp only [Prod.Lex.toLex_lt_toLex] at h
  case finite.negative.finite.negative =>
    exact neg_lt_neg (IsDouble.amount_lt hb ha (by omega))
  case finite.positive.finite.positive => exact IsDouble.amount_lt ha hb (by omega)
  all_goals first | omega | linarith

theorem amount_eq_of_placeOf_eq {a b : UnpackedFloat} (h : placeOf a = placeOf b) :
    amount a = amount b := by
  rcases a with ⟨_ | _⟩ | _ | _ | ⟨_ | _, m, e, hm⟩
  all_goals
    rcases b with ⟨_ | _⟩ | _ | _ | ⟨_ | _, m', e', hm'⟩
    all_goals
      simp only [placeOf, EmbeddingLike.apply_eq_iff_eq, Prod.mk.injEq] at h
  case finite.negative.finite.negative | finite.positive.finite.positive =>
    obtain rfl : m = m' := by omega
    obtain rfl : e = e' := by omega
    rfl
  all_goals first | omega | rfl

theorem placeOf_le_iff {a b : UnpackedFloat} (ha : IsPacked a) (hb : IsPacked b)
    (hna : a ≠ .notANumber) (hnb : b ≠ .notANumber) :
    placeOf a ≤ placeOf b ↔ amount a ≤ amount b := by
  constructor
  · intro h
    rcases h.lt_or_eq with hlt | heq
    · exact (amount_lt_of_placeOf_lt ha hb hna hlt).le
    · exact (amount_eq_of_placeOf_eq heq).le
  · intro h
    by_contra hlt
    exact absurd h (not_le.2 (amount_lt_of_placeOf_lt hb ha hnb (not_le.1 hlt)))

/-- **Numbers are compared by the amounts that they stand for.** -/
theorem le_iff_amountOf {x y : Float} (hx : (x == x) = true) (hy : (y == y) = true) :
    x ≤ y ↔ amountOf x ≤ amountOf y := by
  rw [le_iff_not_lt hx hy, lt_iff_place hy hx, not_lt]
  exact placeOf_le_iff (isPacked_toModel x) (isPacked_toModel y) (isNumber_iff.1 hx)
    (isNumber_iff.1 hy)

protected theorem le_trans {x y z : Float} (hxy : x ≤ y) (hyz : y ≤ z) : x ≤ z := by
  have hx := (isNumber_of_le hxy).1
  obtain ⟨hy, hz⟩ := isNumber_of_le hyz
  rw [le_iff_amountOf hx hy] at hxy
  rw [le_iff_amountOf hy hz] at hyz
  rw [le_iff_amountOf hx hz]
  exact hxy.trans hyz

protected theorem le_refl {x : Float} (hx : (x == x) = true) : x ≤ x :=
  (le_iff_amountOf hx hx).2 le_rfl

theorem isNumber_zero : ((0 : Float) == 0) = true := rfl

/-- What is positive stands for a positive number. -/
theorem amountOf_pos {x : Float} (hx : (x == x) = true) (h : ¬x ≤ 0) : 0 < amountOf x := by
  have hzero : amountOf 0 = 0 := rfl
  rw [le_iff_amountOf hx isNumber_zero, hzero] at h
  exact not_le.1 h

/-! ## Packing -/

/-- The mantissa and the exponent of a double that may be too large: a mantissa of less than 53
    bits has the least exponent. -/
structure IsCanonical (m : ℕ) (e : ℤ) : Prop where
  lt : m < 2 ^ 53
  normal : 2 ^ 52 ≤ m ∨ e = -1074
  ge : -1074 ≤ e

theorem IsDouble.canonical {m : ℕ} {e : ℤ} (h : IsDouble m e) : IsCanonical m e :=
  ⟨h.lt, h.normal, h.ge⟩

/-- The double as it is read again once it has been packed. -/
def stored (u : UnpackedFloat) : UnpackedFloat := (Float.Model.pack u).unpack

theorem stored_infinity (s : Sign) : stored (.infinity s) = .infinity s := by cases s <;> rfl

theorem stored_zero (s : Sign) : stored (.zero s) = .zero s := by cases s <;> rfl

theorem unpack_normal (s : Sign) (e : BitVec 11) (m : BitVec 52) (hfirst : e.toNat ≠ 0)
    (hlast : e.toNat ≠ 2047) :
    UnpackedFloat.unpack .binary64 (packComponents .binary64 s e m) =
      .finite s (2 ^ 52 + m.toNat) (e.toNat - 1075) (by omega) := by
  have hs : Sign.ofBitVec s.toBitVec = s := by cases s <;> rfl
  have hbias : Format.binary64.exponentBias = 1023 := rfl
  have hbit : (1#1 ++ m).toNat = 2 ^ 52 + m.toNat := toNat_one_append m
  simp only [UnpackedFloat.unpack, unpackMantissa_packComponents, unpackExponent_packComponents,
    unpackSign_packComponents, hs, hbias]
  rw [if_neg fun h => hlast (congrArg BitVec.toNat h),
    if_neg fun h => hfirst (congrArg BitVec.toNat h)]
  simp only [UnpackedFloat.finite.injEq, hbit, true_and]
  push_cast
  omega

theorem unpack_subnormal (s : Sign) (m : BitVec 52) (hm : 0 < m.toNat) :
    UnpackedFloat.unpack .binary64 (packComponents .binary64 s 0#11 m) =
      .finite s m.toNat (-1074) hm := by
  have hs : Sign.ofBitVec s.toBitVec = s := by cases s <;> rfl
  have hpos : m ≠ 0#52 := fun h => hm.ne' (congrArg BitVec.toNat h)
  simp only [UnpackedFloat.unpack, unpackMantissa_packComponents, unpackExponent_packComponents,
    unpackSign_packComponents, hs]
  rw [if_neg (by decide), if_pos trivial, dif_neg hpos]
  rfl

/-- **Packing keeps a double that is in range**, and makes an infinity of one that is not. -/
theorem stored_finite {s : Sign} {m : ℕ} {e : ℤ} {hm : 0 < m} (h : IsCanonical m e) :
    stored (.finite s m e hm) = if e ≤ 971 then .finite s m e hm else .infinity s := by
  have hbias : Format.binary64.exponentBias = 1023 := rfl
  have hlog : m.log2 + 1 = Format.binary64.mantissaBits ↔ 2 ^ 52 ≤ m := by
    show m.log2 + 1 = 53 ↔ _
    rw [← Nat.le_log2 hm.ne']
    have : m.log2 < 53 := (Nat.log2_lt hm.ne').2 h.lt
    omega
  have hlt := h.lt
  have hge := h.ge
  have hfield : (e + (1023 : ℕ) + (52 : ℕ)).toNat = (e + 1075).toNat := by omega
  show UnpackedFloat.unpack .binary64 (UnpackedFloat.pack .binary64 _) = _
  rw [UnpackedFloat.pack, hbias]
  dsimp only
  rw [hfield]
  by_cases he : e ≤ 971
  · have hfits : ¬2 ^ 11 ≤ (e + 1075).toNat + 1 := by omega
    rw [if_pos he, if_neg hfits]
    by_cases hnormal : 2 ^ 52 ≤ m
    · have hE : (BitVec.ofNat 11 (e + 1075).toNat).toNat = (e + 1075).toNat :=
        Nat.mod_eq_of_lt (by omega)
      have hM : (BitVec.ofNat 52 m).toNat = m - 2 ^ 52 := by
        rw [BitVec.toNat_ofNat]
        omega
      rw [if_pos (hlog.2 hnormal), unpack_normal s _ _ (by omega) (by omega)]
      simp only [UnpackedFloat.finite.injEq, hE, hM, true_and]
      omega
    · have hM : (BitVec.ofNat 52 m).toNat = m := Nat.mod_eq_of_lt (by omega)
      have hleast := h.normal.resolve_left hnormal
      rw [if_neg (mt hlog.1 hnormal), unpack_subnormal s _ (by omega)]
      simp only [hM, hleast]
  · have hbeyond : 2 ^ 11 ≤ (e + 1075).toNat + 1 := by omega
    rw [if_neg he, if_pos hbeyond]
    exact stored_infinity s

theorem stored_self {u : UnpackedFloat} (h : IsPacked u) : stored u = u := by
  rcases u with s | _ | s | ⟨s, m, e, hm⟩
  · exact stored_infinity s
  · rfl
  · exact stored_zero s
  · rw [stored_finite h.canonical, if_pos h.le]

/-- An amount beyond the doubles is packed as an infinity. -/
theorem amount_stored {s : Sign} {m : ℕ} {e : ℤ} {hm : 0 < m} (h : IsCanonical m e) :
    amount (stored (.finite s m e hm)) = signed s (min (m * 2 ^ e) overflow) := by
  rw [stored_finite h]
  by_cases he : e ≤ 971
  · have hlt := IsDouble.lt_overflow ⟨h.lt, h.normal, h.ge, he⟩
    rw [if_pos he, min_eq_left hlt.le, amount]
  · have hm : (2 : ℚ) ^ 52 ≤ m := by exact_mod_cast h.normal.resolve_right (by omega)
    have hge : overflow ≤ m * 2 ^ e := by
      calc overflow = 2 ^ 52 * 2 ^ (972 : ℤ) := by
            rw [overflow_eq, ← zpow_natCast, ← zpow_add₀ (by norm_num)]
            rfl
        _ ≤ 2 ^ 52 * 2 ^ e := by
            refine mul_le_mul_of_nonneg_left ?_ (by positivity)
            exact zpow_le_zpow_right₀ (by norm_num) (by omega)
        _ ≤ m * 2 ^ e := by gcongr
    rw [if_neg he, min_eq_right hge, amount]

theorem stored_ne_notANumber {s : Sign} {m : ℕ} {e : ℤ} {hm : 0 < m} (h : IsCanonical m e) :
    stored (.finite s m e hm) ≠ .notANumber := by
  rw [stored_finite h]
  split <;> nofun

end VectorStore.Number
