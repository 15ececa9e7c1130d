/-
  Times from zero on.

  * `Number.nonneg_iff`: a double is from zero on if it is zero or its sign is positive; then it is
    a number (`Number.isNumber_of_nonneg`);
  * `Number.nonneg_add`, `Number.nonneg_mul`, `Number.nonneg_div`: so are sums of such doubles,
    however they are rounded, products and quotients;
  * `Number.nonneg_ofInt?`, `Number.nonneg_truncate?`: so are the double near a natural number, and
    the integer part of such a double;
  * `Time.nonneg_ofMilliseconds`: so is the time that a natural number of milliseconds is.
-/
import Mathlib
import VectorStore.Proofs.Numbers
import VectorStore.Proofs.Store.Ranking
import VectorStore.Time

namespace VectorStore

namespace Number

open Float.Model (UnpackedFloat Format)
open Float.Model.UnpackedFloat (Sign Accuracy packComponents unpackSign unpackExponent
  unpackMantissa unpackMantissa_packComponents unpackExponent_packComponents)

/-! ## Comparisons -/

theorem beq_self_iff {a : UnpackedFloat} : a.beq a = true ↔ a ≠ .notANumber := by
  have hself (e : ℤ) (m : ℕ) : (compare e e).then (compare m m) = .eq := by simp
  rcases a with ⟨_ | _⟩ | _ | ⟨_ | _⟩ | ⟨_ | _, m, e, hm⟩ <;>
    simp only [UnpackedFloat.beq, UnpackedFloat.compare, hself, ne_eq, reduceCtorEq,
      not_false_eq_true, not_true_eq_false] <;> decide

/-- A double is a number unless it is what is not one. -/
theorem isNumber_iff {x : Float} : (x == x) = true ↔ x.toModel.unpack ≠ .notANumber := beq_self_iff

/-- Numbers can be compared. -/
theorem exists_compare {a b : UnpackedFloat} (ha : a ≠ .notANumber) (hb : b ≠ .notANumber) :
    ∃ o, a.compare b = some o := by
  rcases a with ⟨_ | _⟩ | _ | ⟨_ | _⟩ | ⟨_ | _, m, e, hm⟩
  case notANumber => exact absurd rfl ha
  all_goals
    rcases b with ⟨_ | _⟩ | _ | ⟨_ | _⟩ | ⟨_ | _, m', e', hm'⟩
    case notANumber => exact absurd rfl hb
    all_goals exact ⟨_, rfl⟩

theorem le_iff {x y : Float} :
    x ≤ y ↔ ∃ o, x.toModel.unpack.compare y.toModel.unpack = some o ∧ o ≠ .gt := by
  have h : x ≤ y ↔ x.toModel.unpack.le y.toModel.unpack = true := by
    show decide (x.toModel ≤ y.toModel) = true ↔ _
    rw [decide_eq_true_eq]
    rfl
  rw [h, UnpackedFloat.le]
  rcases x.toModel.unpack.compare y.toModel.unpack with _ | o
  · simp
  · simp [Ordering.isLE_iff_ne_gt]

/-- Only numbers are compared. -/
theorem isNumber_of_le {x y : Float} (h : x ≤ y) : (x == x) = true ∧ (y == y) = true := by
  obtain ⟨o, ho, -⟩ := le_iff.1 h
  rw [isNumber_iff, isNumber_iff]
  constructor <;> intro hnan <;> rw [hnan] at ho
  · cases ho
  · cases hu : x.toModel.unpack <;> rw [hu] at ho <;> cases ho

/-- Of two numbers one comes before the other, or it does not come after it. -/
theorem le_iff_not_lt {x y : Float} (hx : (x == x) = true) (hy : (y == y) = true) :
    x ≤ y ↔ ¬y < x := by
  obtain ⟨o, ho⟩ := exists_compare (isNumber_iff.1 hx) (isNumber_iff.1 hy)
  rw [le_iff, lt_iff, compare_swap x.toModel.unpack, ho]
  cases o <;> simp

protected theorem lt_of_not_le {x y : Float} (hx : (x == x) = true) (hy : (y == y) = true)
    (h : ¬x ≤ y) : y < x :=
  not_not.1 (mt (le_iff_not_lt hx hy).2 h)

protected theorem le_of_lt {x y : Float} (h : x < y) : x ≤ y := le_iff.2 ⟨.lt, lt_iff.1 h, nofun⟩

protected theorem not_le_of_lt {x y : Float} (h : x < y) : ¬y ≤ x := by
  rw [le_iff, compare_swap, lt_iff.1 h]
  rintro ⟨o, ho, hne⟩
  cases ho
  exact hne rfl

protected theorem lt_irrefl (x : Float) : ¬x < x := fun h =>
  Number.not_le_of_lt h (Number.le_of_lt h)

/-! ## Signs -/

/-- The value is zero, or it is positive. -/
def fromZero : UnpackedFloat → Bool
  | .zero _ | .infinity .positive | .finite .positive .. => true
  | _ => false

/-- **A double is from zero on just if it is zero or positive.** -/
theorem nonneg_iff {x : Float} : 0 ≤ x ↔ fromZero x.toModel.unpack = true := by
  have h : 0 ≤ x ↔ (UnpackedFloat.zero .positive).le x.toModel.unpack = true := by
    show decide ((0 : Float).toModel ≤ x.toModel) = true ↔ _
    rw [decide_eq_true_eq]
    rfl
  rw [h]
  rcases x.toModel.unpack with ⟨_ | _⟩ | _ | _ | ⟨_ | _, m, e, hm⟩ <;>
    simp [fromZero, UnpackedFloat.le, UnpackedFloat.compare]

theorem isNumber_of_nonneg {x : Float} (h : 0 ≤ x) : (x == x) = true := (isNumber_of_le h).2

/-- Doubles from zero on that have the same place are the same, or both are zero. -/
theorem eq_or_zero_of_placeOf_eq {a b : UnpackedFloat} (ha : fromZero a = true)
    (hb : fromZero b = true) (h : placeOf a = placeOf b) :
    a = b ∨ ∃ s s', a = .zero s ∧ b = .zero s' := by
  rcases a with ⟨_ | _⟩ | _ | ⟨_ | _⟩ | ⟨_ | _, m, e, hm⟩ <;> try cases ha
  all_goals
    rcases b with ⟨_ | _⟩ | _ | ⟨_ | _⟩ | ⟨_ | _, m', e', hm'⟩ <;> try cases hb
  case finite.positive.refl.finite.positive.refl =>
    simp only [placeOf, EmbeddingLike.apply_eq_iff_eq, Prod.mk.injEq, Int.natCast_inj,
      true_and] at h
    obtain ⟨rfl, rfl⟩ := h
    exact .inl rfl
  all_goals simp_all [placeOf]

theorem fromZero_round (m : ℕ) (e : ℤ) (accuracy : Accuracy) :
    fromZero (.roundWithAccuracy .binary64 .positive m e accuracy) = true := by
  rw [UnpackedFloat.roundWithAccuracy]
  dsimp only
  split <;> rfl

theorem fromZero_normalize {n : ℤ} (h : 0 ≤ n) (e : ℤ) :
    fromZero (.normalize .binary64 n e .positive) = true := by
  unfold UnpackedFloat.normalize
  split
  · next hlt =>
    rw [compare_lt_iff_lt] at hlt
    omega
  · rfl
  · exact fromZero_round _ _ _

theorem fromZero_add {a b : UnpackedFloat} (ha : fromZero a = true) (hb : fromZero b = true) :
    fromZero (a.add .binary64 b) = true := by
  rcases a with ⟨_ | _⟩ | _ | ⟨_ | _⟩ | ⟨_ | _, m, e, hm⟩ <;> try cases ha
  all_goals
    rcases b with ⟨_ | _⟩ | _ | ⟨_ | _⟩ | ⟨_ | _, m', e', hm'⟩ <;> try cases hb
  all_goals try rfl
  exact fromZero_normalize (Int.add_nonneg (Int.natCast_nonneg _) (Int.natCast_nonneg _)) _

theorem fromZero_div {a : UnpackedFloat} (ha : fromZero a = true) (m : ℕ) (e : ℤ) (hm : 0 < m) :
    fromZero (a.div .binary64 (.finite .positive m e hm)) = true := by
  rcases a with ⟨_ | _⟩ | _ | ⟨_ | _⟩ | ⟨_ | _, m', e', hm'⟩ <;> try cases ha
  all_goals first | rfl | exact fromZero_round _ _ _

theorem fromZero_mul {a : UnpackedFloat} (ha : fromZero a = true) (m : ℕ) (e : ℤ) (hm : 0 < m) :
    fromZero (a.mul .binary64 (.finite .positive m e hm)) = true := by
  rcases a with ⟨_ | _⟩ | _ | ⟨_ | _⟩ | ⟨_ | _, m', e', hm'⟩ <;> try cases ha
  all_goals first | rfl | exact fromZero_round _ _ _

/-! ## Bits -/

theorem getLsbD_append_append {v w : ℕ} (s : BitVec 1) (e : BitVec v) (m : BitVec w) :
    (s ++ e ++ m).getLsbD (w + v) = s.getLsbD 0 := by
  rw [BitVec.getLsbD_append, BitVec.getLsbD_append]
  simp

theorem unpackSign_packComponents {s : Sign} {e : BitVec Format.binary64.exponentBits}
    {m : BitVec Format.binary64.mantissaBitsWithoutImplicit} :
    unpackSign (packComponents .binary64 s e m) = s.toBitVec := by
  ext i hi
  obtain rfl : i = 0 := by omega
  rw [unpackSign, BitVec.getElem_cast, BitVec.extractLsb, BitVec.getElem_extractLsb',
    packComponents]
  exact getLsbD_append_append s.toBitVec e m

theorem fromZero_packComponents {e : BitVec Format.binary64.exponentBits}
    {m : BitVec Format.binary64.mantissaBitsWithoutImplicit} (h : e = -1#_ → m = 0#_) :
    fromZero (.unpack .binary64 (packComponents .binary64 .positive e m)) = true := by
  simp only [UnpackedFloat.unpack, unpackMantissa_packComponents, unpackExponent_packComponents,
    unpackSign_packComponents]
  split
  · next he =>
    rw [if_pos (h he)]
    rfl
  · split
    · split <;> rfl
    · rfl

/-- Writing a value down keeps it from zero on. -/
theorem fromZero_pack {u : UnpackedFloat} (h : fromZero u = true) :
    fromZero (Float.Model.pack u).unpack = true := by
  show fromZero (.unpack .binary64 (UnpackedFloat.pack .binary64 u)) = true
  rcases u with ⟨_ | _⟩ | _ | ⟨_ | _⟩ | ⟨_ | _, m, e, hm⟩
  case finite.positive =>
    rw [UnpackedFloat.pack]
    dsimp only
    split
    · exact fromZero_packComponents fun _ => rfl
    · next hlt =>
      split
      · refine fromZero_packComponents fun he => ?_
        have hbits := congrArg BitVec.toNat he
        simp [BitVec.toNat_ofNat] at hbits
        omega
      · exact fromZero_packComponents fun he => absurd he (by decide)
  all_goals first | rfl | cases h

theorem fromZero_unpack {b : BitVec Format.binary64.numBits} (h : b.toNat < 2047 * 2 ^ 52) :
    fromZero (.unpack .binary64 b) = true := by
  have hsign : unpackSign b = 0#1 := by
    apply BitVec.eq_of_toNat_eq
    rw [unpackSign, BitVec.toNat_cast, BitVec.extractLsb_toNat, Nat.shiftRight_eq_div_pow]
    simp
    omega
  have hexponent : unpackExponent b ≠ -1#_ := by
    intro he
    have hbits := congrArg BitVec.toNat he
    rw [unpackExponent, BitVec.toNat_cast, BitVec.extractLsb_toNat,
      Nat.shiftRight_eq_div_pow] at hbits
    simp at hbits
    omega
  rw [UnpackedFloat.unpack, hsign]
  dsimp only
  rw [if_neg hexponent]
  split
  · split <;> rfl
  · rfl

/-- The bits of a double from zero on are without a sign, or are nothing but a sign. -/
theorem toNat_toBits_of_nonneg {x : Float} (h : 0 ≤ x) :
    x.toBits.toNat < 2 ^ 63 ∨ x.toBits.toNat = 2 ^ 63 := by
  rw [nonneg_iff] at h
  obtain ⟨b, hb⟩ : ∃ b : BitVec Format.binary64.numBits, b = x.toBits.toBitVec := ⟨_, rfl⟩
  have hbits : x.toBits.toNat = b.toNat := by rw [hb]; rfl
  have hunpack : x.toModel.unpack = .unpack .binary64 b := by rw [hb]; rfl
  have hlt : b.toNat < 2 ^ 64 := b.isLt
  rw [hunpack] at h
  rw [hbits]
  by_contra hno
  obtain ⟨hge, hne⟩ := not_or.1 hno
  have hsign : unpackSign b = 1#1 := by
    apply BitVec.eq_of_toNat_eq
    rw [unpackSign, BitVec.toNat_cast, BitVec.extractLsb_toNat, Nat.shiftRight_eq_div_pow]
    simp
    omega
  have hnegative : Sign.ofBitVec (1#1) = .negative := rfl
  rw [UnpackedFloat.unpack, hsign, hnegative] at h
  dsimp only at h
  split at h
  · split at h <;> cases h
  · split at h
    · next hexponent =>
      split at h
      · next hmantissa =>
        have he := congrArg BitVec.toNat hexponent
        have hm := congrArg BitVec.toNat hmantissa
        rw [unpackExponent, BitVec.toNat_cast, BitVec.extractLsb_toNat,
          Nat.shiftRight_eq_div_pow] at he
        rw [unpackMantissa, BitVec.toNat_cast, BitVec.extractLsb_toNat,
          Nat.shiftRight_eq_div_pow] at hm
        simp at he hm
        omega
      · cases h
    · cases h

/-- A double from zero on is not read as a negative number, unless as a negative zero. -/
theorem ofFloat_of_nonneg {x : Float} (h : 0 ≤ x) :
    (∀ m e, Binary.ofFloat x ≠ .finite true m e) ∨ Binary.ofFloat x = .finite true 0 (-1074) := by
  rcases toNat_toBits_of_nonneg h with hbits | hbits
  · refine .inl fun m e => ?_
    have hpositive : (x.toBits.toNat / Nat.pow 2 63 == 1) = false := by
      have hpow : Nat.pow 2 63 = 2 ^ 63 := rfl
      rw [beq_eq_false_iff_ne, hpow]
      omega
    rw [Binary.ofFloat, hpositive]
    split
    · split <;> nofun
    · split <;> nofun
  · right
    rw [Binary.ofFloat, hbits]
    decide

/-! ## Arithmetic -/

theorem nonneg_add {x y : Float} (hx : 0 ≤ x) (hy : 0 ≤ y) : 0 ≤ x + y := by
  rw [nonneg_iff] at *
  exact fromZero_pack (fromZero_add hx hy)

theorem nonneg_mul {x y : Float} (hx : 0 ≤ x) {m : ℕ} {e : ℤ} {hm : 0 < m}
    (hy : y.toModel.unpack = .finite .positive m e hm) : 0 ≤ x * y := by
  rw [nonneg_iff] at *
  refine fromZero_pack ?_
  rw [hy]
  exact fromZero_mul hx m e hm

theorem nonneg_div {x y : Float} (hx : 0 ≤ x) {m : ℕ} {e : ℤ} {hm : 0 < m}
    (hy : y.toModel.unpack = .finite .positive m e hm) : 0 ≤ x / y := by
  rw [nonneg_iff] at *
  refine fromZero_pack ?_
  rw [hy]
  exact fromZero_div hx m e hm

/-- An integer scaled to no more than 53 bits. -/
theorem scaled_lt {n num den : Nat} (h : scaled n 1 ((n.log2 : Int) - 52) = (num, den)) :
    num < den * 2 ^ 53 := by
  have hlog : n < 2 ^ (n.log2 + 1) := Nat.lt_log2_self
  rw [scaled] at h
  split at h
  · next he =>
    obtain ⟨rfl, rfl⟩ := Prod.mk.inj h
    have hpow : n.log2 + 1 = ((n.log2 : Int) - 52).toNat + 53 := by omega
    rw [Nat.one_mul, Nat.pow_eq, ← Nat.pow_add, ← hpow]
    exact hlog
  · next he =>
    obtain ⟨rfl, rfl⟩ := Prod.mk.inj h
    have hpow : 53 = n.log2 + 1 + (-((n.log2 : Int) - 52)).toNat := by omega
    rw [Nat.one_mul, Nat.pow_eq, hpow, Nat.pow_add]
    exact Nat.mul_lt_mul_of_pos_right hlog (Nat.two_pow_pos _)

/-- The bits of the double near a natural number have no sign, and do not stand for an infinity.
    The powers have names, as they are not to be counted out. -/
theorem nearestBits?_lt {n bits : Nat} (h : nearestBits? n 1 = some bits) :
    bits < 2047 * 2 ^ 52 := by
  obtain ⟨p, hp⟩ : ∃ p, Nat.pow 2 52 = p := ⟨_, rfl⟩
  obtain ⟨q, hq⟩ : ∃ q, Nat.pow 2 53 = q := ⟨_, rfl⟩
  have hpq : q = 2 * p := by rw [← hp, ← hq]
  have hpos : 0 < p := hp ▸ Nat.two_pow_pos 52
  have hgoal : 2 ^ 52 = p := hp
  rw [hgoal]
  by_cases hn : n = 0
  · rw [hn, nearestBits?, if_pos rfl] at h
    cases h
    omega
  obtain ⟨num, den, hs, hle⟩ := exists_scaled hn
  have hlt : num < den * q := hq ▸ scaled_lt hs
  have hround : roundDiv num den ≤ q := by
    have hnear : 2 * (roundDiv num den * den) ≤ 2 * num + den := two_mul_roundDiv_le
    by_contra hmore
    have hden : (q + 1) * den ≤ roundDiv num den * den := Nat.mul_le_mul_right den (by omega)
    have hsucc : (q + 1) * den = den * q + den := by rw [Nat.succ_mul, Nat.mul_comm]
    omega
  rw [hgoal] at hle
  have hlog1 : ((Nat.log2 1 : Nat) : Int) = 0 := by decide
  have hmax : max ((n.log2 : Int) - 52) (-1074) = (n.log2 : Int) - 52 := by omega
  have hnot : ¬ num < den * p := Nat.not_lt.2 hle
  have hfield (e : Int) (he : ¬971 < e) : (e + 1075).toNat * p ≤ 2046 * p :=
    Nat.mul_le_mul_right p (by omega)
  rw [nearestBits?, if_neg hn, hlog1, hp, hq] at h
  simp only [Int.sub_zero, hs, hnot, if_false, hmax] at h
  by_cases hm : roundDiv num den = q
  · simp only [hm, if_true] at h
    split at h
    · cases h
    · next he =>
      have := hfield _ he
      split at h <;> cases h <;> omega
  · simp only [hm, if_false] at h
    split at h
    · cases h
    · next he =>
      have := hfield _ he
      split at h <;> cases h <;> omega

/-- **The double near a natural number is from zero on.** -/
theorem nonneg_ofInt? {n : Int} {x : Float} (hn : 0 ≤ n) (h : ofInt? n = some x) : 0 ≤ x := by
  rw [ofInt?, nearest?, decide_eq_false (by omega)] at h
  obtain ⟨bits, hbits, rfl⟩ := Option.map_eq_some_iff.1 h
  have hlt : bits < 2047 * 2 ^ 52 := nearestBits?_lt hbits
  rw [nonneg_iff]
  refine fromZero_pack (fromZero_unpack ?_)
  simp
  omega

/-- **The integer part of a double from zero on is from zero on.** -/
theorem nonneg_truncate? {x : Float} {n : Int} (hx : 0 ≤ x) (h : truncate? x = some n) : 0 ≤ n := by
  rw [truncate?] at h
  rcases ofFloat_of_nonneg hx with hread | hread
  · split at h
    · next negative m e hr =>
      cases negative with
      | true => exact absurd hr (hread m e)
      | false =>
        cases h
        exact Int.natCast_nonneg _
    · cases h
  · -- the power of two is not to be counted out
    rw [hread] at h
    have hzero : some (-((0 / Nat.pow 2 (- -1074 : Int).toNat : Nat) : Int)) = some n := h
    rw [Nat.zero_div] at hzero
    cases hzero
    decide

/-- **A double from zero on is rounded to one from zero on.** -/
theorem nonneg_roundTo {x : Float} (hx : 0 ≤ x) : 0 ≤ roundTo 0 x := by
  have hnearest {n : Nat} {y : Float} (h : nearest? false n (Nat.pow 10 0) = some y) : 0 ≤ y :=
    nonneg_ofInt? (Int.natCast_nonneg n) h
  rw [roundTo]
  rcases ofFloat_of_nonneg hx with hread | hread
  · split
    · next negative m e hr =>
      cases negative with
      | true => exact absurd hr (hread m e)
      | false =>
        rcases hy : nearest? false (inPlaces 0 m e) (Nat.pow 10 0) with _ | y
        · exact hx
        · exact hnearest hy
    · exact hx
  · rw [hread]
    show (0 : Float) ≤ (nearest? true (inPlaces 0 0 (-1074)) (Nat.pow 10 0)).getD x
    have hzero : nearest? true (inPlaces 0 0 (-1074)) (Nat.pow 10 0) = some (-0.0) := by
      decide +kernel
    rw [hzero, Option.getD_some]
    exact nonneg_iff.2 (by decide)

end Number

/-- A moment later than times that do not come before each other is the same time. -/
theorem Time.add_moment_eq {x y : Time} (hx : 0 ≤ x) (hy : 0 ≤ y) (hxy : ¬x < y) (hyx : ¬y < x) :
    x + Time.moment = y + Time.moment := by
  have hnumber {z : Time} (hz : 0 ≤ z) : (z == z) = true := Number.isNumber_of_nonneg hz
  rw [Number.lt_iff_place (hnumber hx) (hnumber hy), not_lt] at hxy
  rw [Number.lt_iff_place (hnumber hy) (hnumber hx), not_lt] at hyx
  rw [Number.nonneg_iff] at hx hy
  obtain ⟨m, e, hpos, hmoment⟩ : ∃ m e hpos, Time.moment.toModel.unpack =
      .finite .positive m e hpos := ⟨_, _, by decide, rfl⟩
  have hadd (z : Time) : z + Time.moment =
      .ofModel (.pack (z.toModel.unpack.add .binary64 (.finite .positive m e hpos))) := by
    rw [← hmoment]
    rfl
  rw [hadd, hadd]
  rcases Number.eq_or_zero_of_placeOf_eq hx hy (le_antisymm hyx hxy) with h | ⟨s, s', hx, hy⟩
  · rw [h]
  · rw [hx, hy]
    rfl

theorem Time.unpack_thousand : (1000.0 : Float).toModel.unpack =
    .finite .positive 8796093022208000 (-43) (by decide) := rfl

/-- **Some milliseconds are a time from zero on.** -/
theorem Time.nonneg_ofMilliseconds {ms : Float} (h : 0 ≤ ms) : 0 ≤ Time.ofMilliseconds ms :=
  Number.nonneg_div h Time.unpack_thousand

theorem Time.nonneg_milliseconds {t : Time} (h : 0 ≤ t) : 0 ≤ t.milliseconds :=
  Number.nonneg_mul h Time.unpack_thousand

theorem Time.nonneg_wholeMilliseconds {t : Time} (h : 0 ≤ t) : 0 ≤ t.wholeMilliseconds := by
  have hround := Number.nonneg_roundTo (Time.nonneg_milliseconds h)
  rw [Time.wholeMilliseconds]
  rcases hn : Number.truncate? (Number.roundTo 0 t.milliseconds) with _ | n
  · exact le_rfl
  · exact Number.nonneg_truncate? hround hn

end VectorStore
