/-
  The bits of doubles.

  * `ofFloat_finite`: a finite double is read as a mantissa and an exponent that make up its bits,
    its sign apart; so it is the only one that is read so (`ofBits_signedBits`);
  * `ofFloat_infinite`, `ofFloat_nan`: there is one infinity of each sign, and one value that is
    not a number.
-/
import Mathlib
import VectorStore.Number.Reader

namespace VectorStore.Number

open Float.Model (Format)
open Float.Model.UnpackedFloat (packedNaN unpackExponent unpackMantissa)

/-! ## Bits -/

theorem toNat_unpackMantissa (b : BitVec Format.binary64.numBits) :
    (unpackMantissa b).toNat = b.toNat % 2 ^ 52 := by
  rw [unpackMantissa, BitVec.toNat_cast, BitVec.extractLsb_toNat]
  simp

theorem toNat_unpackExponent (b : BitVec Format.binary64.numBits) :
    (unpackExponent b).toNat = b.toNat / 2 ^ 52 % 2 ^ 11 := by
  rw [unpackExponent, BitVec.toNat_cast, BitVec.extractLsb_toNat, Nat.shiftRight_eq_div_pow]
  simp

/-! ## Readings -/

/-- The mantissa and the exponent of a finite double: a mantissa of less than 53 bits has the
    least exponent. -/
structure IsDouble (m : ℕ) (e : ℤ) : Prop where
  lt : m < 2 ^ 53
  normal : 2 ^ 52 ≤ m ∨ e = -1074
  ge : -1074 ≤ e
  le : e ≤ 971

/-- The bits of a double without its sign. -/
def bitsOf (m : ℕ) (e : ℤ) : ℕ :=
  if m < 2 ^ 52 then m else (e + 1075).toNat * 2 ^ 52 + (m - 2 ^ 52)

/-- The bits of a double with its sign. -/
def signedBits (negative : Bool) (bits : ℕ) : ℕ := if negative then 2 ^ 63 + bits else bits

theorem toNat_toBits_lt (x : Float) : x.toBits.toNat < 2 ^ 64 := x.toBits.toBitVec.isLt

theorem signedBits_div {bits : ℕ} (h : bits < 2 ^ 64) (n : ℕ) :
    signedBits (bits / 2 ^ 63 == 1) n = bits / 2 ^ 63 * 2 ^ 63 + n := by
  have hsign : bits / 2 ^ 63 = 0 ∨ bits / 2 ^ 63 = 1 := by omega
  rcases hsign with hs | hs
  · rw [hs, signedBits, if_neg (by decide), Nat.zero_mul, Nat.zero_add]
  · rw [hs, signedBits, if_pos (by decide), Nat.one_mul]

/-- **What a finite double is read as makes up its bits.** -/
theorem ofFloat_finite {x : Float} {negative : Bool} {m : ℕ} {e : ℤ}
    (h : Binary.ofFloat x = .finite negative m e) :
    IsDouble m e ∧ x.toBits.toNat = signedBits negative (bitsOf m e) := by
  have hlt := toNat_toBits_lt x
  unfold Binary.ofFloat at h
  simp only [Nat.pow_eq] at h
  generalize x.toBits.toNat = bits at h hlt
  split at h
  · split at h <;> cases h
  · split at h
    · cases h
      refine ⟨⟨by omega, .inr rfl, by omega, by omega⟩, ?_⟩
      rw [signedBits_div hlt, bitsOf, if_pos (by omega)]
      omega
    · cases h
      refine ⟨⟨by omega, .inl (by omega), by omega, by omega⟩, ?_⟩
      rw [signedBits_div hlt, bitsOf, if_neg (by omega)]
      omega

/-- A finite double is the one of the bits that it is read as. -/
theorem ofBits_signedBits {x : Float} {negative : Bool} {m : ℕ} {e : ℤ}
    (h : Binary.ofFloat x = .finite negative m e) :
    Float.ofBits (UInt64.ofNat (signedBits negative (bitsOf m e))) = x := by
  rw [← (ofFloat_finite h).2, UInt64.ofNat_toNat, Float.ofBits_toBits]

theorem ofFloat_infinite {x : Float} {negative : Bool}
    (h : Binary.ofFloat x = .infinite negative) : x = signedInfinity negative := by
  have hlt := toNat_toBits_lt x
  have hbits : (signedInfinity negative).toBits.toNat = signedBits negative (2047 * 2 ^ 52) := by
    cases negative <;> decide
  apply Float.toBits_inj.1
  apply UInt64.toNat_inj.1
  rw [hbits]
  unfold Binary.ofFloat at h
  simp only [Nat.pow_eq] at h
  generalize x.toBits.toNat = bits at h hlt
  split at h
  · split at h
    · cases h
      rw [signedBits_div hlt]
      omega
    · cases h
  · split at h <;> cases h

theorem ofFloat_nan {x : Float} (h : Binary.ofFloat x = .nan) : x = notANumber := by
  obtain ⟨b, hb⟩ : ∃ b : BitVec Format.binary64.numBits, b = x.toBits.toBitVec := ⟨_, rfl⟩
  have hvalid : Format.binary64.Valid b := hb ▸ x.toModel.valid
  have hbits : x.toBits.toNat = b.toNat := by rw [hb]; rfl
  have hnan : notANumber.toBits = UInt64.ofBitVec (packedNaN .binary64) := by decide
  unfold Binary.ofFloat at h
  simp only [Nat.pow_eq, hbits] at h
  split at h
  · next hfield =>
    split at h
    · cases h
    · next hfraction =>
      have he : unpackExponent b = -1#_ := by
        apply BitVec.eq_of_toNat_eq
        rw [toNat_unpackExponent]
        exact hfield
      have hm : unpackMantissa b ≠ 0#_ := by
        intro hzero
        have := congrArg BitVec.toNat hzero
        rw [toNat_unpackMantissa] at this
        exact hfraction this
      apply Float.toBits_inj.1
      rw [hnan, ← hvalid.eq_packedNaN he hm, hb]
  · split at h <;> cases h

end VectorStore.Number
