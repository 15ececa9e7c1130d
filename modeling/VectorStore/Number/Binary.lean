/-
  Doubles as exact numbers.

  * `Binary.ofFloat` reads a double as not a number, an infinity, or `± m · 2^e`;
  * `roundDiv` is division rounded to nearest, ties to even (`two_mul_roundDiv_le`,
    `le_two_mul_roundDiv`: never off by more than half);
  * `nearest?` is the double nearest to a fraction, ties to the even mantissa, or
    nothing beyond the largest double; `ofInt?` applies it to an integer;
  * `Binary.toRat?` is the exact value, by which doubles and integers are compared.
-/

namespace VectorStore.Number

/-- A double, read exactly. -/
inductive Binary where
  | nan
  | infinite (negative : Bool)
  /-- `± mantissa · 2^exponent` -/
  | finite (negative : Bool) (mantissa : Nat) (exponent : Int)
deriving DecidableEq, Repr

/-- The reading of a double's sign, exponent and fraction fields. -/
def Binary.ofFloat (x : Float) : Binary :=
  let bits := x.toBits.toNat
  let negative := bits / Nat.pow 2 63 == 1
  let field : Nat := bits / Nat.pow 2 52 % Nat.pow 2 11
  let fraction := bits % Nat.pow 2 52
  if field = 2047 then if fraction = 0 then .infinite negative else .nan
  else if field = 0 then .finite negative fraction (-1074)
  else .finite negative (fraction + Nat.pow 2 52) ((field : Int) - 1075)

/-- The numerator and denominator of `num / den · 2^(-e)`. -/
def scaled (num den : Nat) (e : Int) : Nat × Nat :=
  if 0 ≤ e then (num, den * Nat.pow 2 e.toNat) else (num * Nat.pow 2 (-e).toNat, den)

/-- The quotient rounded to nearest, a tie going to the even neighbour. -/
def roundDiv (num den : Nat) : Nat :=
  let q := num / den
  let r := num % den
  if 2 * r < den then q
  else if den < 2 * r then q + 1
  else if q % 2 = 0 then q else q + 1

theorem two_mul_roundDiv_le {num den : Nat} :
    2 * (roundDiv num den * den) ≤ 2 * num + den := by
  have h := Nat.div_add_mod num den
  rw [Nat.mul_comm] at h
  simp only [roundDiv]
  split
  · omega
  · split
    · rw [Nat.add_mul]; omega
    · split
      · omega
      · rw [Nat.add_mul]; omega

theorem le_two_mul_roundDiv {num den : Nat} (hden : 0 < den) :
    2 * num ≤ 2 * (roundDiv num den * den) + den := by
  have h := Nat.div_add_mod num den
  have hr := Nat.mod_lt num hden
  rw [Nat.mul_comm] at h
  simp only [roundDiv]
  split
  · omega
  · split
    · rw [Nat.add_mul]; omega
    · split
      · omega
      · rw [Nat.add_mul]; omega

/-- The bits of the double nearest to `num / den`, if it is within range. -/
def nearestBits? (num den : Nat) : Option Nat :=
  if num = 0 then some 0
  else
    let guess : Int := (num.log2 : Int) - den.log2 - 52
    let (n, d) := scaled num den guess
    let e := max (if n < d * Nat.pow 2 52 then guess - 1 else guess) (-1074)
    let (n, d) := scaled num den e
    let m := roundDiv n d
    let (m, e) := if m = Nat.pow 2 53 then (Nat.pow 2 52, e + 1) else (m, e)
    if 971 < e then none
    else if m < Nat.pow 2 52 then some m
    else some ((e + 1075).toNat * Nat.pow 2 52 + (m - Nat.pow 2 52))

/-- The double of the given sign nearest to `num / den`, if it is within range. -/
def nearest? (negative : Bool) (num den : Nat) : Option Float :=
  (nearestBits? num den).map fun bits =>
    Float.ofBits (UInt64.ofNat (if negative then Nat.pow 2 63 + bits else bits))

/-- The double nearest to an integer, if it is within range. -/
def ofInt? (n : Int) : Option Float := nearest? (n < 0) n.natAbs 1

/-- Positive infinity. -/
def infinity : Float := Float.ofBits 0x7ff0000000000000

/-- The value that is not a number. -/
def notANumber : Float := Float.ofBits 0x7ff8000000000000

/-- An infinity of the given sign. -/
def signedInfinity (negative : Bool) : Float := if negative then -infinity else infinity

/-- The exact value of a finite double. -/
def Binary.toRat? : Binary → Option Rat
  | .finite negative m e =>
    let size : Rat :=
      if 0 ≤ e then ((m * Nat.pow 2 e.toNat : Nat) : Rat) else mkRat m (Nat.pow 2 (-e).toNat)
    some (if negative then -size else size)
  | _ => none

/-- The exact value of a finite double. -/
def toRat? (x : Float) : Option Rat := (Binary.ofFloat x).toRat?

/-- The integer part of a finite double, cut toward zero. -/
def truncate? (x : Float) : Option Int :=
  match Binary.ofFloat x with
  | .finite negative m e =>
    let size : Nat := if 0 ≤ e then m * Nat.pow 2 e.toNat else m / Nat.pow 2 (-e).toNat
    some (if negative then -size else size)
  | _ => none

/-- Whether an integer and a double are the same number. -/
def intEqFloat (n : Int) (x : Float) : Bool := toRat? x == some (n : Rat)

/-- Whether an integer is below a double. -/
def intLtFloat (n : Int) (x : Float) : Bool :=
  match Binary.ofFloat x with
  | .nan => false
  | .infinite negative => !negative
  | b@(.finite ..) => (b.toRat?.map fun r => decide ((n : Rat) < r)).getD false

/-- Whether a double is below an integer. -/
def floatLtInt (x : Float) (n : Int) : Bool :=
  match Binary.ofFloat x with
  | .nan => false
  | .infinite negative => negative
  | b@(.finite ..) => (b.toRat?.map fun r => decide (r < (n : Rat))).getD false

end VectorStore.Number
