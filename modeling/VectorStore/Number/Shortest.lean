/-
  The shortest decimal that reads back as a given double.

  A positive double `v` is the nearest double to every number of an interval around it
  (`around`), ends included when its mantissa is even.  `shortest` tries 1, 2, … 17 digits:
  on each decimal grid it looks at the two neighbours of `v`, and the first grid with a
  neighbour inside the interval wins; of two the nearer, of two equally near the even one.
-/
import VectorStore.Number.Binary

namespace VectorStore.Number

/-- A decimal `digits · 10^exponent`. -/
structure Digits where
  digits : Nat
  exponent : Int
deriving DecidableEq, Repr

/-- The numbers `low / den` to `high / den` that round to `value / den`. -/
structure Interval where
  low : Nat
  value : Nat
  high : Nat
  den : Nat
  closed : Bool

/-- The numbers that round to `m · 2^e`: half a unit to either side, but a quarter of one
    below a power of two. -/
def around (m : Nat) (e : Int) : Interval :=
  let up := if 0 ≤ e then Nat.pow 2 e.toNat else 1
  let down := if 0 ≤ e then 1 else Nat.pow 2 (-e).toNat
  let below := if m = Nat.pow 2 52 ∧ -1074 < e then 1 else 2
  { low := (4 * m - below) * up
    value := 4 * m * up
    high := (4 * m + 2) * up
    den := 4 * down
    closed := m % 2 == 0 }

/-- Whether `c · 10^t` lies in the interval. -/
def Interval.holds (i : Interval) (c : Nat) (t : Int) : Bool :=
  let x := if 0 ≤ t then c * Nat.pow 10 t.toNat * i.den else c * i.den
  let scale := if 0 ≤ t then 1 else Nat.pow 10 (-t).toNat
  if i.closed then i.low * scale ≤ x && x ≤ i.high * scale
  else i.low * scale < x && x < i.high * scale

/-- The number of digits before the point: the least `k` with `value < 10^k`. -/
def Interval.magnitude (i : Interval) : Int :=
  let guess : Int := (((i.value.log2 : Int) - i.den.log2) * 30103) / 100000 - 1
  let reaches (k : Int) : Bool :=
    if 0 ≤ k then i.value < i.den * Nat.pow 10 k.toNat else i.value * Nat.pow 10 (-k).toNat < i.den
  if reaches guess then guess
  else if reaches (guess + 1) then guess + 1
  else if reaches (guess + 2) then guess + 2
  else guess + 3

/-- The best decimal with step `10^t` inside the interval, if there is one. -/
def Interval.onGrid (i : Interval) (t : Int) : Option Digits :=
  let num := if 0 ≤ t then i.value else i.value * Nat.pow 10 (-t).toNat
  let den := if 0 ≤ t then i.den * Nat.pow 10 t.toNat else i.den
  let c := num / den
  let r := num % den
  let nearer := if 2 * r < den ∨ (2 * r = den ∧ c % 2 = 0) then c else c + 1
  if i.holds nearer t then some ⟨nearer, t⟩
  else if i.holds c t then some ⟨c, t⟩
  else if i.holds (c + 1) t then some ⟨c + 1, t⟩
  else none

/-- The same decimal without zeros at the end of its digits. -/
def Digits.stripped (fuel : Nat) (d : Digits) : Digits :=
  match fuel with
  | 0 => d
  | fuel + 1 =>
    if d.digits % 10 = 0 ∧ d.digits ≠ 0 then Digits.stripped fuel ⟨d.digits / 10, d.exponent + 1⟩
    else d

/-- The shortest decimal of the positive double `m · 2^e`. -/
def shortest (m : Nat) (e : Int) : Digits :=
  let i := around m e
  let k := i.magnitude
  let found := (List.range 17).findSome? fun (n : Nat) => i.onGrid (k - ((n : Int) + 1))
  (found.getD ⟨i.value / i.den, 0⟩).stripped 400

end VectorStore.Number
