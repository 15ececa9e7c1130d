/-
  Which texts denote integers, and which integers have a double.

  * `exists_readInt_iff`: digits denote an integer just if all of them are decimal and there are
    not too many;
  * `ofDigits_natDigits`: the digits of a number denote it;
  * `ofInt?_eq_none_iff`: an integer has no double near it just if its size is `rangeEnd` or
    more.
-/
import Mathlib.Algebra.Group.Nat.Defs
import VectorStore.Number.Layout
import VectorStore.Number.Reader

namespace VectorStore.Number

/-! ## Digits as an integer -/

open Text (isDigit decimalValue? asciiDigit isAsciiBlank isBlank)

/-- What a character of a numeral is read as. -/
def asciiForm (c : Char) : Char :=
  if c.toNat < 128 then c
  else if isBlank c then ' '
  else match decimalValue? c with
    | some n => asciiDigit n
    | none => c

theorem asciiNumeral_eq_map (cs : List Char) : asciiNumeral cs = cs.map asciiForm := rfl

theorem isDecimal_asciiDigit (n : Nat) : isDecimal (asciiDigit n) = true := by
  have h : ∀ i < 10, isDecimal (Char.ofNat (48 + i)) = true := by decide
  exact h (n % 10) (Nat.mod_lt n (by decide))

theorem isDecimal_iff {c : Char} : isDecimal c = true ↔ 48 ≤ c.toNat ∧ c.toNat ≤ 57 := by
  simp only [isDecimal, Bool.and_eq_true, decide_eq_true_eq]
  rfl

theorem ofDigits_natDigits (n : Nat) : ofDigits (natDigits n) = n :=
  Nat.ofDigitChars_toDigits (by decide) (by decide)

/-- No digit is blank. -/
theorem isBlank_of_isDigit {c : Char} (h : isDigit c = true) : isBlank c = false := by
  obtain ⟨r, hr, hlow, hhigh⟩ := Text.Ranges.covers_iff.1 h
  have hapart : ∀ r ∈ Text.digitRanges, ∀ b ∈ Text.blankRanges, r.2 < b.1 ∨ b.2 < r.1 := by
    decide
  rw [← Bool.not_eq_true]
  intro hblank
  obtain ⟨b, hb, hblow, hbhigh⟩ := Text.Ranges.covers_iff.1 hblank
  have := hapart r hr b hb
  omega

/-- The digits of ASCII are decimal. -/
theorem isDecimal_of_isDigit {c : Char} (h : isDigit c = true) (ha : c.toNat < 128) :
    isDecimal c = true := by
  obtain ⟨r, hr, hlow, hhigh⟩ := Text.Ranges.covers_iff.1 h
  have hfirst : ∀ r ∈ Text.digitRanges, r = (48, 57) ∨ 128 ≤ r.1 := by decide
  rcases hfirst r hr with rfl | hr
  · exact isDecimal_iff.2 ⟨hlow, hhigh⟩
  · omega

theorem decimalValue?_of_isDecimal {c : Char} (h : isDecimal c = true) :
    (decimalValue? c).isSome = true := by
  obtain ⟨hlow, hhigh⟩ := isDecimal_iff.1 h
  rw [decimalValue?, Option.isSome_map, List.find?_isSome]
  exact ⟨48, by decide, by simp; omega⟩

/-- A digit is read as one just if it is decimal. -/
theorem isDecimal_asciiForm {c : Char} (h : isDigit c = true) :
    isDecimal (asciiForm c) = (decimalValue? c).isSome := by
  rw [asciiForm]
  split
  · next ha =>
    have hd : isDecimal c = true := isDecimal_of_isDigit h ha
    rw [hd, decimalValue?_of_isDecimal hd]
  · next ha =>
    rw [if_neg (by rw [isBlank_of_isDigit h]; decide)]
    cases decimalValue? c with
    | some n => exact isDecimal_asciiDigit n
    | none =>
      show isDecimal c = false
      rw [← Bool.not_eq_true, isDecimal_iff]
      omega

/-- What a digit is read as is no sign, no underscore and not blank. -/
theorem asciiForm_ne {c : Char} (h : isDigit c = true) :
    asciiForm c ≠ '-' ∧ asciiForm c ≠ '+' ∧ asciiForm c ≠ '_' ∧
      isAsciiBlank (asciiForm c) = false := by
  have hfar : isDecimal (asciiForm c) = true ∨ 128 ≤ (asciiForm c).toNat := by
    rw [isDecimal_asciiForm h, asciiForm]
    split
    · next ha => exact .inl (decimalValue?_of_isDecimal (isDecimal_of_isDigit h ha))
    · next ha =>
      rw [if_neg (by rw [isBlank_of_isDigit h]; decide)]
      cases decimalValue? c with
      | some n => exact .inl rfl
      | none => exact .inr (Nat.le_of_not_lt ha)
  rw [isDecimal_iff] at hfar
  refine ⟨?_, ?_, ?_, ?_⟩
  · intro he
    rw [he] at hfar
    revert hfar; decide
  · intro he
    rw [he] at hfar
    revert hfar; decide
  · intro he
    rw [he] at hfar
    revert hfar; decide
  · rw [← Bool.not_eq_true]
    intro hb
    simp only [isAsciiBlank, Bool.or_eq_true, Bool.and_eq_true, decide_eq_true_eq,
      beq_iff_eq] at hb
    rcases hb with hb | hb
    · omega
    · rw [hb] at hfar
      revert hfar; decide

theorem digitsAhead?_of_forall {cs : List Char} (h : ∀ c ∈ cs, isDecimal c = true) :
    digitsAhead? false cs = some cs.length := by
  induction cs with
  | nil => rfl
  | cons c cs ih =>
    obtain ⟨hc, hcs⟩ := List.forall_mem_cons.1 h
    rw [digitsAhead?, if_pos hc, ih hcs]
    rfl

theorem dropUnderscores_of_forall {cs : List Char} (h : ∀ c ∈ cs, c ≠ '_') {last : Char}
    (hl : last ≠ '_') : dropUnderscores last cs = some cs := by
  induction cs generalizing last with
  | nil => simp [dropUnderscores, hl]
  | cons c cs ih =>
    obtain ⟨hc, hcs⟩ := List.forall_mem_cons.1 h
    simp [dropUnderscores, hc, hl, ih hcs hc]

theorem takeSign_of_ne {c : Char} (hm : c ≠ '-') (hp : c ≠ '+') (cs : List Char) :
    takeSign (c :: cs) = (false, c :: cs) := by
  rw [takeSign] <;> simp [hm, hp]

/-- **Digits denote an integer just if all are decimal and they are not too many.** -/
theorem exists_readInt_iff {s : String} (hs : s.toList ≠ [])
    (hd : ∀ c ∈ s.toList, isDigit c = true) : (∃ n, readInt s = .ok n) ↔
      (∀ c ∈ s.toList, (decimalValue? c).isSome = true) ∧ s.toList.length ≤ maxIntDigits := by
  have hform : ∀ d ∈ s.toList.map asciiForm, d ≠ '-' ∧ d ≠ '+' ∧ d ≠ '_' ∧
      isAsciiBlank d = false := by
    intro d hm
    obtain ⟨c, hc, rfl⟩ := List.mem_map.1 hm
    exact asciiForm_ne (hd c hc)
  have hdecimal : (∀ c ∈ s.toList, (decimalValue? c).isSome = true) ↔
      ∀ d ∈ s.toList.map asciiForm, isDecimal d = true := by
    rw [List.forall_mem_map]
    exact forall₂_congr fun c hc => by rw [isDecimal_asciiForm (hd c hc)]
  have hlength : s.toList.length = (s.toList.map asciiForm).length := (List.length_map _).symm
  rw [hdecimal, hlength, readInt, asciiNumeral_eq_map]
  have hne : s.toList.map asciiForm ≠ [] := by simpa using hs
  generalize s.toList.map asciiForm = ds at hform hne
  have htrim : Text.trim isAsciiBlank ds = ds :=
    Text.trim_eq_self (fun c hc => (hform c (List.mem_of_mem_head? hc)).2.2.2)
      fun c hc => (hform c (List.mem_of_mem_getLast? hc)).2.2.2
  have hsign : takeSign ds = (false, ds) := by
    cases ds with
    | nil => exact absurd rfl hne
    | cons d ds =>
      obtain ⟨hm, hp, -⟩ := hform d (List.mem_cons_self ..)
      exact takeSign_of_ne hm hp ds
  have hunder : dropUnderscores ' ' ds = some ds :=
    dropUnderscores_of_forall (fun d hd => (hform d hd).2.2.1) (by decide)
  simp only [htrim, hsign, hunder, Option.map_some]
  by_cases hall : ∀ d ∈ ds, isDecimal d = true
  · have hahead : digitsAhead? true ds = some ds.length := by
      cases ds with
      | nil => exact absurd rfl hne
      | cons d ds =>
        obtain ⟨hd, hds⟩ := List.forall_mem_cons.1 hall
        rw [digitsAhead?, if_pos hd, digitsAhead?_of_forall hds]
        rfl
    have hok : ds.all isDecimal = true := List.all_eq_true.2 hall
    simp only [hahead, hok, Bool.not_true, Bool.false_eq_true, if_false]
    by_cases hl : maxIntDigits < ds.length
    · rw [if_pos hl]
      simp [hl]
    · rw [if_neg hl]
      exact iff_of_true ⟨_, rfl⟩ ⟨hall, by omega⟩
  · have hnall : (ds.all isDecimal) = false := by simpa using hall
    simp only [hall, false_and, iff_false, hnall]
    rintro ⟨n, hn⟩
    split at hn
    · cases hn
    · split at hn <;> cases hn

/-! ## Integers as doubles -/

/-- An integer scaled to 53 bits or more. -/
theorem exists_scaled {n : Nat} (h : n ≠ 0) :
    ∃ num den, scaled n 1 ((n.log2 : Int) - 52) = (num, den) ∧ den * 2 ^ 52 ≤ num := by
  have hlog : 2 ^ n.log2 ≤ n := Nat.log2_self_le h
  rw [scaled]
  split
  · next he =>
    refine ⟨_, _, rfl, ?_⟩
    have hpow : n.log2 = ((n.log2 : Int) - 52).toNat + 52 := by omega
    rw [Nat.one_mul, Nat.pow_eq, ← Nat.pow_add, ← hpow]
    exact hlog
  · next he =>
    refine ⟨_, _, rfl, ?_⟩
    have hpow : 52 = n.log2 + (-((n.log2 : Int) - 52)).toNat := by omega
    rw [Nat.one_mul, Nat.pow_eq]
    calc 2 ^ 52 = 2 ^ n.log2 * 2 ^ (-((n.log2 : Int) - 52)).toNat := by rw [← Nat.pow_add, ← hpow]
      _ ≤ n * 2 ^ (-((n.log2 : Int) - 52)).toNat := Nat.mul_le_mul_right _ hlog

/-- An integer is out of range if its highest bit is, or becomes so by rounding.  The powers
    have names, as they are not to be counted out. -/
theorem nearestBits?_eq_none {n num den p p' : Nat} (h : n ≠ 0) (hp : Nat.pow 2 52 = p)
    (hp' : Nat.pow 2 53 = p') (hs : scaled n 1 ((n.log2 : Int) - 52) = (num, den))
    (hle : den * p ≤ num) :
    nearestBits? n 1 = none ↔ 1023 < n.log2 ∨ n.log2 = 1023 ∧ roundDiv num den = p' := by
  have hlog1 : ((Nat.log2 1 : Nat) : Int) = 0 := by decide
  have hmax : max ((n.log2 : Int) - 52) (-1074) = (n.log2 : Int) - 52 := by omega
  have hnot : ¬ num < den * p := Nat.not_lt.2 hle
  rw [nearestBits?, if_neg h, hlog1, hp, hp']
  simp only [Int.sub_zero, hs, hnot, if_false, hmax]
  clear hp hp'
  by_cases hm : roundDiv num den = p'
  · simp only [hm, if_true]
    split
    · simp; omega
    · split <;> simp <;> omega
  · simp only [hm, if_false]
    split
    · simp; omega
    · split <;> simp <;> omega

/-- A quotient is rounded up from an odd number from half a unit above it on. -/
theorem roundDiv_eq_succ_iff {n u q : Nat} (hq : q % 2 = 1) (hn : n < (q + 1) * (2 * u)) :
    roundDiv n (2 * u) = q + 1 ↔ q * (2 * u) + u ≤ n := by
  have hsucc : (q + 1) * (2 * u) = q * (2 * u) + 2 * u := Nat.succ_mul q (2 * u)
  constructor
  · intro h
    have hle : 2 * (roundDiv n (2 * u) * (2 * u)) ≤ 2 * n + 2 * u := two_mul_roundDiv_le
    rw [h] at hle
    omega
  · intro h
    have hdiv : n / (2 * u) = q := Nat.div_eq_of_lt_le (by omega) hn
    have hmod : n % (2 * u) = n - q * (2 * u) := by
      have := Nat.div_add_mod n (2 * u)
      rw [hdiv, Nat.mul_comm] at this
      omega
    rw [roundDiv]
    simp only [hdiv, hmod]
    rw [if_neg (by omega), hq]
    split
    · rfl
    · exact if_neg (by decide)

/-- The least number beyond the doubles: half a unit below `2 ^ 1024`. -/
def rangeEnd : Nat := (2 ^ 54 - 1) * 2 ^ 970

theorem lt_rangeEnd {n : Nat} (h : n < 2 ^ 63) : n < rangeEnd := by
  obtain ⟨k, hk⟩ : ∃ k, 970 = k + 10 := ⟨960, rfl⟩
  have hpos : 0 < 2 ^ k := Nat.two_pow_pos k
  rw [rangeEnd, hk, Nat.pow_add]
  omega

/-- **There is no double near a number beyond them.** -/
theorem nearestBits?_eq_none_iff {n : Nat} : nearestBits? n 1 = none ↔ rangeEnd ≤ n := by
  obtain ⟨k, hk⟩ : ∃ k, k = 970 := ⟨_, rfl⟩
  have hpos : 0 < 2 ^ k := Nat.two_pow_pos k
  rw [rangeEnd, ← hk]
  by_cases h : n = 0
  · rw [h, nearestBits?, if_pos rfl]
    exact iff_of_false nofun (by omega)
  have htop : k + 54 ≤ n.log2 ↔ 2 ^ (k + 54) ≤ n := Nat.le_log2 h
  have hlow : k + 53 ≤ n.log2 ↔ 2 ^ (k + 53) ≤ n := Nat.le_log2 h
  rw [Nat.pow_add] at htop hlow
  obtain ⟨num, den, hs, hle⟩ := exists_scaled h
  rw [nearestBits?_eq_none h Nat.pow_eq Nat.pow_eq hs hle]
  by_cases heq : n.log2 = 1023
  · -- in the last binade the mantissa is rounded up from half a unit below its end on
    have hexp : (((1023 : Nat) : Int) - 52).toNat = k + 1 := by omega
    rw [heq, scaled, if_pos (by decide), Nat.one_mul, Nat.pow_eq, hexp, Nat.pow_succ,
      Nat.mul_comm] at hs
    obtain ⟨rfl, rfl⟩ := Prod.mk.inj hs
    have hend : n < 2 ^ 53 * (2 * 2 ^ k) := by omega
    have hround : roundDiv n (2 * 2 ^ k) = 2 ^ 53 ↔ (2 ^ 53 - 1) * (2 * 2 ^ k) + 2 ^ k ≤ n :=
      roundDiv_eq_succ_iff (by decide) hend
    rw [hround]
    omega
  · omega

theorem ofInt?_eq_none_iff {n : Int} : ofInt? n = none ↔ rangeEnd ≤ n.natAbs := by
  rw [ofInt?, nearest?, Option.map_eq_none_iff, nearestBits?_eq_none_iff]

theorem exists_ofInt? {n : Int} (h : n.natAbs < 2 ^ 63) : ∃ x, ofInt? n = some x := by
  rcases hn : ofInt? n with _ | x
  · have hrange : rangeEnd ≤ n.natAbs := ofInt?_eq_none_iff.1 hn
    have := lt_rangeEnd h
    omega
  · exact ⟨x, rfl⟩

end VectorStore.Number
