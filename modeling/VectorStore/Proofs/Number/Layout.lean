/-
  The texts of doubles.

  * `Layout.parts`: the digits before and after the point and the exponent that a notation writes
    (`place_eq_spell`); they denote the decimal that is written (`parts_value`);
  * `exists_parts`: so a finite double is written in parts that denote it, and all that is left to a
    reader is to find them;
  * `readDecimal?_spell`: the reader of decimals finds them;
  * `readFloat?_writeChars`: so every double is read as it is written, in a text of few characters
    (`alphabet`).
-/
import VectorStore.Number.Layout
import VectorStore.Proofs.Number.Decimals
import VectorStore.Proofs.Numbers

namespace VectorStore.Number

open Text (isAsciiBlank)

/-! ## Digits -/

theorem ofDigits_append (a b : List Char) :
    ofDigits (a ++ b) = ofDigits a * 10 ^ b.length + ofDigits b := by
  have h : ofDigits (a ++ b) = Nat.ofDigitChars 10 b (ofDigits a) := Nat.ofDigitChars_append 0
  rw [h, Nat.ofDigitChars_eq_ofDigitChars_zero, Nat.mul_comm]
  rfl

theorem ofDigits_replicate (n : ℕ) : ofDigits (List.replicate n '0') = 0 := by
  have h : ofDigits (List.replicate n '0') = 10 ^ n * 0 := Nat.ofDigitChars_replicate_zero
  rw [h, Nat.mul_zero]

theorem isDecimal_of_mem_replicate {n : ℕ} {c : Char} (h : c ∈ List.replicate n '0') :
    isDecimal c = true := by
  rw [List.eq_of_mem_replicate h]
  decide

theorem isDecimal_of_mem_natDigits {n : ℕ} {c : Char} (h : c ∈ natDigits n) :
    isDecimal c = true := by
  have hdigit := Nat.isDigit_of_mem_toDigits (by decide) (by decide) h
  simp only [Char.isDigit, Bool.and_eq_true, decide_eq_true_eq] at hdigit
  simp only [isDecimal, Bool.and_eq_true, decide_eq_true_eq]
  exact hdigit

/-- The digits of a positive number do not start with a zero. -/
theorem exists_natDigits {n : ℕ} (h : 0 < n) : ∃ c cs, natDigits n = c :: cs ∧ c ≠ '0' := by
  induction n using Nat.strong_induction_on with
  | _ n ih =>
    by_cases hn : n < 10
    · refine ⟨n.digitChar, [], Nat.toDigits_of_lt_base hn, ?_⟩
      have hall : ∀ k < 10, 0 < k → k.digitChar ≠ '0' := by decide
      exact hall n hn h
    · obtain ⟨c, cs, hc, hne⟩ := ih (n / 10) (by omega) (by omega)
      refine ⟨c, cs ++ [(n % 10).digitChar], ?_, hne⟩
      have hsplit : natDigits n = natDigits (n / 10) ++ [(n % 10).digitChar] :=
        Nat.toDigits_of_base_le (by decide) (by omega)
      rw [hsplit, hc]
      rfl

theorem isDecimal_cases {c : Char} (h : isDecimal c = true) :
    c ∈ ['0', '1', '2', '3', '4', '5', '6', '7', '8', '9'] := by
  obtain ⟨hlow, hhigh⟩ := isDecimal_iff.1 h
  have hc : c = Char.ofNat c.toNat := (Char.ofNat_toNat c).symm
  generalize c.toNat = n at hlow hhigh hc
  subst hc
  have hall : ∀ n < 58, 48 ≤ n → Char.ofNat n ∈
      ['0', '1', '2', '3', '4', '5', '6', '7', '8', '9'] := by decide
  exact hall n (by omega) hlow

theorem takeWhile_digits {ds rest : List Char} (hd : ∀ c ∈ ds, isDecimal c = true)
    (hr : ∀ c ∈ rest.head?, isDecimal c = false) :
    (ds ++ rest).takeWhile isDecimal = ds ∧ (ds ++ rest).dropWhile isDecimal = rest := by
  have hrest : rest.takeWhile isDecimal = [] ∧ rest.dropWhile isDecimal = rest := by
    cases rest with
    | nil => exact ⟨rfl, rfl⟩
    | cons c rest =>
      have hc : isDecimal c = false := hr c rfl
      simp [hc]
  rw [List.takeWhile_append_of_pos hd, List.dropWhile_append_of_pos hd, hrest.1, hrest.2,
    List.append_nil]
  exact ⟨rfl, rfl⟩

theorem padded_spec (width n : ℕ) : padded width n ≠ [] ∧
    (∀ c ∈ padded width n, isDecimal c = true) ∧ ofDigits (padded width n) = n := by
  rw [padded]
  refine ⟨?_, ?_, ?_⟩
  · have : natDigits n ≠ [] := Nat.toDigits_ne_nil
    simp [this]
  · intro c hc
    rcases List.mem_append.1 hc with hc | hc
    · exact isDecimal_of_mem_replicate hc
    · exact isDecimal_of_mem_natDigits hc
  · rw [ofDigits_append, ofDigits_replicate, ofDigits_natDigits, Nat.zero_mul, Nat.zero_add]

/-- A number is its size with its sign. -/
theorem signed_natAbs (n : ℤ) : (if decide (n < 0) then -(n.natAbs : ℤ) else n.natAbs) = n := by
  by_cases h : n < 0
  · rw [if_pos (decide_eq_true h)]
    omega
  · rw [if_neg (by simpa using h)]
    omega

/-- The sign of an exponent is read from its mark. -/
theorem takeSign_sign (e : ℤ) (cs : List Char) :
    takeSign ((if e < 0 then '-' else '+') :: cs) = (decide (e < 0), cs) := by
  split
  · next h => simp [takeSign, h]
  · next h => simp [takeSign, h]

/-! ## The parts of a text -/

/-- The parts of the text that a notation gives to the digits of a decimal. -/
def Layout.parts (l : Layout) (ds : List Char) (point : ℤ) : DecimalParts :=
  if point - 1 < l.firstPositional ∨ l.endPositional ≤ point - 1 then
    ⟨ds.take 1, ds.drop 1, point - 1⟩
  else if point ≤ 0 then ⟨['0'], List.replicate (-point).toNat '0' ++ ds, 0⟩
  else if ds.length ≤ point.toNat then
    ⟨ds ++ List.replicate (point.toNat - ds.length) '0', ['0'], 0⟩
  else ⟨ds.take point.toNat, ds.drop point.toNat, 0⟩

/-- The text of the parts: a point stands before a fraction, an exponent that is not zero has its
    mark. -/
def Layout.spell (l : Layout) (p : DecimalParts) : List Char :=
  p.whole ++ ((if p.fraction = [] then [] else '.' :: p.fraction) ++
    if p.exponent = 0 then [] else l.exponent p.exponent)

/-- Parts that make up the text of a double: a zero alone or digits that do not start with one, and
    then a fraction, an exponent or both. -/
structure DecimalParts.Sound (p : DecimalParts) : Prop where
  whole : ∀ c ∈ p.whole, isDecimal c = true
  fraction : ∀ c ∈ p.fraction, isDecimal c = true
  first : p.whole = ['0'] ∨ ∃ c cs, p.whole = c :: cs ∧ c ≠ '0'
  marked : p.fraction ≠ [] ∨ p.exponent ≠ 0

variable {l : Layout} {ds : List Char} {point : ℤ}

theorem spell_cons {p : DecimalParts} (hp : p.Sound) :
    ∃ c cs, l.spell p = c :: cs ∧ isDecimal c = true := by
  obtain ⟨c, cs, hc⟩ : ∃ c cs, p.whole = c :: cs := by
    rcases hp.first with h | ⟨c, cs, h, -⟩
    · exact ⟨_, _, h⟩
    · exact ⟨c, cs, h⟩
  exact ⟨c, _, by rw [Layout.spell, hc, List.cons_append],
    hp.whole c (hc ▸ List.mem_cons_self ..)⟩

/-- **The text of a decimal is that of its parts.** -/
theorem place_eq_spell (hl : l.firstPositional ≤ 0 ∧ 0 < l.endPositional) (hds : ds ≠ []) :
    l.place ds point = l.spell (l.parts ds point) := by
  obtain ⟨d, more, rfl⟩ := List.exists_cons_of_ne_nil hds
  unfold Layout.place Layout.parts
  dsimp only
  split
  · next he =>
    have hne : point - 1 ≠ 0 := by omega
    generalize point - 1 = e at hne
    cases more with
    | nil => simp [Layout.spell, hne]
    | cons d' more => simp [Layout.spell, hne]
  · split
    · simp [Layout.spell]
    · split
      · simp [Layout.spell]
      · next hlength =>
        have hne : (d :: more).drop point.toNat ≠ [] := by
          rw [Ne, List.drop_eq_nil_iff]
          exact hlength
        simp [Layout.spell, hne]

theorem parts_sound (hl : l.firstPositional ≤ 0 ∧ 0 < l.endPositional)
    (hdecimal : ∀ c ∈ ds, isDecimal c = true) (hfirst : ∃ c cs, ds = c :: cs ∧ c ≠ '0') :
    (l.parts ds point).Sound := by
  obtain ⟨d, more, rfl, hd⟩ := hfirst
  have hzero : ∀ c ∈ ['0'], isDecimal c = true := fun c => isDecimal_of_mem_replicate (n := 1)
  rw [Layout.parts]
  split
  · next he =>
    exact ⟨fun c hc => hdecimal c (List.mem_of_mem_take hc),
      fun c hc => hdecimal c (List.mem_of_mem_drop hc), .inr ⟨d, [], rfl, hd⟩,
      .inr (by dsimp only; omega)⟩
  · split
    · refine ⟨hzero, ?_, .inl rfl, .inl (by simp)⟩
      intro c hc
      exact (List.mem_append.1 hc).elim isDecimal_of_mem_replicate (hdecimal c)
    · split
      · refine ⟨?_, hzero, .inr ⟨d, _, rfl, hd⟩, .inl (by simp)⟩
        intro c hc
        exact (List.mem_append.1 hc).elim (hdecimal c) isDecimal_of_mem_replicate
      · next hpoint hlength =>
        obtain ⟨k, hk⟩ : ∃ k, point.toNat = k + 1 := ⟨point.toNat - 1, by omega⟩
        refine ⟨fun c hc => hdecimal c (List.mem_of_mem_take hc),
          fun c hc => hdecimal c (List.mem_of_mem_drop hc), .inr ⟨d, more.take k, ?_, hd⟩, .inl ?_⟩
        · dsimp only
          rw [hk, List.take_succ_cons]
        · dsimp only
          rw [Ne, List.drop_eq_nil_iff]
          exact hlength

/-- **The parts denote the decimal**, with an exponent that is not below its own, or with that of
    the one place that is added to an integer. -/
theorem parts_value (l : Layout) (point : ℤ) (hds : ds ≠ []) :
    ∃ t : ℤ, (point - ds.length ≤ t ∨ t = -1) ∧
      (l.parts ds point).exponent - (l.parts ds point).fraction.length = t ∧
      (ofDigits ((l.parts ds point).whole ++ (l.parts ds point).fraction) * 10 ^ t : ℚ) =
        ofDigits ds * 10 ^ (point - ds.length) := by
  have hlength := List.length_pos_iff.2 hds
  have hzero : ofDigits ['0'] = 0 := rfl
  rw [Layout.parts]
  split
  · refine ⟨point - ds.length, .inl (le_refl _), ?_, ?_⟩
    · dsimp only
      rw [List.length_drop]
      omega
    · rw [List.take_append_drop]
  · split
    · refine ⟨point - ds.length, .inl (le_refl _), ?_, ?_⟩
      · rw [List.length_append, List.length_replicate]
        push_cast
        omega
      · rw [ofDigits_append, ofDigits_append, hzero, ofDigits_replicate]
        simp
    · split
      · refine ⟨-1, .inr rfl, rfl, ?_⟩
        have hten : (10 : ℚ) ^ (point - ds.length) = 10 ^ (point.toNat - ds.length) := by
          rw [← zpow_natCast]
          congr 1
          omega
        rw [ofDigits_append, ofDigits_append, hzero, ofDigits_replicate, List.length_replicate,
          hten]
        push_cast
        rw [zpow_neg, zpow_one]
        field_simp
        simp
      · refine ⟨point - ds.length, .inl (le_refl _), ?_, ?_⟩
        · dsimp only
          rw [List.length_drop]
          omega
        · rw [List.take_append_drop]

/-! ## Doubles -/

theorem ofBits_zero (negative : Bool) :
    Float.ofBits (UInt64.ofNat (signedBits negative 0)) = if negative then -0.0 else 0.0 := by
  cases negative <;> decide

/-- **A finite double is written in parts that denote it.** -/
theorem exists_parts (hl : l.firstPositional ≤ 0 ∧ 0 < l.endPositional) {x : Float}
    {negative : Bool} {m : ℕ} {e : ℤ} (hx : Binary.ofFloat x = .finite negative m e) :
    ∃ p : DecimalParts, p.Sound ∧ p.toFloat negative = x ∧
      l.writeChars x = if negative then '-' :: l.spell p else l.spell p := by
  rw [Layout.writeChars, hx]
  dsimp only
  by_cases hm : m = 0
  · subst hm
    refine ⟨⟨['0'], ['0'], 0⟩, ?_, ?_, rfl⟩
    · have hzero : ∀ c ∈ ['0'], isDecimal c = true := fun c => isDecimal_of_mem_replicate (n := 1)
      exact ⟨hzero, hzero, .inl rfl, .inl (by simp)⟩
    · have hbits := ofBits_signedBits hx
      rw [bitsOf, if_pos (by decide), ofBits_zero] at hbits
      rw [← hbits]
      rfl
  · obtain ⟨hd, -⟩ := ofFloat_finite hx
    have hpos : 0 < m := Nat.pos_of_ne_zero hm
    obtain ⟨hrounds, hexponent⟩ := shortest_spec hd hpos
    rw [if_neg hm]
    generalize shortest m e = d at hrounds hexponent
    have hdigits : 0 < d.digits := Nat.pos_of_ne_zero (hrounds.digits_ne_zero hpos)
    have hds : natDigits d.digits ≠ [] := Nat.toDigits_ne_nil
    refine ⟨l.parts (natDigits d.digits) ((natDigits d.digits).length + d.exponent), ?_, ?_, ?_⟩
    · exact parts_sound hl (fun c => isDecimal_of_mem_natDigits) (exists_natDigits hdigits)
    · obtain ⟨t, ht, hexp, hvalue⟩ := parts_value l
        ((natDigits d.digits).length + d.exponent) hds
      rw [add_sub_cancel_left] at ht hvalue
      rw [ofDigits_natDigits] at hvalue
      rw [DecimalParts.toFloat, hexp]
      exact decimalToFloat_of_roundsTo hx hpos (hvalue ▸ hrounds) (by omega)
    · rw [place_eq_spell hl hds]

/-! ## Reading decimals -/

variable {p : DecimalParts} {negative : Bool}

/-- An exponent is read as it is written. -/
theorem readExponent?_exponent (l : Layout) (e : ℤ) : readExponent? (l.exponent e) = some e := by
  obtain ⟨hne, hd, hvalue⟩ := padded_spec l.exponentDigits e.natAbs
  have hempty : (padded l.exponentDigits e.natAbs).isEmpty = false := by simpa using hne
  have hall : (padded l.exponentDigits e.natAbs).all isDecimal = true := List.all_eq_true.2 hd
  rw [Layout.exponent, readExponent?, if_pos (by decide), takeSign_sign]
  simp only [hempty, hall, hvalue, signed_natAbs, Bool.not_true, Bool.or_self, Bool.false_eq_true,
    if_false]

/-- Digits without a point are the whole part of a decimal. -/
theorem readDecimal?_whole {whole rest : List Char} (hne : whole ≠ [])
    (hd : ∀ c ∈ whole, isDecimal c = true) (hr : ∀ c ∈ rest.head?, isDecimal c = false ∧ c ≠ '.') :
    readDecimal? (whole ++ rest) = (readExponent? rest).map fun e => ⟨whole, [], e⟩ := by
  obtain ⟨htake, hdrop⟩ := takeWhile_digits hd fun c hc => (hr c hc).1
  have hempty : whole.isEmpty = false := by simpa using hne
  have hrest : ∀ more, rest ≠ '.' :: more := by
    rintro more rfl
    exact (hr '.' rfl).2 rfl
  rw [readDecimal?, htake, hdrop]
  split
  next heq =>
    split at heq
    · next more => exact absurd rfl (hrest more)
    · cases heq
      simp [hempty]

/-- Digits after a point are the fraction of a decimal. -/
theorem readDecimal?_point {whole fraction rest : List Char} (hne : whole ≠ [])
    (hd : ∀ c ∈ whole, isDecimal c = true) (hf : ∀ c ∈ fraction, isDecimal c = true)
    (hr : ∀ c ∈ rest.head?, isDecimal c = false) :
    readDecimal? (whole ++ '.' :: (fraction ++ rest)) =
      (readExponent? rest).map fun e => ⟨whole, fraction, e⟩ := by
  have hpoint : ∀ c ∈ ('.' :: (fraction ++ rest)).head?, isDecimal c = false := by
    rintro c ⟨⟩
    decide
  obtain ⟨htake, hdrop⟩ := takeWhile_digits hd hpoint
  obtain ⟨htake', hdrop'⟩ := takeWhile_digits hf hr
  have hempty : whole.isEmpty = false := by simpa using hne
  simp only [readDecimal?, htake, hdrop, htake', hdrop', hempty, Bool.false_and, Bool.false_eq_true,
    if_false]

/-- **The parts of a decimal are found in its text.** -/
theorem readDecimal?_spell (hp : p.Sound) : readDecimal? (l.spell p) = some p := by
  obtain ⟨whole, fraction, e⟩ := p
  obtain ⟨hwhole, hfraction, hfirst, -⟩ := hp
  dsimp only at hwhole hfraction hfirst
  have hne : whole ≠ [] := by rcases hfirst with rfl | ⟨c, cs, rfl, -⟩ <;> simp
  obtain ⟨mark, hmark, hhead, hread⟩ : ∃ mark, (if e = 0 then [] else l.exponent e) = mark ∧
      (∀ c ∈ mark.head?, isDecimal c = false ∧ c ≠ '.') ∧ readExponent? mark = some e := by
    by_cases he : e = 0
    · exact ⟨[], if_pos he, nofun, by rw [he]; rfl⟩
    · refine ⟨_, if_neg he, ?_, readExponent?_exponent l e⟩
      rintro c ⟨⟩
      decide
  rw [Layout.spell]
  dsimp only
  rw [hmark]
  by_cases hf : fraction = []
  · rw [if_pos hf, List.nil_append, readDecimal?_whole hne hwhole hhead, hread, hf]
    rfl
  · rw [if_neg hf, List.cons_append, readDecimal?_point hne hwhole hfraction fun c hc =>
      (hhead c hc).1, hread]
    rfl

/-- **A decimal is read with its sign**, as its text is no word. -/
theorem readFloatChars?_spell (hp : p.Sound) :
    readFloatChars? (if negative then '-' :: l.spell p else l.spell p) =
      some (p.toFloat negative) := by
  obtain ⟨c, cs, hspell, hc⟩ := spell_cons (l := l) hp
  have hread : readDecimal? (c :: cs) = some p := hspell ▸ readDecimal?_spell hp
  have hall : ∀ c ∈ ['0', '1', '2', '3', '4', '5', '6', '7', '8', '9'],
      c ≠ '-' ∧ c ≠ '+' ∧ c.toLower ≠ 'i' ∧ c.toLower ≠ 'n' :=
    List.all_iff_forall_prop.1 (by decide)
  obtain ⟨hminus, hplus, hi, hn⟩ := hall c (isDecimal_cases hc)
  have hsign : takeSign (if negative then '-' :: c :: cs else c :: cs) = (negative, c :: cs) := by
    cases negative with
    | false => exact takeSign_of_ne hminus hplus cs
    | true => rfl
  rw [hspell, readFloatChars?, hsign]
  simp [hi, hn, hread]

/-! ## Reading doubles -/

/-- The characters in the texts of doubles. -/
def alphabet : List Char :=
  ['0', '1', '2', '3', '4', '5', '6', '7', '8', '9', '.', 'e', '-', '+', 'i', 'n', 'f', 'a']

theorem mem_alphabet_of_mem_spell (hp : p.Sound) {c : Char} (hc : c ∈ l.spell p) :
    c ∈ alphabet := by
  have hdecimal {c : Char} (h : isDecimal c = true) : c ∈ alphabet :=
    List.mem_append_left _ (isDecimal_cases h)
  rw [Layout.spell, List.mem_append, List.mem_append] at hc
  rcases hc with hc | hc | hc
  · exact hdecimal (hp.whole c hc)
  · split at hc
    · cases hc
    · rcases List.mem_cons.1 hc with rfl | hc
      · decide
      · exact hdecimal (hp.fraction c hc)
  · split at hc
    · cases hc
    · rw [Layout.exponent, List.mem_cons, List.mem_cons] at hc
      rcases hc with rfl | rfl | hc
      · decide
      · split <;> decide
      · exact hdecimal ((padded_spec _ _).2.1 c hc)

/-- **The text of a double has digits, a few marks and the letters of its words only.** -/
theorem mem_alphabet_of_mem_writeChars {x : Float} {c : Char} (hc : c ∈ diagnostic.writeChars x) :
    c ∈ alphabet := by
  rcases hx : Binary.ofFloat x with _ | negative | ⟨negative, m, e⟩
  · rw [Layout.writeChars, hx] at hc
    have hall : ∀ c ∈ "nan".toList, c ∈ alphabet := List.all_iff_forall_prop.1 (by decide)
    exact hall c hc
  · rw [Layout.writeChars, hx] at hc
    have hall : ∀ c ∈ '-' :: "inf".toList, c ∈ alphabet := List.all_iff_forall_prop.1 (by decide)
    cases negative with
    | false => exact hall c (List.mem_cons_of_mem _ hc)
    | true => exact hall c hc
  · obtain ⟨p, hp, -, hchars⟩ := exists_parts (l := diagnostic) (by decide) hx
    rw [hchars] at hc
    split at hc
    · rcases List.mem_cons.1 hc with rfl | hc
      · decide
      · exact mem_alphabet_of_mem_spell hp hc
    · exact mem_alphabet_of_mem_spell hp hc

/-- A text in this alphabet is a plain numeral. -/
theorem plainNumeral?_of_alphabet {cs : List Char} (h : ∀ c ∈ cs, c ∈ alphabet) :
    plainNumeral? (String.ofList cs) = some cs := by
  have hall : ∀ c ∈ alphabet, asciiForm c = c ∧ isAsciiBlank c = false ∧ c ≠ '_' :=
    List.all_iff_forall_prop.1 (by decide)
  have hform : asciiNumeral cs = cs := by
    rw [asciiNumeral_eq_map]
    exact (List.map_congr_left fun c hc => (hall c (h c hc)).1).trans (List.map_id cs)
  have htrim : Text.trim isAsciiBlank cs = cs :=
    Text.trim_eq_self (fun c hc => (hall c (h c (List.mem_of_mem_head? hc))).2.1)
      fun c hc => (hall c (h c (List.mem_of_mem_getLast? hc))).2.1
  rw [plainNumeral?, String.toList_ofList, hform, htrim]
  exact dropUnderscores_of_forall (fun c hc => (hall c (h c hc)).2.2) (by decide)

/-- **A double is read as it is written.** -/
theorem readFloat?_writeChars (x : Float) :
    readFloat? (String.ofList (diagnostic.writeChars x)) = some x := by
  rw [readFloat?, plainNumeral?_of_alphabet fun c => mem_alphabet_of_mem_writeChars,
    Option.bind_some]
  rcases hx : Binary.ofFloat x with _ | negative | ⟨negative, m, e⟩
  · rw [Layout.writeChars, hx, ofFloat_nan hx]
    rfl
  · rw [Layout.writeChars, hx, ofFloat_infinite hx]
    cases negative <;> rfl
  · obtain ⟨p, hp, hvalue, hchars⟩ := exists_parts (l := diagnostic) (by decide) hx
    rw [hchars, readFloatChars?_spell hp, hvalue]

end VectorStore.Number
