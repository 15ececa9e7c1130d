/-
  Numbers of JSON texts.

  * `Ends rest`: what follows a value goes on with nothing that could be part of a number;
  * `readUnsigned_spell`: the parts of a double are read as they are spelled;
  * `readUnsigned_natDigits`: an integer is read as it is written, unless it has too many digits.
-/
import VectorStore.Json.Reader
import VectorStore.Json.Writer
import VectorStore.Proofs.Number.Layout
import VectorStore.Proofs.Numbers

namespace VectorStore.Json

open Number (DecimalParts Layout isDecimal natDigits padded_spec signed_natAbs takeWhile_digits)

/-! ## What follows a value -/

/-- What may follow a value: nothing, or what ends it or stands before the next one. -/
def Ends (rest : List Char) : Prop := ∀ c ∈ rest.head?, c ∈ [',', ']', '\x7d']

theorem ends_nil : Ends [] := by
  rintro c ⟨⟩

theorem ends_cons {c : Char} (hc : c ∈ [',', ']', '\x7d']) (rest : List Char) :
    Ends (c :: rest) := by
  rintro d ⟨⟩
  exact hc

/-! ## Digits -/

theorem takeWhole_append {whole rest : List Char} (hd : ∀ c ∈ whole, isDecimal c = true)
    (hfirst : whole = ['0'] ∨ ∃ c cs, whole = c :: cs ∧ c ≠ '0')
    (hr : ∀ c ∈ rest.head?, isDecimal c = false) :
    takeWhole (whole ++ rest) = some (whole, rest) := by
  rcases hfirst with rfl | ⟨c, cs, rfl, hc⟩
  · rfl
  · obtain ⟨hdecimal, hcs⟩ := List.forall_mem_cons.1 hd
    obtain ⟨htake, hdrop⟩ := takeWhile_digits hcs hr
    rw [List.cons_append, takeWhole, if_neg (by simpa using hc), if_pos hdecimal, htake, hdrop]

theorem takeFraction_append {fraction rest : List Char} (hne : fraction ≠ [])
    (hd : ∀ c ∈ fraction, isDecimal c = true) (hr : ∀ c ∈ rest.head?, isDecimal c = false) :
    takeFraction ('.' :: (fraction ++ rest)) = (some fraction, rest) := by
  obtain ⟨htake, hdrop⟩ := takeWhile_digits hd hr
  rw [takeFraction, htake, hdrop, if_neg (by simpa using hne)]

theorem takeFraction_none {rest : List Char} (hr : ∀ c ∈ rest.head?, c ≠ '.') :
    takeFraction rest = (none, rest) := by
  cases rest with
  | nil => rfl
  | cons c rest =>
    have hc : c ≠ '.' := hr c rfl
    rw [takeFraction]
    rintro cs ⟨rfl, -⟩
    exact hc rfl

theorem takeExponent_none {rest : List Char} (hr : ∀ c ∈ rest.head?, c ≠ 'e' ∧ c ≠ 'E') :
    takeExponent rest = (none, rest) := by
  cases rest with
  | nil => rfl
  | cons c rest =>
    obtain ⟨h1, h2⟩ := hr c rfl
    simp [takeExponent, h1, h2]

theorem takeExponent_append {l : Layout} {e : ℤ} {rest : List Char}
    (hr : ∀ c ∈ rest.head?, isDecimal c = false) :
    takeExponent (l.exponent e ++ rest) = (some e, rest) := by
  obtain ⟨hne, hd, hvalue⟩ := padded_spec l.exponentDigits e.natAbs
  obtain ⟨htake, hdrop⟩ := takeWhile_digits hd hr
  have hempty : (Number.padded l.exponentDigits e.natAbs).isEmpty = false := by simpa using hne
  rw [Layout.exponent, List.cons_append, List.cons_append, takeExponent, if_pos (by decide),
    Number.takeSign_sign]
  simp only [htake, hdrop, hempty, hvalue, signed_natAbs, Bool.false_eq_true, if_false]

/-! ## Numbers -/

variable {negative : Bool} {rest : List Char}

/-- Neither a digit nor another part of a number ends a value. -/
theorem Ends.ne {c : Char} (hr : Ends rest) (hc : c ∈ rest.head?) :
    isDecimal c = false ∧ c ≠ '.' ∧ c ≠ 'e' ∧ c ≠ 'E' := by
  have hall : ∀ c ∈ [',', ']', '\x7d'], isDecimal c = false ∧ c ≠ '.' ∧ c ≠ 'e' ∧ c ≠ 'E' := by
    simp only [List.forall_mem_cons]
    exact ⟨by decide, by decide, by decide, nofun⟩
  exact hall c (hr c hc)

/-- **The parts of a decimal are read as they are spelled.** -/
theorem readUnsigned_spell {l : Layout} {p : DecimalParts} (hp : p.Sound) (hr : Ends rest) :
    readUnsigned negative (l.spell p ++ rest) = .ok (.float (p.toFloat negative), rest) := by
  obtain ⟨whole, fraction, e⟩ := p
  obtain ⟨hwhole, hfraction, hfirst, hmarked⟩ := hp
  dsimp only at hwhole hfraction hfirst hmarked
  obtain ⟨mark, hmark⟩ : ∃ mark, (if e = 0 then [] else l.exponent e) = mark := ⟨_, rfl⟩
  have hafter : ∀ c ∈ (mark ++ rest).head?, isDecimal c = false ∧ c ≠ '.' := by
    intro c hc
    by_cases he : e = 0
    · rw [← hmark, if_pos he, List.nil_append] at hc
      exact ⟨(hr.ne hc).1, (hr.ne hc).2.1⟩
    · rw [← hmark, if_neg he] at hc
      cases hc
      decide
  have hexponent : takeExponent (mark ++ rest) = (if e = 0 then none else some e, rest) := by
    by_cases he : e = 0
    · rw [← hmark, if_pos he, if_pos he, List.nil_append]
      exact takeExponent_none fun c hc => (hr.ne hc).2.2
    · rw [← hmark, if_neg he, if_neg he]
      exact takeExponent_append fun c hc => (hr.ne hc).1
  rw [Layout.spell]
  dsimp only
  rw [hmark, List.append_assoc, readUnsigned]
  by_cases hne : fraction = []
  · have he : e ≠ 0 := hmarked.resolve_left (not_not.2 hne)
    rw [if_pos hne, List.nil_append, takeWhole_append hwhole hfirst fun c hc => (hafter c hc).1]
    dsimp only
    rw [takeFraction_none fun c hc => (hafter c hc).2]
    dsimp only
    rw [hexponent, if_neg he]
    subst hne
    rfl
  · rw [if_neg hne, takeWhole_append hwhole hfirst (by rintro c ⟨⟩; decide)]
    dsimp only
    rw [List.cons_append, List.cons_append, List.append_assoc,
      takeFraction_append hne hfraction fun c hc => (hafter c hc).1]
    dsimp only
    rw [hexponent]
    by_cases he : e = 0
    · rw [if_pos he, he]
      rfl
    · rw [if_neg he]
      rfl

/-- **An integer is read as it is written**, if it has not too many digits. -/
theorem readUnsigned_natDigits {n : ℕ} (hn : (natDigits n).length ≤ Number.maxIntDigits)
    (hr : Ends rest) :
    readUnsigned negative (natDigits n ++ rest) =
      .ok (.int (if negative then -n else n), rest) := by
  have hfirst : natDigits n = ['0'] ∨ ∃ c cs, natDigits n = c :: cs ∧ c ≠ '0' := by
    rcases Nat.eq_zero_or_pos n with rfl | hpos
    · exact .inl rfl
    · exact .inr (Number.exists_natDigits hpos)
  rw [readUnsigned, takeWhole_append (fun c => Number.isDecimal_of_mem_natDigits) hfirst
    fun c hc => (hr.ne hc).1]
  dsimp only
  rw [takeFraction_none fun c hc => (hr.ne hc).2.1]
  dsimp only
  rw [takeExponent_none fun c hc => (hr.ne hc).2.2]
  dsimp only
  rw [if_neg (by omega), Number.ofDigits_natDigits]

end VectorStore.Json
