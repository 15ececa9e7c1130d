/-
  Strings of JSON texts.

  * `readEscapedUnits?_escaped`: a character beyond the controls is read from the escapes of its
    units, also if there is a pair of them;
  * `writeChar_cases`: a character is written by a short escape, by escapes of its units, or as it
    is, and is read back each time (`readChars?_writeChar`);
  * `readString_writeString`: so a string is read as it was written, whatever follows it.
-/
import Mathlib.Data.Nat.Notation
import VectorStore.Json.Reader
import VectorStore.Json.Writer

namespace VectorStore.Json

open Text (hex)

/-! ## Escapes -/

theorem hexValue?_digitChar {d : ℕ} (h : d < 16) : hexValue? (Nat.digitChar d) = some d := by
  revert h
  revert d
  decide

/-- A unit is read from its four digits. -/
theorem readUnit?_hex {n : ℕ} (h : n < 0x10000) (rest : List Char) :
    readUnit? (hex 4 n ++ rest) = some (n, rest) := by
  have hdigits : hex 4 n ++ rest = Nat.digitChar (n / 16 / 16 / 16 % 16) ::
      Nat.digitChar (n / 16 / 16 % 16) :: Nat.digitChar (n / 16 % 16) ::
        Nat.digitChar (n % 16) :: rest := rfl
  have hmod (k : ℕ) : hexValue? (Nat.digitChar (k % 16)) = some (k % 16) :=
    hexValue?_digitChar (Nat.mod_lt k (by decide))
  rw [hdigits, readUnit?, hmod, hmod, hmod, hmod]
  simp only [Option.bind_eq_bind, Option.bind_some, List.foldl_cons, List.foldl_nil,
    Option.some.injEq, Prod.mk.injEq, and_true]
  omega

/-- **An escaped character is read as itself**, also if it takes a pair of units. -/
theorem readEscapedUnits?_escaped {c : Char} {rest : List Char} : ∃ cs,
    escaped c ++ rest = '\\' :: 'u' :: cs ∧ readEscapedUnits? cs = some (c, rest) := by
  have hvalid : c.toNat < 0xD800 ∨ 0xDFFF < c.toNat ∧ c.toNat < 0x110000 := c.valid
  rw [escaped]
  split
  · next hlow =>
    refine ⟨hex 4 c.toNat ++ rest, rfl, ?_⟩
    rw [readEscapedUnits?, readUnit?_hex hlow]
    simp only [Option.bind_eq_bind, Option.bind_some, Bool.and_eq_true, decide_eq_true_eq]
    rw [if_neg (by omega), if_neg (by omega), Char.ofNat_toNat]
  · next hhigh =>
    obtain ⟨high, hh⟩ : ∃ h, h = 0xD800 + (c.toNat - 0x10000) / 0x400 := ⟨_, rfl⟩
    obtain ⟨low, hl⟩ : ∃ l, l = 0xDC00 + (c.toNat - 0x10000) % 0x400 := ⟨_, rfl⟩
    rw [← hh, ← hl]
    refine ⟨hex 4 high ++ ('\\' :: 'u' :: (hex 4 low ++ rest)), by simp [unitEscape], ?_⟩
    have hchar : 0x10000 + (high - 0xD800) * 0x400 + (low - 0xDC00) = c.toNat := by omega
    rw [readEscapedUnits?, readUnit?_hex (by omega)]
    simp only [Option.bind_eq_bind, Option.bind_some, Bool.and_eq_true, decide_eq_true_eq]
    rw [if_pos (by omega), readUnit?_hex (by omega)]
    dsimp only
    rw [hchar, Char.ofNat_toNat]
    simp
    omega

/-! ## Strings -/

/-- The characters that have an escape of their own, and the letters of the escapes. -/
def shortEscapes : List (Char × Char) :=
  [('\x22', '\x22'), ('\\', '\\'), ('\n', 'n'), ('\r', 'r'), ('\t', 't'), ('\x0c', 'f'),
    ('\x08', 'b')]

/-- How a character is written: by an escape of its own, by escapes of its units, or as it is. -/
theorem writeChar_cases (asciiOnly : Bool) (c : Char) :
    (∃ d, (c, d) ∈ shortEscapes ∧ writeChar asciiOnly c = ['\\', d]) ∨
    writeChar asciiOnly c = escaped c ∨
    writeChar asciiOnly c = [c] ∧ c ≠ '\x22' ∧ c ≠ '\\' ∧ 32 ≤ c.toNat ∧
      (asciiOnly = true → c.toNat < 127) := by
  by_cases hshort : ∃ d, (c, d) ∈ shortEscapes
  · left
    obtain ⟨d, hd⟩ := hshort
    have hall : ∀ p ∈ shortEscapes, writeChar asciiOnly p.1 = ['\\', p.2] := by
      cases asciiOnly <;> decide
    exact ⟨d, hd, hall (c, d) hd⟩
  · right
    have hne : ∀ p ∈ shortEscapes, c ≠ p.1 := by
      rintro ⟨c', d⟩ hp rfl
      exact hshort ⟨d, hp⟩
    simp only [shortEscapes, List.forall_mem_cons] at hne
    obtain ⟨h1, h2, h3, h4, h5, h6, h7, -⟩ := hne
    simp only [writeChar, beq_iff_eq, h1, h2, h3, h4, h5, h6, h7, if_false]
    split
    · next hcontrol =>
      left
      rw [escaped, if_pos (by omega)]
    · next hcontrol =>
      split
      · exact .inl rfl
      · next hascii =>
        simp only [Bool.and_eq_true, decide_eq_true_eq, not_and, Nat.not_le] at hascii
        exact .inr ⟨rfl, h1, h2, by omega, hascii⟩

/-- **A character is read as it was written.** -/
theorem readChars?_writeChar (asciiOnly : Bool) (c : Char) (fuel : ℕ) (rest : List Char) :
    readChars? (fuel + 1) (writeChar asciiOnly c ++ rest) =
      (readChars? fuel rest).map fun r => (c :: r.1, r.2) := by
  rcases writeChar_cases asciiOnly c with ⟨d, hd, hw⟩ | hw | ⟨hw, hquote, hslash, hcontrol, -⟩
  · have hshort : ∀ p ∈ shortEscapes, readChars? (fuel + 1) ('\\' :: p.2 :: rest) =
        (readChars? fuel rest).bind fun r => some (p.1 :: r.1, r.2) := by
      simp only [shortEscapes, List.forall_mem_cons]
      exact ⟨rfl, rfl, rfl, rfl, rfl, rfl, rfl, nofun⟩
    rw [hw, List.cons_append, List.singleton_append, hshort (c, d) hd]
    cases readChars? fuel rest <;> rfl
  · obtain ⟨cs, hcs, hread⟩ := @readEscapedUnits?_escaped c rest
    have hunits : readChars? (fuel + 1) ('\\' :: 'u' :: cs) =
        (readEscapedUnits? cs).bind fun p =>
          (readChars? fuel p.2).bind fun r => some (p.1 :: r.1, r.2) := rfl
    rw [hw, hcs, hunits, hread, Option.bind_some]
    cases readChars? fuel rest <;> rfl
  · rw [hw, List.singleton_append, readChars?.eq_def]
    simp only [beq_iff_eq, hquote, hslash, if_false]
    rw [if_neg (by omega)]
    cases readChars? fuel rest <;> rfl

theorem writeChar_ne_nil (asciiOnly : Bool) (c : Char) : writeChar asciiOnly c ≠ [] := by
  rcases writeChar_cases asciiOnly c with ⟨d, -, hw⟩ | hw | ⟨hw, -⟩
  · simp [hw]
  · rw [hw, escaped]
    split <;> simp [unitEscape]
  · simp [hw]

/-- Characters are read as they were written, up to the quote. -/
theorem readChars?_flatMap_writeChar (asciiOnly : Bool) (rest : List Char) {cs : List Char} :
    ∀ {fuel : ℕ}, cs.length < fuel →
      readChars? fuel (cs.flatMap (writeChar asciiOnly) ++ '\x22' :: rest) = some (cs, rest) := by
  induction cs with
  | nil =>
    intro fuel hfuel
    obtain ⟨k, rfl⟩ : ∃ k, fuel = k + 1 := ⟨fuel - 1, by omega⟩
    rfl
  | cons c cs ih =>
    intro fuel hfuel
    obtain ⟨k, rfl⟩ : ∃ k, fuel = k + 1 := ⟨fuel - 1, by omega⟩
    rw [List.flatMap_cons, List.append_assoc, readChars?_writeChar,
      ih (Nat.lt_of_succ_lt_succ hfuel)]
    rfl

theorem length_le_flatMap_writeChar (asciiOnly : Bool) (cs : List Char) :
    cs.length ≤ (cs.flatMap (writeChar asciiOnly)).length := by
  induction cs with
  | nil => exact Nat.le_refl _
  | cons c cs ih =>
    have := List.length_pos_iff.2 (writeChar_ne_nil asciiOnly c)
    rw [List.flatMap_cons, List.length_append, List.length_cons]
    omega

/-- **A string is read as it was written.** -/
theorem readString_writeString (asciiOnly : Bool) (s : String) (rest : List Char) :
    ∃ cs, writeString asciiOnly s ++ rest = '\x22' :: cs ∧ readString cs = .ok (s, rest) := by
  refine ⟨s.toList.flatMap (writeChar asciiOnly) ++ '\x22' :: rest, by simp [writeString], ?_⟩
  rw [readString, readChars?_flatMap_writeChar asciiOnly rest]
  · simp
  · -- a text is as long as what is written in it, which is the fuel
    have := length_le_flatMap_writeChar asciiOnly s.toList
    rw [List.length_append]
    omega

end VectorStore.Json
