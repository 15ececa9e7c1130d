/-
  Blank characters and the trimming of text.

  Two classes are in use: `isBlank`, the white space of Unicode 14 with the four
  separator controls, and `isAsciiBlank`, the six blanks that end an ASCII numeral.
  `trim` drops a class from both ends.
-/
import VectorStore.Text.Range

namespace VectorStore.Text

/-- White space of every script. -/
def blankRanges : Ranges := [
  (9, 13), (28, 32), (133, 133), (160, 160), (5760, 5760), (8192, 8202), (8232, 8233),
  (8239, 8239), (8287, 8287), (12288, 12288)]

/-- White space of every script. -/
def isBlank (c : Char) : Bool := blankRanges.covers c.toNat

/-- The blanks of ASCII: tab, line feed, vertical tab, form feed, return and space. -/
def isAsciiBlank (c : Char) : Bool := (9 ≤ c.toNat && c.toNat ≤ 13) || c == ' '

/-- The text without the characters of a class at either end. -/
def trim (inClass : Char → Bool) (cs : List Char) : List Char :=
  ((cs.dropWhile inClass).reverse.dropWhile inClass).reverse

/-- Whether the text has nothing but white space. -/
def allBlank (s : String) : Bool := s.toList.all isBlank

/-- The text without white space at either end. -/
def trimmed (s : String) : String := String.ofList (trim isBlank s.toList)

variable {inClass : Char → Bool} {cs : List Char}

theorem dropWhile_eq_self (h : ∀ c ∈ cs.head?, inClass c = false) : cs.dropWhile inClass = cs := by
  cases cs with
  | nil => rfl
  | cons c cs => simp [List.dropWhile, h c (by simp)]

/-- Trimming leaves a text alone whose ends are outside the class. -/
theorem trim_eq_self (hfirst : ∀ c ∈ cs.head?, inClass c = false)
    (hlast : ∀ c ∈ cs.getLast?, inClass c = false) : trim inClass cs = cs := by
  unfold trim
  rw [dropWhile_eq_self hfirst, dropWhile_eq_self (by simpa using hlast), List.reverse_reverse]

/-- Trimming takes a text out of two characters of the class, if none of its own is in it. -/
theorem trim_enclosed {a b : Char} (ha : inClass a = true) (hb : inClass b = true)
    (h : ∀ c ∈ cs, inClass c = false) : trim inClass (a :: (cs ++ [b])) = cs := by
  unfold trim
  rw [List.dropWhile_cons_of_pos ha]
  cases cs with
  | nil => simp [hb]
  | cons c cs =>
    have hfirst : (c :: cs ++ [b]).dropWhile inClass = c :: cs ++ [b] := by
      refine dropWhile_eq_self ?_
      rintro d ⟨⟩
      exact h c (List.mem_cons_self ..)
    have hlast : (c :: cs).reverse.dropWhile inClass = (c :: cs).reverse :=
      dropWhile_eq_self fun d hd => h d (List.mem_reverse.1 (List.mem_of_mem_head? hd))
    rw [hfirst, List.reverse_append, List.reverse_singleton, List.singleton_append,
      List.dropWhile_cons_of_pos hb, hlast, List.reverse_reverse]

end VectorStore.Text
