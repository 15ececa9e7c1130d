/-
  Conditions of statements as they are read.

  A text is read with the precedence of SQL: parentheses first, then `AND`, then `OR`; what
  has no connective outside of quotes and parentheses, and is not itself between
  parentheses, is an atom.

  * `cut` and `pieces` take a text apart at its outer connectives, `unwrapped?` finds what
    stands between parentheses, `assemble` puts formulas together;
  * `Formula.read` is the reader, by well-founded recursion on the length of the text;
  * `Formula.read_of_pieces_nil`, `Formula.read_of_pieces_cons` are its two steps.
-/
import VectorStore.Filter.Operator

namespace VectorStore.Filter

/-- A condition of a statement: atoms put together by connectives. -/
inductive Formula where
  | atom (text : List Char)
  | join (combinator : Combinator) (left right : Formula)

/-! ## The reader -/

/-- How deep in parentheses a place of a text is, and whether it is inside of quotes. -/
structure Nesting where
  depth : Nat
  quoted : Bool
deriving DecidableEq

/-- Outside of quotes and parentheses. -/
def Nesting.top : Nesting := ⟨0, false⟩

/-- The nesting behind a character. -/
def Nesting.next (n : Nesting) (c : Char) : Nesting :=
  if c = '\x27' then ⟨n.depth, !n.quoted⟩
  else if n.quoted then n
  else if c = '(' then ⟨n.depth + 1, false⟩
  else if c = ')' then ⟨n.depth - 1, false⟩
  else n

/-- The connective at the start of a text, and what follows it. -/
def connectiveAt? : List Char → Option (Combinator × List Char)
  | ' ' :: 'A' :: 'N' :: 'D' :: ' ' :: rest => some (.and, rest)
  | ' ' :: 'O' :: 'R' :: ' ' :: rest => some (.or, rest)
  | _ => none

/-- A text up to its first outer connective, that connective and what follows it. -/
def cut (n : Nesting) : List Char → List Char × Option (Combinator × List Char)
  | [] => ([], none)
  | c :: cs =>
    match if n = .top then connectiveAt? (c :: cs) else none with
    | some next => ([], some next)
    | none => (c :: (cut (n.next c) cs).1, (cut (n.next c) cs).2)

theorem length_connectiveAt? {cs rest : List Char} {k : Combinator}
    (h : connectiveAt? cs = some (k, rest)) : rest.length < cs.length := by
  unfold connectiveAt? at h
  split at h <;> cases h <;> simp only [List.length_cons] <;> omega

theorem length_cut {k : Combinator} {rest : List Char} : ∀ {n : Nesting} {cs : List Char},
    (cut n cs).2 = some (k, rest) → (cut n cs).1.length + rest.length < cs.length
  | n, [], h => by cases h
  | n, c :: cs, h => by
    rw [cut] at h ⊢
    split at h
    · next next hn =>
      split at hn
      · cases h; simpa [hn] using length_connectiveAt? hn
      · cases hn
    · have := length_cut h
      simp only [List.length_cons]; omega

theorem length_cut_le : ∀ (n : Nesting) (cs : List Char), (cut n cs).1.length ≤ cs.length
  | n, [] => Nat.le_refl _
  | n, c :: cs => by
    rw [cut]
    split
    · simp
    · simpa using length_cut_le (n.next c) cs

/-- The pieces of a text between its outer connectives: the first one, and each of the
    others with the connective before it. -/
def pieces (cs : List Char) : List Char × List (Combinator × List Char) :=
  match _h : (cut .top cs).2 with
  | none => ((cut .top cs).1, [])
  | some (k, rest) => ((cut .top cs).1, (k, (pieces rest).1) :: (pieces rest).2)
termination_by cs.length
decreasing_by
  all_goals
    have := length_cut _h
    omega

/-- A text up to where its parentheses close, and what follows. -/
def enclosed? (n : Nesting) : List Char → Option (List Char × List Char)
  | [] => none
  | c :: cs =>
    if n.next c = .top then some ([], cs)
    else (enclosed? (n.next c) cs).map fun r => (c :: r.1, r.2)

/-- What stands between parentheses that enclose the whole text. -/
def unwrapped? : List Char → Option (List Char)
  | '(' :: cs =>
    match enclosed? ⟨1, false⟩ cs with
    | some (inner, []) => some inner
    | _ => none
  | _ => none

/-- The disjunction of what is read already with one more disjunct. -/
def Formula.disjoin : Option Formula → Formula → Formula
  | none, f => f
  | some done, f => .join .or done f

/-- Puts formulas together: conjuncts to the disjunct at hand, disjuncts to those before. -/
def assemble (done : Option Formula) (f : Formula) : List (Combinator × Formula) → Formula
  | [] => f.disjoin done
  | (.and, g) :: rest => assemble done (.join .and f g) rest
  | (.or, g) :: rest => assemble (some (f.disjoin done)) g rest

example (f g h i : Formula) : assemble none f [(.and, g), (.or, h), (.and, i)] =
    .join .or (.join .and f g) (.join .and h i) := rfl

theorem length_enclosed? {inner rest : List Char} : ∀ {n : Nesting} {cs : List Char},
    enclosed? n cs = some (inner, rest) → inner.length < cs.length
  | n, [], h => by cases h
  | n, c :: cs, h => by
    rw [enclosed?] at h
    split at h
    · cases h; simp
    · obtain ⟨⟨i, r⟩, hr, he⟩ := Option.map_eq_some_iff.1 h
      cases he
      have := length_enclosed? hr
      simp only [List.length_cons]; omega

theorem length_unwrapped? {cs inner : List Char} (h : unwrapped? cs = some inner) :
    inner.length < cs.length := by
  unfold unwrapped? at h
  split at h
  · split at h
    · next he =>
      cases h
      have := length_enclosed? he
      simp only [List.length_cons]; omega
    · cases h
  · cases h

theorem length_pieces (cs : List Char) : (pieces cs).1.length ≤ cs.length ∧
    ∀ q ∈ (pieces cs).2, q.2.length < cs.length ∧ (pieces cs).1.length < cs.length := by
  rw [pieces]
  split
  · next h => simpa using length_cut_le .top cs
  · next k rest h =>
    have hr := length_pieces rest
    have hc := length_cut h
    refine ⟨by simp only; omega, fun q hq => ⟨?_, by simp only; omega⟩⟩
    rcases List.mem_cons.1 hq with rfl | hq
    · simp only; omega
    · have := (hr.2 q hq).1; omega
termination_by cs.length
decreasing_by have := length_cut ‹(cut .top cs).2 = _›; omega

/-- The formula that a text writes. -/
def Formula.read (cs : List Char) : Formula :=
  match _h : (pieces cs).2 with
  | [] =>
    match _hu : unwrapped? cs with
    | some inner => read inner
    | none => .atom cs
  | _ :: _ =>
    assemble none (read (pieces cs).1) ((pieces cs).2.attach.map fun p => (p.1.1, read p.1.2))
termination_by cs.length
decreasing_by
  · exact length_unwrapped? _hu
  · exact ((length_pieces cs).2 _ (by rw [_h]; exact List.mem_cons_self)).2
  · exact ((length_pieces cs).2 p.1 p.2).1

/-- A text without outer connectives is read between its parentheses, or is an atom. -/
theorem Formula.read_of_pieces_nil {cs : List Char} (h : (pieces cs).2 = []) :
    read cs = match unwrapped? cs with
      | some inner => read inner
      | none => .atom cs := by
  rw [read]
  split
  · split <;> simp_all
  · next hq => rw [h] at hq; cases hq

/-- A text with outer connectives is read piece by piece. -/
theorem Formula.read_of_pieces_cons {cs : List Char} (h : (pieces cs).2 ≠ []) :
    read cs = assemble none (read (pieces cs).1) ((pieces cs).2.map fun p => (p.1, read p.2)) := by
  rw [read]
  split
  · next hn => exact absurd hn h
  · rw [List.attach_map_val (f := fun p : Combinator × List Char => (p.1, read p.2))]

end VectorStore.Filter
