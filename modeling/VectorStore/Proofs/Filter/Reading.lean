/-
  Reading back the text of a predicate.

  * `Keeps` says that a text stays at its depth in parentheses, which keeps a reader from
    cutting inside of it; fragments and predicates do (`level_chars`);
  * `pieces_partsChars`: so a group is cut just between its parts;
  * `Fragment.unwrapped?_chars`: a fragment may begin with a parenthesis, but is not
    enclosed in one;
  * `read_chars`: the text of a predicate reads back as the predicate, atoms being the texts
    of its fragments.
-/
import VectorStore.Proofs.Filter.Formula
import VectorStore.Proofs.Filter.Marks

namespace VectorStore.Filter

/-! ## Texts that stay at their depth -/

/-- Reading a text leads from one nesting to another; on the way the depth does not fall
    below `d`, and no outer connective begins, whatever follows the text. -/
inductive Keeps (d : Nat) : Nesting → List Char → Nesting → Prop
  | nil {n} : Keeps d n [] n
  | cons {n c cs m} : d ≤ n.depth →
      (n = .top → ∀ rest, connectiveAt? (c :: (cs ++ rest)) = none) →
      Keeps d (n.next c) cs m → Keeps d n (c :: cs) m

namespace Keeps

variable {d e : Nat} {n m k : Nesting} {cs ds : List Char}

theorem append (h : Keeps d n cs m) (h' : Keeps d m ds k) : Keeps d n (cs ++ ds) k := by
  induction h with
  | nil => exact h'
  | cons hd hc _ ih => exact .cons hd (fun hn rest => by simpa using hc hn (ds ++ rest)) (ih h')

theorem mono (hde : d ≤ e) (h : Keeps e n cs m) : Keeps d n cs m := by
  induction h with
  | nil => exact .nil
  | cons he hc _ ih => exact .cons (Nat.le_trans hde he) hc ih

theorem depth_le (h : Keeps d n cs m) (hm : d ≤ m.depth) : d ≤ n.depth := by
  cases h with
  | nil => exact hm
  | cons hd => exact hd

/-- A character that is no blank begins no connective. -/
theorem cons_of_ne {c : Char} (hd : d ≤ n.depth) (hc : c ≠ ' ') (h : Keeps d (n.next c) cs m) :
    Keeps d n (c :: cs) m := by
  refine .cons hd (fun _ rest => ?_) h
  unfold connectiveAt?
  split <;> simp_all

end Keeps

/-- A text that can stand at any depth. -/
def Level (cs : List Char) : Prop := ∀ d, Keeps d ⟨d, false⟩ cs ⟨d, false⟩

/-- A text that can stand between parentheses. -/
def Inner (cs : List Char) : Prop := ∀ d, Keeps (d + 1) ⟨d + 1, false⟩ cs ⟨d + 1, false⟩

/-- Whether a character changes the nesting or may begin a connective. -/
def isTurn (c : Char) : Bool := c == '\x27' || c == '(' || c == ')' || c == ' '

theorem next_of_not_isTurn {c : Char} (h : isTurn c = false) (n : Nesting) : n.next c = n := by
  simp only [isTurn, Bool.or_eq_false_iff, beq_eq_false_iff_ne] at h
  obtain ⟨⟨⟨h1, h2⟩, h3⟩, -⟩ := h
  simp [Nesting.next, h1, h2, h3]

theorem Level.inner {cs : List Char} (h : Level cs) : Inner cs := fun d => h (d + 1)

theorem Level.append {cs ds : List Char} (h : Level cs) (h' : Level ds) : Level (cs ++ ds) :=
  fun d => (h d).append (h' d)

theorem Inner.append {cs ds : List Char} (h : Inner cs) (h' : Inner ds) : Inner (cs ++ ds) :=
  fun d => (h d).append (h' d)

/-- A text without turns. -/
theorem level_of_any {cs : List Char} (h : cs.any isTurn = false) : Level cs := by
  intro d
  induction cs with
  | nil => exact .nil
  | cons c cs ih =>
    rw [List.any_cons, Bool.or_eq_false_iff] at h
    refine .cons_of_ne (Nat.le_refl _) (fun he => ?_) ?_
    · rw [he] at h; cases h.1
    · rw [next_of_not_isTurn h.1]; exact ih h.2

theorem level_text (s : String) (h : s.toList.any isTurn = false) : Level s.toList :=
  level_of_any h

/-- A blank before a word that is no connective. -/
theorem level_blank {c : Char} {cs : List Char} (hA : c ≠ 'A') (hO : c ≠ 'O')
    (h : Level (c :: cs)) : Level (' ' :: c :: cs) := by
  refine fun d => .cons (Nat.le_refl _) (fun _ rest => ?_) (by simpa [Nesting.next] using h d)
  unfold connectiveAt?
  split <;> simp_all

/-- A text without quotes, between quotes. -/
theorem level_quoted {cs : List Char} (h : '\x27' ∉ cs) :
    Level ('\x27' :: (cs ++ ['\x27'])) := by
  intro d
  have inside : ∀ ds : List Char, '\x27' ∉ ds → Keeps d ⟨d, true⟩ ds ⟨d, true⟩ := by
    intro ds hds
    induction ds with
    | nil => exact .nil
    | cons c ds ih =>
      obtain ⟨hc, hds⟩ : '\x27' ≠ c ∧ '\x27' ∉ ds := by simpa using hds
      refine .cons (Nat.le_refl _) (fun hn => by cases hn) ?_
      simpa [Nesting.next, Ne.symm hc] using ih hds
  refine .cons_of_ne (Nat.le_refl _) (by decide) ?_
  refine (inside cs h).append (.cons (Nat.le_refl _) (fun hn => by cases hn) ?_)
  simpa [Nesting.next] using Keeps.nil

/-- A text between parentheses. -/
theorem Inner.level_parens {cs : List Char} (h : Inner cs) : Level ('(' :: (cs ++ [')'])) := by
  intro d
  refine .cons_of_ne (Nat.le_refl _) (by decide) ?_
  refine ((h d).mono (Nat.le_succ d)).append ?_
  refine .cons_of_ne (Nat.le_succ d) (by decide) ?_
  simpa [Nesting.next] using Keeps.nil

/-- Between parentheses a connective does not end anything. -/
theorem inner_connective (k : Combinator) : Inner (connective k) := by
  intro d
  have blank {cs : List Char} (h : Keeps (d + 1) ⟨d + 1, false⟩ cs ⟨d + 1, false⟩) :
      Keeps (d + 1) ⟨d + 1, false⟩ (' ' :: cs) ⟨d + 1, false⟩ :=
    .cons (Nat.le_refl _) (fun ht => by cases ht) (by simpa [Nesting.next] using h)
  cases k with
  | and => exact blank ((level_text "AND" (by decide) (d + 1)).append (blank .nil))
  | or => exact blank ((level_text "OR" (by decide) (d + 1)).append (blank .nil))

/-! ## Fragments and predicates stay at their depth -/

theorem mem_marks_of_isTurn {c : Char} (h : isTurn c = true) : c ∈ marks := by
  simp only [isTurn, Bool.or_eq_true, beq_iff_eq] at h
  rcases h with ((rfl | rfl) | rfl) | rfl <;> decide

theorem Unmarked.level {s : String} (h : Unmarked s) : Level s.toList :=
  level_of_any (List.any_eq_false.2 fun c hc ht => h c hc (mem_marks_of_isTurn ht))

theorem level_natDigits (n : Nat) : Level (Number.natDigits n) := by
  refine level_of_any (List.any_eq_false.2 fun c hc ht => ?_)
  have hd := isDigit_of_mem_natDigits hc
  simp only [isTurn, Bool.or_eq_true, beq_iff_eq] at ht
  rcases ht with ((rfl | rfl) | rfl) | rfl <;> cases hd

theorem level_placeholder (n : Nat) : Level (placeholder n) :=
  (level_text "$" (by decide)).append (level_natDigits n)

theorem level_pathLiteral {path : Path} (h : ∀ s ∈ path, Unmarked s) :
    Level (pathLiteral path) := by
  have : '\x27' ∉ '\x7b' :: (Text.join ',' (path.map String.toList) ++ ['\x7d']) := by
    simp only [List.mem_cons, List.mem_append, List.not_mem_nil, or_false, not_or]
    exact ⟨by decide, fun hq => notMem_marks_of_mem_join h hq (by decide), by decide⟩
  simpa [pathLiteral] using level_quoted this

theorem level_extraction {column : String} {path : Path} (hc : Unmarked column)
    (hp : ∀ s ∈ path, Unmarked s) : Level (extraction column path) :=
  hc.level.append ((level_text "#>>" (by decide)).append (level_pathLiteral hp))

theorem Fragment.level_chars {f : Fragment} (hs : f.Sound) : Level f.chars := by
  obtain ⟨column, path, op, index⟩ := f
  have he : Level (extraction column path) := level_extraction hs.1 hs.2
  have hc : Level column.toList := hs.1.level
  have hi : Level (' ' :: placeholder index) :=
    level_blank (by decide) (by decide) (level_placeholder index)
  have word (c : Char) (w : List Char) (hA : c ≠ 'A') (hO : c ≠ 'O')
      (h : (c :: w).any isTurn = false) : Level (' ' :: c :: w) :=
    level_blank hA hO (level_of_any h)
  have number (c : Char) (w : List Char) (hA : c ≠ 'A') (hO : c ≠ 'O')
      (h : (c :: w).any isTurn = false) :
      Level ('(' :: (extraction column path ++ (')' :: ("::numeric".toList ++
        (' ' :: c :: w ++ ' ' :: placeholder index))))) := by
    have := he.inner.level_parens.append
      ((level_text "::numeric" (by decide)).append ((word c w hA hO h).append hi))
    simpa using this
  cases op
  case eq => exact he.append ((word '=' [] (by decide) (by decide) (by decide)).append hi)
  case neq => exact he.append ((word '!' ['='] (by decide) (by decide) (by decide)).append hi)
  case like =>
    exact he.append ((word 'L' "IKE".toList (by decide) (by decide) (by decide)).append hi)
  case ilike =>
    exact he.append ((word 'I' "LIKE".toList (by decide) (by decide) (by decide)).append hi)
  case gt => exact number '>' [] (by decide) (by decide) (by decide)
  case gte => exact number '>' ['='] (by decide) (by decide) (by decide)
  case lt => exact number '<' [] (by decide) (by decide) (by decide)
  case lte => exact number '<' ['='] (by decide) (by decide) (by decide)
  case oneOf =>
    have hany : Level " ANY".toList := fun d =>
      .cons (Nat.le_refl _) (fun _ _ => rfl) (level_text "ANY" (by decide) d)
    have hlist : Level ('(' :: (placeholder index ++ "::text[]".toList ++ [')'])) :=
      ((level_placeholder index).append (level_text "::text[]" (by decide))).inner.level_parens
    have := he.append ((word '=' [] (by decide) (by decide) (by decide)).append (hany.append hlist))
    simpa [Fragment.chars] using this
  case contains =>
    have := hc.append ((word '@' ['>'] (by decide) (by decide) (by decide)).append
      (hi.append (level_text "::jsonb" (by decide))))
    simpa [Fragment.chars] using this
  case present =>
    simp only [Fragment.chars]
    split
    · have hq : '\x27' ∉ (‹String› : String).toList := fun h =>
        hs.2 _ (List.mem_singleton_self _) _ h (by decide)
      have := hc.append ((word '?' [] (by decide) (by decide) (by decide)).append
        (level_blank (by decide) (by decide) (level_quoted hq)))
      simpa using this
    · have hp : Level (' ' :: pathLiteral path) :=
        level_blank (by decide) (by decide) (level_pathLiteral hs.2)
      have := hc.append ((word '#' ['>'] (by decide) (by decide) (by decide)).append (hp.append
        ((word 'I' ['S'] (by decide) (by decide) (by decide)).append
          ((word 'N' "OT".toList (by decide) (by decide) (by decide)).append
            (word 'N' "ULL".toList (by decide) (by decide) (by decide))))))
      simpa using this

mutual

/-- **The text of a predicate stays at its depth.** -/
theorem level_chars : ∀ {p : Predicate}, (∀ f ∈ p.fragments, f.Sound) → Level p.chars
  | .atom f, hs => Fragment.level_chars (hs f (List.mem_singleton_self f))
  | .group k _, hs => (inner_partsChars k hs).level_parens

theorem inner_partsChars (k : Combinator) : ∀ {parts : List Predicate},
    (∀ f ∈ allFragments parts, f.Sound) → Inner (partsChars k parts)
  | [], _ => fun _ => .nil
  | [p], hs => (level_chars (sound_cons hs).1).inner
  | p :: q :: _, hs => by
    obtain ⟨hp, hq⟩ := sound_cons hs
    rw [partsChars]
    · exact (level_chars hp).inner.append ((inner_connective k).append (inner_partsChars k hq))
    · simp

end

/-! ## Cutting and unwrapping -/

theorem cut_append {n : Nesting} {cs : List Char} (h : Keeps 0 n cs .top) (rest : List Char) :
    cut n (cs ++ rest) = (cs ++ (cut .top rest).1, (cut .top rest).2) := by
  generalize hm : Nesting.top = m at h ⊢
  induction h with
  | nil => subst hm; rfl
  | @cons n c cs m _ hc _ ih =>
    rw [List.cons_append, cut, ih hm]
    split
    · next next hn =>
      split at hn
      · next ht => rw [hc ht rest] at hn; cases hn
      · cases hn
    · rfl

theorem cut_connective (k : Combinator) (rest : List Char) :
    cut .top (connective k ++ rest) = ([], some (k, rest)) := by
  cases k <;> rfl

/-- A text that stays at its depth is one piece. -/
theorem pieces_level {cs : List Char} (h : Level cs) : pieces cs = (cs, []) := by
  have hc : cut .top (cs ++ []) = (cs ++ (cut .top []).1, (cut .top []).2) := cut_append (h 0) []
  rw [List.append_nil, cut, List.append_nil] at hc
  rw [pieces]
  split
  · rw [hc]
  · next hn => rw [hc] at hn; cases hn

/-- Such a text before a connective is a piece. -/
theorem pieces_append {cs : List Char} (h : Level cs) (k : Combinator) (rest : List Char) :
    pieces (cs ++ (connective k ++ rest)) = (cs, (k, (pieces rest).1) :: (pieces rest).2) := by
  have hc : cut .top (cs ++ (connective k ++ rest)) = (cs, some (k, rest)) := by
    rw [Nesting.top, cut_append (h 0), cut_connective, List.append_nil]
  rw [pieces]
  split
  · next hn => rw [hc] at hn; cases hn
  · next hn => rw [hc] at hn ⊢; cases hn; rfl

theorem pieces_partsChars (k : Combinator) : ∀ {p : Predicate} {parts : List Predicate},
    (∀ f ∈ allFragments (p :: parts), f.Sound) →
      pieces (partsChars k (p :: parts)) = (p.chars, parts.map fun q => (k, q.chars))
  | p, [], hs => pieces_level (level_chars (sound_cons hs).1)
  | p, q :: parts, hs => by
    obtain ⟨hp, hq⟩ := sound_cons hs
    rw [partsChars]
    · rw [pieces_append (level_chars hp), pieces_partsChars k hq]
      rfl
    · simp

theorem enclosed?_append {n : Nesting} {cs : List Char} (h : Keeps 1 n cs ⟨1, false⟩)
    (rest : List Char) : enclosed? n (cs ++ ')' :: rest) = some (cs, rest) := by
  generalize hm : (⟨1, false⟩ : Nesting) = m at h
  induction h with
  | nil => subst hm; rfl
  | @cons n c cs m _ _ hk ih =>
    have hd : 1 ≤ (n.next c).depth := hk.depth_le (by simp [← hm])
    have ht : n.next c ≠ .top := fun ht => by rw [ht] at hd; cases hd
    rw [List.cons_append, enclosed?, if_neg ht, ih hm]
    rfl

theorem unwrapped?_parens {cs : List Char} (h : Inner cs) :
    unwrapped? ('(' :: (cs ++ [')'])) = some cs := by
  rw [unwrapped?, enclosed?_append (h 0) []]

theorem unwrapped?_of_head {cs : List Char} (h : '(' ∉ cs.head?) : unwrapped? cs = none := by
  unfold unwrapped?
  split
  · simp at h
  · rfl

/-- Parentheses that close before the end do not enclose the text. -/
theorem unwrapped?_parens_cons {cs rest : List Char} (h : Inner cs) (hr : rest ≠ []) :
    unwrapped? ('(' :: (cs ++ ')' :: rest)) = none := by
  rw [unwrapped?, enclosed?_append (h 0) rest]
  cases rest with
  | nil => exact absurd rfl hr
  | cons => rfl

theorem Unmarked.head_append {s : String} (h : Unmarked s) {rest : List Char}
    (hr : '(' ∉ rest.head?) : '(' ∉ (s.toList ++ rest).head? := by
  cases hs : s.toList with
  | nil => exact hr
  | cons c cs =>
    have hc : c ∉ marks := h c (by simp [hs])
    intro he
    obtain rfl : c = '(' := by simpa using he
    exact hc (by decide)

/-- A fragment is not enclosed in parentheses: where it begins with one, more follows. -/
theorem Fragment.unwrapped?_chars {f : Fragment} (hs : f.Sound) : unwrapped? f.chars = none := by
  obtain ⟨column, path, op, index⟩ := f
  have he : Inner (extraction column path) := (level_extraction hs.1 hs.2).inner
  have plain (rest : List Char) (hr : '(' ∉ rest.head?) :
      unwrapped? (column.toList ++ rest) = none := unwrapped?_of_head (hs.1.head_append hr)
  have extracted (rest : List Char) : unwrapped? (extraction column path ++ rest) = none := by
    rw [extraction, List.append_assoc]
    exact plain _ (by simp)
  have number (rest : List Char) :
      unwrapped? ('(' :: (extraction column path ++ (")::numeric ".toList ++ rest))) = none :=
    unwrapped?_parens_cons he (by simp)
  cases op
  case eq | neq | like | ilike | oneOf => exact extracted _
  case gt | gte | lt | lte => exact number _
  case contains => exact plain _ (by simp)
  case present =>
    simp only [Fragment.chars]
    split <;> exact plain _ (by simp)

/-! ## Reading back -/

/-- Formulas joined from the left. -/
def Formula.chain (k : Combinator) : List Formula → Formula
  | [] => .atom []
  | f :: fs => fs.foldl (.join k) f

mutual

/-- The formula of a predicate. -/
def Predicate.formula : Predicate → Formula
  | .atom f => .atom f.chars
  | .group k parts => .chain k (formulas parts)

/-- The formulas of several predicates. -/
def formulas : List Predicate → List Formula
  | [] => []
  | p :: parts => p.formula :: formulas parts

end

theorem assemble_and (f : Formula) (fs : List Formula) :
    assemble none f (fs.map fun g => (.and, g)) = fs.foldl (.join .and) f := by
  induction fs generalizing f with
  | nil => rfl
  | cons g fs ih => exact ih (.join .and f g)

theorem assemble_or (done : Option Formula) (f : Formula) (fs : List Formula) :
    assemble done f (fs.map fun g => (.or, g)) = fs.foldl (.join .or) (f.disjoin done) := by
  induction fs generalizing done f with
  | nil => rfl
  | cons g fs ih => exact ih (some (f.disjoin done)) g

theorem assemble_chain (k : Combinator) (f : Formula) (fs : List Formula) :
    assemble none f (fs.map fun g => (k, g)) = .chain k (f :: fs) := by
  cases k with
  | and => exact assemble_and f fs
  | or => exact assemble_or none f fs

theorem read_level {cs : List Char} (h : Level cs) : Formula.read cs =
    match unwrapped? cs with
    | some inner => .read inner
    | none => .atom cs :=
  Formula.read_of_pieces_nil (by rw [pieces_level h])

/-- The parts of a group are read one by one. -/
theorem read_partsChars (k : Combinator) : ∀ {parts : List Predicate},
    (∀ f ∈ allFragments parts, f.Sound) →
      Formula.read (partsChars k parts) = .chain k (parts.map fun p => .read p.chars)
  | [], _ => read_level fun _ => .nil
  | [p], _ => rfl
  | p :: q :: parts, hs => by
    have hp : pieces (partsChars k (p :: q :: parts)) =
        (p.chars, (q :: parts).map fun r => (k, r.chars)) := pieces_partsChars k hs
    have ha := assemble_chain k (.read p.chars) ((q :: parts).map fun r => .read r.chars)
    rw [List.map_map] at ha
    rw [Formula.read_of_pieces_cons (by simp [hp]), hp, List.map_map]
    exact ha

mutual

/-- **The text of a predicate reads back as the predicate.** -/
theorem read_chars : ∀ {p : Predicate}, (∀ f ∈ p.fragments, f.Sound) →
    Formula.read p.chars = p.formula
  | .atom f, hs => by
    have hf : f.Sound := hs f (List.mem_singleton_self f)
    rw [Predicate.chars, read_level (Fragment.level_chars hf), Fragment.unwrapped?_chars hf]
    rfl
  | .group k parts, hs => by
    rw [read_level (level_chars hs), Predicate.chars, unwrapped?_parens (inner_partsChars k hs),
      Predicate.formula, ← read_parts hs]
    exact read_partsChars k hs

theorem read_parts : ∀ {parts : List Predicate}, (∀ f ∈ allFragments parts, f.Sound) →
    parts.map (fun p => Formula.read p.chars) = formulas parts
  | [], _ => rfl
  | p :: parts, hs => by
    obtain ⟨hp, hps⟩ := sound_cons hs
    rw [List.map_cons, formulas, read_chars hp, read_parts hps]

end

end VectorStore.Filter
