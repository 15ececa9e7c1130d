/-
  The placeholders in the text of a filter.

  * `placeholdersIn` finds the placeholders of a statement in the order of its text;
  * `placeholdersIn_chars`: those of a predicate are the indices of its fragments, as names
    of columns and segments hold no placeholder and every index is followed by something
    else than a digit;
  * `placeholders_sql`: the placeholders of a compiled filter count up from its first index
    without a gap, and its parameters are bound by its conditions in document order.
-/
import VectorStore.Proofs.Filter.Marks

namespace VectorStore.Filter

/-- The placeholders of a statement: every `$` with the digits that follow it. -/
def placeholdersIn : List Char → List (List Char)
  | [] => []
  | c :: cs =>
    let digits := cs.takeWhile Char.isDigit
    if c = '$' ∧ digits ≠ [] then (c :: digits) :: placeholdersIn cs else placeholdersIn cs

/-- A text that does not go on with a digit. -/
def Stops (cs : List Char) : Prop := ∀ c ∈ cs.head?, c.isDigit = false

theorem takeWhile_natDigits (n : Nat) {rest : List Char} (hr : Stops rest) :
    (Number.natDigits n ++ rest).takeWhile Char.isDigit = Number.natDigits n := by
  rw [List.takeWhile_append_of_pos fun c => isDigit_of_mem_natDigits]
  cases rest with
  | nil => simp
  | cons c rest => simp [hr c rfl]

/-! ## Texts -/

theorem placeholdersIn_append {cs : List Char} (h : '$' ∉ cs) (rest : List Char) :
    placeholdersIn (cs ++ rest) = placeholdersIn rest := by
  induction cs with
  | nil => rfl
  | cons c cs ih =>
    obtain ⟨hc, hcs⟩ : '$' ≠ c ∧ '$' ∉ cs := by simpa using h
    rw [List.cons_append, placeholdersIn, if_neg fun hd => hc hd.1.symm, ih hcs]

theorem dollar_notMem_natDigits (n : Nat) : '$' ∉ Number.natDigits n := fun h =>
  absurd (isDigit_of_mem_natDigits h) (by decide)

theorem placeholdersIn_placeholder (index : Nat) {rest : List Char} (hr : Stops rest) :
    placeholdersIn (placeholder index ++ rest) = placeholder index :: placeholdersIn rest := by
  rw [placeholder, List.cons_append, placeholdersIn, takeWhile_natDigits index hr,
    if_pos ⟨rfl, Nat.toDigits_ne_nil⟩, placeholdersIn_append (dollar_notMem_natDigits index)]

/-! ## Fragments -/

theorem Unmarked.dollar {s : String} (h : Unmarked s) : '$' ∉ s.toList :=
  fun hs => h _ hs (by decide)

theorem dollar_notMem_pathLiteral {path : Path} (h : ∀ s ∈ path, Unmarked s) :
    '$' ∉ pathLiteral path := by
  intro hd
  simp only [pathLiteral, List.mem_cons, List.mem_append, List.not_mem_nil, or_false] at hd
  rcases hd with hd | hd | hd | hd | hd
  · exact absurd hd (by decide)
  · exact absurd hd (by decide)
  · exact notMem_marks_of_mem_join h hd (by decide)
  · exact absurd hd (by decide)
  · exact absurd hd (by decide)

theorem dollar_notMem_extraction {column : String} {path : Path} (hc : Unmarked column)
    (hp : ∀ s ∈ path, Unmarked s) : '$' ∉ extraction column path := by
  simp only [extraction, List.mem_append, List.mem_cons, not_or]
  exact ⟨hc.dollar, by decide, by decide, by decide, dollar_notMem_pathLiteral hp⟩

/-- A text with one placeholder, the given one, and no digit right behind it. -/
def Marks (index : Nat) (cs : List Char) : Prop :=
  ∃ before after, cs = before ++ (placeholder index ++ after) ∧ '$' ∉ before ∧ '$' ∉ after ∧
    ∀ rest, Stops rest → Stops (after ++ rest)

theorem marks_placeholder (index : Nat) : Marks index (placeholder index) :=
  ⟨[], [], by simp, by simp, by simp, by simp⟩

/-- A placeholder before a colon. -/
theorem marks_colon (index : Nat) (after : List Char) (h : '$' ∉ after) :
    Marks index (placeholder index ++ ':' :: after) :=
  ⟨[], ':' :: after, rfl, by simp, by simp [h], fun _ _ => by simp [Stops]⟩

theorem Marks.append_left {index : Nat} {cs ds : List Char} (h : Marks index ds)
    (hc : '$' ∉ cs) : Marks index (cs ++ ds) := by
  obtain ⟨before, after, rfl, hb, ha, hs⟩ := h
  exact ⟨cs ++ before, after, by rw [List.append_assoc], by simp [hc, hb], ha, hs⟩

theorem Marks.cons {index : Nat} {c : Char} {cs : List Char} (h : Marks index cs) (hc : c ≠ '$') :
    Marks index (c :: cs) :=
  h.append_left (List.mem_singleton.not.2 hc.symm)

theorem Fragment.marks_chars {f : Fragment} (hs : f.Sound) (hv : f.operator.needsValue = true) :
    Marks f.index f.chars := by
  obtain ⟨column, path, op, index⟩ := f
  have he : '$' ∉ extraction column path := dollar_notMem_extraction hs.1 hs.2
  have hc : '$' ∉ column.toList := hs.1.dollar
  have compared (symbol : List Char) (h : '$' ∉ symbol) :
      Marks index (symbol ++ ' ' :: placeholder index) :=
    ((marks_placeholder index).cons (by decide)).append_left h
  have compare (symbol : List Char) (h : '$' ∉ symbol) :
      Marks index (extraction column path ++ ' ' :: (symbol ++ ' ' :: placeholder index)) :=
    ((compared symbol h).cons (by decide)).append_left he
  have compareNumber (symbol : List Char) (h : '$' ∉ symbol) :
      Marks index ('(' :: (extraction column path ++
        (")::numeric ".toList ++ (symbol ++ ' ' :: placeholder index)))) :=
    (((compared symbol h).append_left (by decide)).append_left he).cons (by decide)
  cases op
  case eq | neq | like | ilike => exact compare _ (by decide)
  case gt | gte | lt | lte => exact compareNumber _ (by decide)
  case oneOf =>
    exact ((marks_colon index ":text[])".toList (by decide)).append_left (by decide)).append_left he
  case contains =>
    exact ((marks_colon index ":jsonb".toList (by decide)).append_left (by decide)).append_left hc
  case present => cases hv

theorem Fragment.dollar_notMem_chars {f : Fragment} (hs : f.Sound)
    (hv : f.operator.needsValue = false) : '$' ∉ f.chars := by
  obtain ⟨column, path, op, index⟩ := f
  have hc : '$' ∉ column.toList := hs.1.dollar
  have hp : '$' ∉ pathLiteral path := dollar_notMem_pathLiteral hs.2
  cases op <;> cases hv
  simp only [Fragment.chars]
  split
  · have := (hs.2 _ (List.mem_singleton_self _)).dollar
    simp [hc, this]
  · simp [hc, hp]

/-- The placeholders of fragments. -/
def slots (fs : List Fragment) : List (List Char) :=
  (fs.filter (·.operator.needsValue)).map fun f => placeholder f.index

theorem slots_append (fs gs : List Fragment) : slots (fs ++ gs) = slots fs ++ slots gs := by
  simp [slots]

theorem slots_fragmentsFrom (column : String) (index : Nat) (cs : List Condition) :
    slots (fragmentsFrom column index cs) = (List.range' index (width cs)).map placeholder := by
  rw [← indices_fragmentsFrom column index cs, List.map_map]; rfl

theorem placeholdersIn_fragment {f : Fragment} (hs : f.Sound) {rest : List Char}
    (hr : Stops rest) :
    placeholdersIn (f.chars ++ rest) = slots [f] ++ placeholdersIn rest := by
  rcases hv : f.operator.needsValue
  · rw [placeholdersIn_append (Fragment.dollar_notMem_chars hs hv)]
    simp [slots, hv]
  · obtain ⟨before, after, he, hb, ha, hstops⟩ := Fragment.marks_chars hs hv
    rw [he, List.append_assoc, placeholdersIn_append hb, List.append_assoc,
      placeholdersIn_placeholder _ (hstops rest hr), placeholdersIn_append ha]
    simp [slots, hv]

/-! ## Predicates -/

theorem stops_of_not_isDigit {c : Char} (h : c.isDigit = false) (cs : List Char) :
    Stops (c :: cs) := by simp [Stops, h]

theorem stops_connective (c : Combinator) (cs : List Char) : Stops (connective c ++ cs) := by
  cases c <;> exact stops_of_not_isDigit (by decide) _

theorem dollar_notMem_connective (c : Combinator) : '$' ∉ connective c := by
  cases c <;> decide

mutual

/-- **The placeholders of a predicate are those of its fragments.** -/
theorem placeholdersIn_chars : ∀ {p : Predicate}, (∀ f ∈ p.fragments, f.Sound) →
    ∀ {rest : List Char}, Stops rest →
      placeholdersIn (p.chars ++ rest) = slots p.fragments ++ placeholdersIn rest
  | .atom f, hs, rest, hr => placeholdersIn_fragment (hs f (List.mem_singleton_self f)) hr
  | .group c parts, hs, rest, hr => by
    have hp : Stops (')' :: rest) := stops_of_not_isDigit (by decide) rest
    rw [Predicate.chars, Predicate.fragments, List.cons_append, List.append_assoc,
      List.singleton_append, ← List.singleton_append, placeholdersIn_append (by decide),
      placeholdersIn_partsChars c hs hp, ← List.singleton_append (l := rest),
      placeholdersIn_append (by decide)]

theorem placeholdersIn_partsChars (c : Combinator) : ∀ {parts : List Predicate},
    (∀ f ∈ allFragments parts, f.Sound) → ∀ {rest : List Char}, Stops rest →
      placeholdersIn (partsChars c parts ++ rest) =
        slots (allFragments parts) ++ placeholdersIn rest
  | [], _, rest, _ => rfl
  | [p], hs, rest, hr => by
    rw [partsChars, allFragments, allFragments, List.append_nil]
    exact placeholdersIn_chars (sound_cons hs).1 hr
  | p :: q :: parts, hs, rest, hr => by
    obtain ⟨hp, hq⟩ := sound_cons hs
    rw [partsChars, allFragments]
    · rw [List.append_assoc, List.append_assoc, placeholdersIn_chars hp (stops_connective c _),
        placeholdersIn_append (dollar_notMem_connective c), placeholdersIn_partsChars c hq hr,
        slots_append, List.append_assoc]
    · simp

end

/-- The placeholders of a compiled filter, before a text that does not go on with a digit. -/
theorem placeholdersIn_compiled {expression : Value} {start : Nat} {column : String} {c : Compiled}
    (hc : isIdentifier column = true) (h : compile expression start column = .ok c)
    {rest : List Char} (hr : Stops rest) : placeholdersIn (c.predicate.chars ++ rest) =
      (List.range' start c.bindings.length).map placeholder ++ placeholdersIn rest := by
  have hs := sound_of_compile hc h
  obtain ⟨bs, hb, rfl⟩ := (compile_eq_ok_iff column).1 h
  rw [placeholdersIn_chars hs hr, fragments_predicateAt, slots_fragmentsFrom, length_parameters hb]

/-- **Placeholders and parameters correspond.**  The placeholders of a compiled filter are
    `$start`, `$(start + 1)` and so on, one for each parameter.  Its entries state one condition
    each, with the entry's key, the path that the key writes, the entry's operator and its value;
    the parameters are bound by these conditions, in document order. -/
theorem placeholders_sql {expression : Value} {start : Nat} {column : String} {c : Compiled}
    (hc : isIdentifier column = true) (h : compile expression start column = .ok c) :
    c.nextIndex = start + c.bindings.length ∧
      placeholdersIn c.sql.toList = (List.range' start c.bindings.length).map placeholder ∧
      ∃ conditions,
        List.Forall₂ (fun e c => ReadFrom e c ∧ c.key = e.1 ∧ Path.ofText e.1 = .ok c.path ∧
            entryOperator e.2 = some c.operator ∧ c.value = entryValue e.2)
          (conditionEntries expression) conditions ∧
        List.Forall₂ Condition.Binds (conditions.filter Condition.takesValue) c.bindings := by
  have hr : Stops [] := by simp [Stops]
  have hp := placeholdersIn_compiled hc h hr
  rw [List.append_nil, placeholdersIn, List.append_nil] at hp
  obtain ⟨bs, hb, rfl⟩ := (compile_eq_ok_iff column).1 h
  refine ⟨rfl, ?_, _, (writes_ofValue hb).leaves.imp fun e c he => ⟨he, ?_⟩, parameters_binds hb⟩
  · rw [Compiled.sql, Predicate.text, String.toList_ofList, hp]
  · obtain ⟨path, op, hpath, hop, rfl⟩ := he.spec
    exact ⟨rfl, hpath, hop, rfl⟩

theorem placeholders_shoes : isIdentifier "metadata" = true ∧ ∃ c,
    compile shoes 2 "metadata" = .ok c ∧ c.nextIndex = 5 ∧
      placeholdersIn c.sql.toList = [placeholder 2, placeholder 3, placeholder 4] := by
  have hc : isIdentifier "metadata" = true := by decide
  obtain ⟨hn, hp, -⟩ := placeholders_sql hc compile_shoes
  exact ⟨hc, shoesCompiled, compile_shoes, hn, hp⟩

end VectorStore.Filter
