/-
  Parameters are what the evaluator compares with.

  * `asText_eq_asText` and `wildcards_eq_likePattern`: the evaluator makes the texts that are bound;
  * `Memory.operand?` is what the evaluator makes of a condition's value, and
    `matchCondition_eq_meets`: of the value it looks at nothing else;
  * `Bound.operand?` is what a parameter says, its JSON text being read;
  * `exists_operand`: by cases on the operator both are the same, and `bind_eq_error`: neither is
    there for a value that cannot be written;
  * `forall_operand`: so it is for all conditions of an accepted filter, one by one.
-/
import VectorStore.Proofs.Memory.Evaluation
import VectorStore.Proofs.Postgres.Selection

namespace VectorStore

/-- What is to be contained is bound as its JSON text, so there is one. -/
theorem Filter.Condition.Binds.isWritable {c : Filter.Condition} {b : Filter.Binding}
    (h : c.Binds b) (ho : c.operator = .contains) : c.value.isWritable = true := by
  cases h
  case contains hv => exact hv
  case number hop =>
    obtain rfl := ho
    exact absurd hop (by decide)
  all_goals cases ho

namespace Memory

open VectorStore.Filter (Binding Condition Path choices)

/-! ## Texts -/

/-- **A value is compared by the text that it is bound by**, if there is one. -/
theorem asText_eq_asText (v : Value) : asText (some v) = Postgres.asText v := by
  rw [asText_eq, Postgres.asText_eq]
  rfl

/-- The pattern of the evaluator is the one that is bound. -/
theorem wildcards_eq_likePattern (v : Value) : wildcards v = Filter.likePattern v := by
  rw [wildcards_eq, Filter.likePattern_eq]

/-! ## Evaluation -/

/-- What the value of a condition stands for in comparisons. -/
inductive Operand where
  | text (t : Option String)
  | pattern (p : String)
  | texts (ts : List (Option String))
  | document (v : Value)

/-- The operators that compare with a value, but not by number. -/
def comparing : List Operator := [.eq, .neq, .like, .ilike, .oneOf, .contains]

theorem notMem_comparing {op : Operator} (h : op ∈ [Operator.gt, .gte, .lt, .lte]) :
    op ∉ comparing := by
  revert h
  cases op <;> decide

/-- What the evaluator compares with, if it compares with something else than a number. -/
def operand? (c : Condition) : Except Fault (Option Operand) :=
  match c.operator with
  | .eq | .neq => return some (.text (← asText (some c.value)))
  | .like | .ilike => return some (.pattern (← wildcards c.value))
  | .oneOf =>
    match choices c.value with
    | .ok items => return some (.texts (← items.mapM fun v => asText (some v)))
    | .error _ => .ok none
  | .contains => return some (.document (← patternOf (c.path.fold c.value)))
  | _ => .ok none

/-- Whether the text of a field, if it has one, meets a comparison. -/
def meetsText (op : Operator) (text : Option String) : Operand → Bool
  | .text t => text.isSome && if op = .eq then text == t else text != t
  | .pattern p => text.any fun s => if op = .like then isLike s p else isLikeFolded s p
  | .texts ts => text.any fun s => ts.contains (some s)
  | .document _ => false

/-- Whether a document meets a comparison of the field at a path with an operand. -/
def meets (doc : Value) (path : Path) (op : Operator) : Operand → Except Failure Bool
  | .document v => .ok (contains doc v)
  | o => do return meetsText op (← faulty (asText (← faulty (extract path doc)))) o

section

variable {c : Condition} {o : Operand} {doc : Value}

/-- A condition that compares the text of its field fails as finding this text does. -/
theorem matchCondition_eq_meets_of_text (hc : c.operator ≠ .contains) (hp : c.operator ≠ .present)
    (ho : ∀ v, o ≠ .document v)
    (h : ∀ stored text, extract c.path doc = .ok stored → asText stored = .ok text →
      matchCondition doc c = .ok (meetsText c.operator text o)) :
    matchCondition doc c = meets doc c.path c.operator o := by
  have hmeets : meets doc c.path c.operator o = do
      return meetsText c.operator (← faulty (asText (← faulty (extract c.path doc)))) o := by
    cases o with
    | document v => exact absurd rfl (ho v)
    | _ => rfl
  rw [hmeets]
  rcases hx : extract c.path doc with f | stored
  · exact matchCondition_of_extract_eq_error hc hx
  · show _ = (faulty (asText stored) >>= _)
    rcases ht : asText stored with f | text
    · exact matchCondition_of_asText_eq_error hc hp hx ht
    · exact h stored text hx ht

/-- **Of the value of a condition the evaluator looks at the operand.** -/
theorem matchCondition_eq_meets (h : operand? c = .ok (some o)) (doc : Value) :
    matchCondition doc c = meets doc c.path c.operator o := by
  obtain ⟨key, path, op, v⟩ := c
  cases op
  case eq =>
    obtain ⟨t, ht, h⟩ := bind_eq_ok h
    cases h
    refine matchCondition_eq_meets_of_text nofun nofun nofun fun stored text hx hs => ?_
    rw [matchCondition_equal hx hs, ht]
    cases text <;> rfl
  case neq =>
    obtain ⟨t, ht, h⟩ := bind_eq_ok h
    cases h
    refine matchCondition_eq_meets_of_text nofun nofun nofun fun stored text hx hs => ?_
    rw [matchCondition_unequal hx hs, ht]
    cases text <;> rfl
  case like =>
    obtain ⟨p, hp, h⟩ := bind_eq_ok h
    cases h
    refine matchCondition_eq_meets_of_text nofun nofun nofun fun stored text hx hs => ?_
    rw [matchCondition_like hx hs, hp]
    rfl
  case ilike =>
    obtain ⟨p, hp, h⟩ := bind_eq_ok h
    cases h
    refine matchCondition_eq_meets_of_text nofun nofun nofun fun stored text hx hs => ?_
    rw [matchCondition_ilike hx hs, hp]
    rfl
  case oneOf =>
    rcases hitems : choices v with r | items
    · simp only [operand?, hitems] at h
      cases h
    · simp only [operand?, hitems] at h
      obtain ⟨ts, hts, h⟩ := bind_eq_ok h
      cases h
      refine matchCondition_eq_meets_of_text nofun nofun nofun fun stored text hx hs => ?_
      rw [matchCondition_choice hx hs hitems, hts]
      cases text <;> rfl
  case contains =>
    obtain ⟨w, hw, h⟩ := bind_eq_ok h
    cases h
    rw [matchCondition]
    dsimp only
    rw [hw]
    rfl
  all_goals cases h

/-- Where a value has no text to be compared with, no document meets the condition. -/
theorem matchCondition_ne_true {b : Binding} (hb : c.Binds b) (ho : c.operator ∈ comparing)
    (hv : c.value.isWritable = false) (doc : Value) : matchCondition doc c ≠ .ok true := by
  intro h
  have hnot : ¬c.value.isWritable = true := by simpa using hv
  have hother : c.operator ≠ .contains ∧ c.operator ≠ .present := by
    refine ⟨fun hc => hnot (hb.isWritable hc), fun hp => ?_⟩
    rw [hp] at ho
    exact absurd ho (by decide)
  obtain ⟨stored, hx⟩ : ∃ stored, extract c.path doc = .ok stored := by
    rcases hx : extract c.path doc with f | stored
    · rw [matchCondition_of_extract_eq_error hother.1 hx] at h
      cases h
    · exact ⟨stored, rfl⟩
  obtain ⟨text, ht⟩ : ∃ text, asText stored = .ok text := by
    rcases ht : asText stored with f | text
    · rw [matchCondition_of_asText_eq_error hother.1 hother.2 hx ht] at h
      cases h
    · exact ⟨text, rfl⟩
  cases hb
  case eq =>
    rw [matchCondition_equal hx ht, asText_eq, if_neg (by exact hnot)] at h
    cases text <;> cases h
  case neq =>
    rw [matchCondition_unequal hx ht, asText_eq, if_neg (by exact hnot)] at h
    cases text <;> cases h
  case list items =>
    rw [matchCondition_choice hx ht rfl, mapM_asText, if_neg (by exact hnot)] at h
    cases text <;> cases h
  case commas => cases hv
  case like hw | ilike hw | contains hw => exact hnot hw
  case number hop => exact notMem_comparing hop ho

end

end Memory

namespace Postgres

open VectorStore.Filter (Binding Compiled Condition compile leaves ofValue parameters)
open VectorStore.Memory (Operand comparing matchCondition meets operand?)

/-! ## Parameters -/

/-- A text, or null for none. -/
def optionalText? : Value → Option (Option String)
  | .null => some none
  | .text s => some (some s)
  | _ => none

/-- What a parameter gives a comparison. -/
def Bound.operand? (op : Operator) : Bound → Option Operand
  | .value v =>
    match op, v with
    | .eq, v | .neq, v => (optionalText? v).map .text
    | .like, .text p | .ilike, .text p => some (.pattern p)
    | .oneOf, .list items => (items.mapM optionalText?).map .texts
    | .contains, .text s => (Json.read s).toOption.map .document
    | _, _ => none
  | .decimal _ => none

theorem optionalText?_textDocument (v : Value) :
    optionalText? (textDocument v) = some (Json.textForm v) := by
  rw [textDocument]
  cases Json.textForm v <;> rfl

theorem mapM_optionalText? (items : List Value) :
    (items.map textDocument).mapM optionalText? = some (items.map Json.textForm) := by
  induction items with
  | nil => rfl
  | cons v items ih =>
    rw [List.map_cons, List.mapM_cons, optionalText?_textDocument, ih]
    rfl

/-- **A parameter gives a comparison what the evaluator compares with**, if its value can be
    written. -/
theorem exists_operand {c : Condition} {b : Binding} (h : c.Binds b) (ho : c.operator ∈ comparing)
    (hv : c.value.isWritable = true) :
    ∃ x o, bind (some b.type) b.value = .ok x ∧ x.operand? c.operator = some o ∧
      Memory.operand? c = .ok (some o) := by
  have htext : Memory.asText (some c.value) = .ok (Json.textForm c.value) :=
    Memory.asText_of_writable hv
  cases h
  case eq v | neq v =>
    refine ⟨.value (textDocument v), .text (Json.textForm v), (bind_text v).trans (if_pos hv),
      congrArg (Option.map Operand.text) (optionalText?_textDocument v), ?_⟩
    rw [Memory.operand?, htext]
    rfl
  case like v _ | ilike v _ =>
    refine ⟨.value (.text _), .pattern _, rfl, rfl, ?_⟩
    rw [Memory.operand?, Memory.wildcards_eq, if_pos hv]
    rfl
  case list items =>
    refine ⟨.value (.list (items.map textDocument)), .texts (items.map Json.textForm),
      (bind_textArray items).trans (if_pos hv),
      congrArg (Option.map Operand.texts) (mapM_optionalText? items), ?_⟩
    show (do return some (Operand.texts (← items.mapM fun v => Memory.asText (some v)))) = _
    rw [Memory.mapM_asText, if_pos (by exact hv)]
    rfl
  case commas s =>
    have hitems := (Filter.areWritable_choices (v := .text s) rfl).trans hv
    refine ⟨.value (.list _), .texts _, (bind_textArray _).trans (if_pos hitems),
      congrArg (Option.map Operand.texts) (mapM_optionalText? _), ?_⟩
    show (do return some (Operand.texts (← List.mapM (fun v => Memory.asText (some v)) _))) = _
    rw [Memory.mapM_asText, if_pos hitems]
    rfl
  case contains path v _ =>
    have hread : Json.read (Json.write Json.spaced (path.fold v)) =
        .ok (path.fold (Json.merged v)) := by
      rw [Json.read_write_merged ((Filter.Path.isWritable_fold path v).trans hv),
        Memory.merged_fold]
    refine ⟨.value (.text _), .document (path.fold (Json.merged v)), rfl, ?_, ?_⟩
    · rw [Bound.operand?, hread]
      rfl
    · rw [Memory.operand?, Memory.patternOf_eq, if_pos hv]
      rfl
  case number hop => exact absurd ho (Memory.notMem_comparing hop)

/-- A value that cannot be written is neither bound nor compared with. -/
theorem bind_eq_error {c : Condition} {b : Binding} (h : c.Binds b) (ho : c.operator ∈ comparing)
    (hv : c.value.isWritable = false) :
    bind (some b.type) b.value = .error .intTooLong ∧ Memory.operand? c = .error .intTooLong := by
  have hnot : ¬c.value.isWritable = true := by simpa using hv
  have htext : Memory.asText (some c.value) = .error .intTooLong :=
    (Memory.asText_eq (some c.value)).trans (if_neg hnot)
  cases h
  case eq v | neq v =>
    refine ⟨(bind_text v).trans (if_neg hnot), ?_⟩
    rw [Memory.operand?, htext]
    rfl
  case list items =>
    refine ⟨(bind_textArray items).trans (if_neg hnot), ?_⟩
    show (do return some (Operand.texts (← items.mapM fun v => Memory.asText (some v)))) = _
    rw [Memory.mapM_asText, if_neg (by exact hnot)]
    rfl
  case number hop => exact absurd ho (Memory.notMem_comparing hop)
  case commas => cases hv
  case like hw | ilike hw | contains hw => exact absurd hw hnot

/-- **The database binds what the evaluator compares with.**  The parameters of an accepted filter
    are those of its conditions, one by one.  Where a condition compares by text, by pattern, by
    choice or by containment, and its value can be written, its parameter can be bound, what is
    bound gives the comparison the same text or null, pattern, texts or document as the evaluator
    has, and of the value of the condition the evaluator looks at nothing else.  A value that
    cannot be written, for an integer with too many digits, is refused by both alike, and no
    document meets its condition. -/
theorem forall_operand {expression : Value} {start : Nat} {column : String} {compiled : Compiled}
    (h : compile expression start column = .ok compiled) :
    List.Forall₂ (fun c b =>
        c.operator ∈ comparing →
        (c.value.isWritable = true →
          ∃ x o, bind (some b.type) b.value = .ok x ∧ x.operand? c.operator = some o ∧
            Memory.operand? c = .ok (some o) ∧
            ∀ doc, matchCondition doc c = meets doc c.path c.operator o) ∧
        (c.value.isWritable = false →
          bind (some b.type) b.value = .error .intTooLong ∧
            Memory.operand? c = .error .intTooLong ∧
            ∀ doc, matchCondition doc c ≠ .ok true))
      ((leaves (ofValue expression)).filter Condition.takesValue) compiled.bindings := by
  obtain ⟨bs, hbs, rfl⟩ := (Filter.compile_eq_ok_iff column).1 h
  refine (Filter.parameters_binds hbs).imp fun c b hb ho => ⟨fun hv => ?_, fun hv => ?_⟩
  · obtain ⟨x, o, hx, hbound, hcompared⟩ := exists_operand hb ho hv
    exact ⟨x, o, hx, hbound, hcompared, Memory.matchCondition_eq_meets hcompared⟩
  · obtain ⟨hx, hcompared⟩ := bind_eq_error hb ho hv
    exact ⟨hx, hcompared, Memory.matchCondition_ne_true hb ho hv⟩

/-- A filter for shoes that are made in a size and are white or without a colour. -/
def shoes : Value :=
  .object [
    ("sizes", .object [("operator", .text "contains"), ("value", .list [.int 41])]),
    ("colour", .object [("operator", .text "in"), ("value", .list [.text "white", .null])])]

/-- The size is bound as a document, the colours as a text and a null. -/
theorem forall_operand_shoes :
    (∃ x o, bind (some .jsonb)
          (.text (Json.write Json.spaced (.object [("sizes", .list [.int 41])]))) = .ok x ∧
        x.operand? .contains = some o ∧
        ∀ doc, matchCondition doc ⟨"sizes", ["sizes"], .contains, .list [.int 41]⟩ =
          meets doc ["sizes"] .contains o) ∧
      ∃ x o, bind (some .textArray) (.list [.text "white", .null]) = .ok x ∧
        x.operand? .oneOf = some o ∧
        ∀ doc, matchCondition doc ⟨"colour", ["colour"], .oneOf, .list [.text "white", .null]⟩ =
          meets doc ["colour"] .oneOf o := by
  obtain ⟨hsizes, hmore⟩ :=
    List.forall₂_cons.1 (forall_operand (show compile shoes 1 "metadata" = .ok _ from rfl))
  obtain ⟨hcolour, -⟩ := List.forall₂_cons.1 hmore
  obtain ⟨x, o, hx, ho, -, hdoc⟩ := (hsizes (by decide)).1 (by decide)
  obtain ⟨x', o', hx', ho', -, hdoc'⟩ := (hcolour (by decide)).1 (by decide)
  exact ⟨⟨x, o, hx, ho, hdoc⟩, x', o', hx', ho', hdoc'⟩

end Postgres

end VectorStore
