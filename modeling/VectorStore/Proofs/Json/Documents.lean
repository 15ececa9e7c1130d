/-
  Documents are read as they are written.

  * `writeValue_cons`: a text of a value starts with neither white space nor a closing bracket,
    so that a list with items is told from an empty one;
  * `readItems_item` and `readFields_field`: an item or a field is read, and then the comma or the
    bracket behind it tells how to go on;
  * `readValue_writeValue`: by induction on the document its text is read, whatever follows it,
    as the document with its fields of one name put together (`merged`);
  * `exists_read_iff`: a document comes of a JSON text just if it is representable;
  * `textForm` is the text by which a document is compared, `encode_textForm` how it is made.
-/
import VectorStore.Proofs.Json.Numbers
import VectorStore.Proofs.Json.Representable
import VectorStore.Proofs.Json.Strings

namespace VectorStore.Json

open Number (DecimalParts Layout isDecimal isDecimal_cases natDigits signed_natAbs spell_cons)

/-! ## Scalars -/

variable {fuel : ℕ} {rest : List Char}

/-- A number is read after its sign, if it has one. -/
theorem readValue_decimal {c : Char} (h : isDecimal c = true) (negative : Bool) (cs : List Char) :
    readValue (fuel + 1) (if negative then '-' :: c :: cs else c :: cs) =
      readUnsigned negative (c :: cs) := by
  have hc := isDecimal_cases h
  simp only [List.mem_cons, List.not_mem_nil, or_false] at hc
  cases negative <;>
    rcases hc with rfl | rfl | rfl | rfl | rfl | rfl | rfl | rfl | rfl | rfl <;> rfl

/-- **A double is read as it is written.** -/
theorem readValue_float (x : Float) (hr : Ends rest) :
    readValue (fuel + 1) (Number.json.writeChars x ++ rest) = .ok (.float x, rest) := by
  rcases hx : Number.Binary.ofFloat x with _ | negative | ⟨negative, m, e⟩
  · rw [Layout.writeChars, hx, Number.ofFloat_nan hx]
    rfl
  · rw [Layout.writeChars, hx, Number.ofFloat_infinite hx]
    cases negative <;> rfl
  · obtain ⟨p, hp, hvalue, hchars⟩ := Number.exists_parts (l := Number.json) (by decide) hx
    obtain ⟨c, cs, hc, hdecimal⟩ := spell_cons (l := Number.json) hp
    have hread : readUnsigned negative (Number.json.spell p ++ rest) =
        .ok (.float (p.toFloat negative), rest) := readUnsigned_spell hp hr
    rw [hc, List.cons_append] at hread
    have hsplit : (if negative then '-' :: c :: cs else c :: cs) ++ rest =
        if negative then '-' :: c :: (cs ++ rest) else c :: (cs ++ rest) := by
      cases negative <;> rfl
    rw [hchars, hc, hsplit, readValue_decimal hdecimal, hread, hvalue]

/-- **An integer is read as it is written.** -/
theorem readValue_int {n : ℤ} (hn : (natDigits n.natAbs).length ≤ Number.maxIntDigits)
    (hr : Ends rest) :
    readValue (fuel + 1) (Number.intDigits n ++ rest) = .ok (.int n, rest) := by
  have hread : readUnsigned (decide (n < 0)) (natDigits n.natAbs ++ rest) = .ok (.int n, rest) := by
    rw [readUnsigned_natDigits hn hr, signed_natAbs]
  obtain ⟨c, cs, hc⟩ : ∃ c cs, natDigits n.natAbs = c :: cs :=
    List.exists_cons_of_ne_nil Nat.toDigits_ne_nil
  have hdecimal : isDecimal c = true :=
    Number.isDecimal_of_mem_natDigits (hc ▸ List.mem_cons_self ..)
  have hsign : Number.intDigits n ++ rest =
      if decide (n < 0) then '-' :: c :: (cs ++ rest) else c :: (cs ++ rest) := by
    rw [Number.intDigits, hc]
    by_cases h : n < 0 <;> simp [h]
  rw [hc, List.cons_append] at hread
  rw [hsign, readValue_decimal hdecimal, hread]

/-! ## Values -/

theorem skipSpace_of_not {c : Char} (h : isSpace c = false) (cs : List Char) :
    skipSpace (c :: cs) = c :: cs := by
  rw [skipSpace, List.dropWhile_cons_of_neg (by simp [h])]

/-- White space in front of a value is skipped. -/
theorem readValue_space (fuel : ℕ) (cs : List Char) :
    readValue fuel (' ' :: cs) = readValue fuel cs := by
  cases fuel with
  | zero => rfl
  | succ fuel =>
    have h : skipSpace (' ' :: cs) = skipSpace cs := rfl
    rw [readValue.eq_def, readValue.eq_def (fuel + 1) cs]
    dsimp only
    rw [h]

theorem readItems_space (fuel : ℕ) (cs : List Char) :
    readItems fuel (' ' :: cs) = readItems fuel cs := by
  cases fuel with
  | zero => rfl
  | succ fuel => rw [readItems, readItems, readValue_space]

/-- A text of a value starts with no white space, and not as if a list ended. -/
theorem writeValue_cons (style : Style) (v : Value) :
    ∃ c cs, writeValue style v = c :: cs ∧ isSpace c = false ∧ c ≠ ']' := by
  have hdecimal {c : Char} (h : isDecimal c = true) : isSpace c = false ∧ c ≠ ']' := by
    have hc := isDecimal_cases h
    simp only [List.mem_cons, List.not_mem_nil, or_false] at hc
    rcases hc with rfl | rfl | rfl | rfl | rfl | rfl | rfl | rfl | rfl | rfl <;> decide
  cases v with
  | null => exact ⟨_, _, rfl, by decide, by decide⟩
  | bool b => cases b <;> exact ⟨_, _, rfl, by decide, by decide⟩
  | int n =>
    rw [writeValue, Number.intDigits]
    split
    · exact ⟨_, _, rfl, by decide, by decide⟩
    · obtain ⟨c, cs, hc⟩ : ∃ c cs, natDigits n.natAbs = c :: cs :=
        List.exists_cons_of_ne_nil Nat.toDigits_ne_nil
      exact ⟨c, cs, hc, hdecimal (Number.isDecimal_of_mem_natDigits (hc ▸ List.mem_cons_self ..))⟩
  | float x =>
    rw [writeValue]
    rcases hx : Number.Binary.ofFloat x with _ | negative | ⟨negative, m, e⟩
    · rw [Layout.writeChars, hx]
      exact ⟨_, _, rfl, by decide, by decide⟩
    · rw [Layout.writeChars, hx]
      cases negative <;> exact ⟨_, _, rfl, by decide, by decide⟩
    · obtain ⟨p, hp, -, hchars⟩ := Number.exists_parts (l := Number.json) (by decide) hx
      obtain ⟨c, cs, hc, hd⟩ := spell_cons (l := Number.json) hp
      rw [hchars]
      cases negative
      · exact ⟨c, cs, hc, hdecimal hd⟩
      · exact ⟨_, _, rfl, by decide, by decide⟩
  | text s => exact ⟨_, _, rfl, by decide, by decide⟩
  | list items => exact ⟨_, _, rfl, by decide, by decide⟩
  | object fields => exact ⟨_, _, rfl, by decide, by decide⟩

/-- Fields with other names go to the end as they are. -/
theorem putAll_of_nodup {more : Fields} : ∀ {fields : Fields},
    (Fields.keys (fields ++ more)).Nodup → Fields.putAll fields more = fields ++ more := by
  induction more with
  | nil =>
    intro fields _
    exact (List.append_nil fields).symm
  | cons f more ih =>
    intro fields h
    have hnew : Fields.get? fields f.1 = none := by
      rw [Fields.get?_eq_none_iff]
      rw [Fields.keys, List.map_append, List.map_cons, List.nodup_append] at h
      intro hmem
      exact h.2.2 _ hmem _ (List.mem_cons_self ..) rfl
    have hput := Fields.put_of_get?_eq_none hnew f.2
    rw [Fields.putAll, List.foldl_cons, hput, ← Fields.putAll, ih]
    · simp
    · simpa using h

/-- What opens with a bracket is a list. -/
theorem readValue_bracket (cs : List Char) : readValue (fuel + 1) ('[' :: cs) =
    match skipSpace cs with
    | ']' :: rest => .ok (.list [], rest)
    | rest => (readItems fuel rest).bind fun r => .ok (.list r.1, r.2) := rfl

/-- A list that is not empty is read from its first item on. -/
theorem readValue_list {c : Char} (hspace : isSpace c = false) (hc : c ≠ ']') (cs : List Char) :
    readValue (fuel + 1) ('[' :: c :: cs) =
      (readItems fuel (c :: cs)).bind fun r => .ok (.list r.1, r.2) := by
  rw [readValue_bracket, skipSpace_of_not hspace]
  split
  · next h => exact absurd (List.cons.inj h).1 hc
  · rfl

/-- An item is read with what follows it. -/
theorem readItems_item {v : Value} {cs after : List Char}
    (h : readValue fuel cs = .ok (v, after)) :
    readItems (fuel + 1) cs = match skipSpace after with
      | ']' :: rest => .ok ([v], rest)
      | ',' :: rest => (readItems fuel rest).bind fun r => .ok (v :: r.1, r.2)
      | _ => .error .malformed := by
  rw [readItems, h]
  rfl

/-- What opens with a quote is a field: its name, a colon and its value. -/
theorem readFields_quote (cs : List Char) : readFields (fuel + 1) ('\x22' :: cs) =
    (readString cs).bind fun r =>
      match skipSpace r.2 with
      | ':' :: rest => (readValue fuel rest).bind fun r' =>
        match skipSpace r'.2 with
        | '\x7d' :: rest => .ok ([(r.1, r'.1)], rest)
        | ',' :: rest => (readFields fuel rest).bind fun r'' => .ok ((r.1, r'.1) :: r''.1, r''.2)
        | _ => .error .malformed
      | _ => .error .malformed := rfl

/-- A field is read with what follows it. -/
theorem readFields_field {name : String} {v : Value} {cs cs' after : List Char}
    (hname : readString cs = .ok (name, ':' :: ' ' :: cs'))
    (h : readValue fuel cs' = .ok (v, after)) :
    readFields (fuel + 1) ('\x22' :: cs) = match skipSpace after with
      | '\x7d' :: rest => .ok ([(name, v)], rest)
      | ',' :: rest => (readFields fuel rest).bind fun r => .ok ((name, v) :: r.1, r.2)
      | _ => .error .malformed := by
  have hcolon : skipSpace (':' :: ' ' :: cs') = ':' :: ' ' :: cs' := rfl
  rw [readFields_quote, hname, Except.bind]
  dsimp only
  rw [hcolon]
  change (readValue fuel (' ' :: cs')).bind _ = _
  rw [readValue_space, h]
  rfl

theorem readFields_space (fuel : ℕ) (cs : List Char) :
    readFields fuel (' ' :: cs) = readFields fuel cs := by
  cases fuel with
  | zero => rfl
  | succ fuel =>
    have h : skipSpace (' ' :: cs) = skipSpace cs := rfl
    rw [readFields.eq_def, readFields.eq_def (fuel + 1) cs]
    dsimp only
    rw [h]

/-- A text of an item stands in front of a text of several. -/
theorem writeItems_cons (v w : Value) (items : List Value) :
    writeItems spaced (v :: w :: items) =
      writeValue spaced v ++ ',' :: ' ' :: writeItems spaced (w :: items) := rfl

theorem writeItems_head (v : Value) (items : List Value) :
    ∃ cs, writeItems spaced (v :: items) = writeValue spaced v ++ cs := by
  cases items with
  | nil => exact ⟨[], (List.append_nil _).symm⟩
  | cons w items => exact ⟨_, writeItems_cons v w items⟩

/-- A text of a field stands in front of a text of several. -/
theorem writeFields_cons (name : String) (v : Value) (f : String × Value) (fields : Fields) :
    writeFields spaced ((name, v) :: f :: fields) = writeString true name ++
      ':' :: ' ' :: (writeValue spaced v ++ ',' :: ' ' :: writeFields spaced (f :: fields)) := rfl

theorem writeFields_head (f : String × Value) (fields : Fields) :
    ∃ cs, writeFields spaced (f :: fields) = '\x22' :: cs := by
  cases fields with
  | nil => exact ⟨_, rfl⟩
  | cons g fields => exact ⟨_, rfl⟩

mutual

/-- The document with fields of one name put together, in every object: the last value counts, in
    the place of the first. -/
def merged : Value → Value
  | .list items => .list (mergedItems items)
  | .object fields => .object (Fields.putAll [] (mergedFields fields))
  | v => v

/-- The items with the fields of one name put together. -/
def mergedItems : List Value → List Value
  | [] => []
  | v :: items => merged v :: mergedItems items

/-- The fields with those of one name put together in their values. -/
def mergedFields : List (String × Value) → List (String × Value)
  | [] => []
  | (name, v) :: fields => (name, merged v) :: mergedFields fields

end

theorem keys_mergedFields : ∀ fields : Fields,
    Fields.keys (mergedFields fields) = Fields.keys fields
  | [] => rfl
  | (name, _) :: fields => congrArg (name :: ·) (keys_mergedFields fields)

mutual

/-- Where no two fields have one name, there is nothing to put together. -/
theorem merged_of_isRepresentable : ∀ {v : Value}, isRepresentable v = true → merged v = v
  | .list items, h => by
    rw [isRepresentable] at h
    rw [merged, mergedItems_of_areRepresentable h]
  | .object fields, h => by
    rw [isRepresentable, Bool.and_eq_true, decide_eq_true_iff] at h
    have hput : Fields.putAll [] fields = fields := putAll_of_nodup h.1
    rw [merged, mergedFields_of_areRepresentable h.2, hput]
  | .null, _ | .bool _, _ | .int _, _ | .float _, _ | .text _, _ => rfl

theorem mergedItems_of_areRepresentable : ∀ {items : List Value},
    areRepresentable items = true → mergedItems items = items
  | [], _ => rfl
  | v :: items, h => by
    rw [areRepresentable, Bool.and_eq_true] at h
    rw [mergedItems, merged_of_isRepresentable h.1, mergedItems_of_areRepresentable h.2]

theorem mergedFields_of_areRepresentable : ∀ {fields : Fields},
    areRepresentableFields fields = true → mergedFields fields = fields
  | [], _ => rfl
  | (name, v) :: fields, h => by
    rw [areRepresentableFields, Bool.and_eq_true] at h
    rw [mergedFields, merged_of_isRepresentable h.1, mergedFields_of_areRepresentable h.2]

end

mutual

/-- **A value is read as it is written**, whatever follows it. -/
theorem readValue_writeValue : ∀ {v : Value} {fuel : ℕ} {rest : List Char},
    v.isWritable = true → 2 * (writeValue spaced v).length ≤ fuel → Ends rest →
      readValue fuel (writeValue spaced v ++ rest) = .ok (merged v, rest)
  | v, 0, rest, _, hfuel, _ => by
    obtain ⟨c, cs, hc, -⟩ := writeValue_cons spaced v
    rw [hc, List.length_cons] at hfuel
    omega
  | .null, fuel + 1, rest, _, _, _ => rfl
  | .bool b, fuel + 1, rest, _, _, _ => by cases b <;> rfl
  | .int n, fuel + 1, rest, hv, _, hr => readValue_int (by simpa [Value.isWritable] using hv) hr
  | .float x, fuel + 1, rest, _, _, hr => readValue_float x hr
  | .text s, fuel + 1, rest, _, _, _ => by
    obtain ⟨cs, hcs, hread⟩ := readString_writeString true s rest
    have hvalue : readValue (fuel + 1) ('\x22' :: cs) =
        (readString cs).bind fun r => .ok (.text r.1, r.2) := rfl
    rw [writeValue, show spaced.asciiOnly = true from rfl, hcs, hvalue, hread]
    rfl
  | .list [], fuel + 1, rest, _, _, _ => rfl
  | .list (v :: items), fuel + 1, rest, hv, hfuel, _ => by
    rw [Value.isWritable] at hv
    rw [writeValue, List.length_cons, List.length_append, List.length_singleton] at hfuel
    obtain ⟨after, hafter⟩ := writeItems_head v items
    obtain ⟨c, cs, hc, hspace, hclose⟩ := writeValue_cons spaced v
    have hread : readItems fuel (writeItems spaced (v :: items) ++ ']' :: rest) =
        .ok (mergedItems (v :: items), rest) :=
      readItems_writeItems (List.cons_ne_nil v items) hv (by omega)
    have hstart : writeItems spaced (v :: items) ++ ']' :: rest =
        c :: (cs ++ after ++ ']' :: rest) := by
      rw [hafter, hc]
      rfl
    have htext : writeValue spaced (.list (v :: items)) ++ rest =
        '[' :: c :: (cs ++ after ++ ']' :: rest) := by
      rw [writeValue, List.cons_append, List.append_assoc, ← hstart]
      rfl
    rw [htext, readValue_list hspace hclose, ← hstart, hread]
    rfl
  | .object [], fuel + 1, rest, _, _, _ => rfl
  | .object (f :: fields), fuel + 1, rest, hv, hfuel, _ => by
    rw [Value.isWritable] at hv
    rw [writeValue, List.length_cons, List.length_append, List.length_singleton] at hfuel
    have hread : readFields fuel (writeFields spaced (f :: fields) ++ '\x7d' :: rest) =
        .ok (mergedFields (f :: fields), rest) :=
      readFields_writeFields (List.cons_ne_nil f fields) hv (by omega)
    obtain ⟨cs, hcs⟩ := writeFields_head f fields
    have hvalue : readValue (fuel + 1) ('\x7b' :: '\x22' :: (cs ++ '\x7d' :: rest)) =
        (readFields fuel ('\x22' :: (cs ++ '\x7d' :: rest))).bind fun r =>
          .ok (.object (Fields.putAll [] r.1), r.2) := rfl
    rw [hcs, List.cons_append] at hread
    rw [writeValue, List.cons_append, List.append_assoc, List.singleton_append, hcs,
      List.cons_append, hvalue, hread, Except.bind, merged]

/-- The items of a list are read as they are written, with the bracket that ends them. -/
theorem readItems_writeItems : ∀ {items : List Value} {fuel : ℕ} {rest : List Char}, items ≠ [] →
    Value.areWritable items = true → 2 * (writeItems spaced items).length < fuel →
      readItems fuel (writeItems spaced items ++ ']' :: rest) = .ok (mergedItems items, rest)
  | [], _, _, hne, _, _ => absurd rfl hne
  | [v], fuel + 1, rest, _, hv, hfuel => by
    rw [Value.areWritable, Bool.and_eq_true] at hv
    rw [writeItems] at hfuel ⊢
    have hread : readValue fuel (writeValue spaced v ++ ']' :: rest) =
        .ok (merged v, ']' :: rest) :=
      readValue_writeValue hv.1 (by omega) (ends_cons (by simp) rest)
    rw [readItems_item hread]
    rfl
  | v :: w :: items, fuel + 1, rest, _, hv, hfuel => by
    rw [Value.areWritable, Bool.and_eq_true] at hv
    rw [writeItems_cons, List.length_append, List.length_cons, List.length_cons] at hfuel
    obtain ⟨more, hmore⟩ : ∃ more, writeItems spaced (w :: items) ++ ']' :: rest = more := ⟨_, rfl⟩
    have hread : readValue fuel (writeValue spaced v ++ ',' :: ' ' :: more) =
        .ok (merged v, ',' :: ' ' :: more) :=
      readValue_writeValue hv.1 (by omega) (ends_cons (by simp) (' ' :: more))
    have hitems : readItems fuel more = .ok (mergedItems (w :: items), rest) :=
      hmore ▸ readItems_writeItems (List.cons_ne_nil w items) hv.2 (by omega)
    have hnext : skipSpace (',' :: ' ' :: more) = ',' :: ' ' :: more := rfl
    rw [writeItems_cons, List.append_assoc, List.cons_append, List.cons_append, hmore,
      readItems_item hread, hnext]
    change (readItems fuel (' ' :: more)).bind _ = _
    rw [readItems_space, hitems]
    rfl

/-- The fields of an object are read as they are written, with the brace that ends them. -/
theorem readFields_writeFields : ∀ {fields : Fields} {fuel : ℕ} {rest : List Char}, fields ≠ [] →
    Value.areWritableFields fields = true → 2 * (writeFields spaced fields).length < fuel →
      readFields fuel (writeFields spaced fields ++ '\x7d' :: rest) =
        .ok (mergedFields fields, rest)
  | [], _, _, hne, _, _ => absurd rfl hne
  | [(name, v)], fuel + 1, rest, _, hv, hfuel => by
    rw [Value.areWritableFields, Bool.and_eq_true] at hv
    have htext : writeFields spaced [(name, v)] =
        writeString true name ++ ':' :: ' ' :: writeValue spaced v := rfl
    rw [htext, List.length_append, List.length_cons, List.length_cons] at hfuel
    have hread : readValue fuel (writeValue spaced v ++ '\x7d' :: rest) =
        .ok (merged v, '\x7d' :: rest) :=
      readValue_writeValue hv.1 (by omega) (ends_cons (by simp) rest)
    obtain ⟨cs, hcs, hname⟩ := readString_writeString true name
      (':' :: ' ' :: (writeValue spaced v ++ '\x7d' :: rest))
    rw [htext, List.append_assoc, List.cons_append, List.cons_append, hcs,
      readFields_field hname hread]
    rfl
  | (name, v) :: f :: fields, fuel + 1, rest, _, hv, hfuel => by
    rw [Value.areWritableFields, Bool.and_eq_true] at hv
    rw [writeFields_cons] at hfuel ⊢
    simp only [List.length_append, List.length_cons] at hfuel
    obtain ⟨more, hmore⟩ : ∃ more, writeFields spaced (f :: fields) ++ '\x7d' :: rest = more :=
      ⟨_, rfl⟩
    have hread : readValue fuel (writeValue spaced v ++ ',' :: ' ' :: more) =
        .ok (merged v, ',' :: ' ' :: more) :=
      readValue_writeValue hv.1 (by omega) (ends_cons (by simp) (' ' :: more))
    have hfields : readFields fuel more = .ok (mergedFields (f :: fields), rest) :=
      hmore ▸ readFields_writeFields (List.cons_ne_nil f fields) hv.2 (by omega)
    have hnext : skipSpace (',' :: ' ' :: more) = ',' :: ' ' :: more := rfl
    obtain ⟨cs, hcs, hname⟩ := readString_writeString true name
      (':' :: ' ' :: (writeValue spaced v ++ ',' :: ' ' :: more))
    simp only [List.append_assoc, List.cons_append]
    rw [hmore, hcs, readFields_field hname hread, hnext]
    change (readFields fuel (' ' :: more)).bind _ = _
    rw [readFields_space, hfields]
    rfl

end

/-- **A document is read from the text that is written for it**, its fields of one name put
    together. -/
theorem read_write_merged {v : Value} (h : v.isWritable = true) :
    read (write spaced v) = .ok (merged v) := by
  have hread : readValue (2 * (writeValue spaced v).length + 2) (writeValue spaced v ++ []) =
      .ok (merged v, []) := readValue_writeValue h (by omega) ends_nil
  have htext : (write spaced v).toList = writeValue spaced v := String.toList_ofList
  rw [List.append_nil] at hread
  rw [read, htext]
  dsimp only
  rw [hread]
  rfl

/-- **A document is read from the text that is written for it.** -/
theorem read_write {v : Value} (h : isRepresentable v = true) : read (write spaced v) = .ok v := by
  rw [read_write_merged (isWritable_of_isRepresentable h), merged_of_isRepresentable h]

/-- **A document comes of a JSON text just if it is representable.** -/
theorem exists_read_iff {v : Value} : (∃ s, read s = .ok v) ↔ isRepresentable v = true := by
  constructor
  · rintro ⟨s, hs⟩
    exact isRepresentable_read hs
  · intro h
    exact ⟨_, read_write h⟩

/-- A document that can be written can be read back. -/
theorem decode_encode (v : Value) : (encode spaced v).bind decode =
    if v.isWritable then .ok (merged v) else .error .intTooLong := by
  rw [encode]
  split
  · next h =>
    rw [Except.bind, decode, read_write_merged h]
    rfl
  · rfl

/-! ## Texts of documents -/

/-- The text by which a document is compared: a text is itself, null has none, and anything else is
    its JSON text. -/
def textForm : Value → Option String
  | .null => none
  | .text s => some s
  | v => some (write spaced v)

theorem isNone_textForm (v : Value) : (textForm v).isNone = v.isNull := by
  cases v <;> rfl

/-- The text form of what is neither null nor a text is made by writing it. -/
theorem encode_textForm {v : Value} (h : textForm v = some (write spaced v)) :
    (encode spaced v).map some =
      if v.isWritable then .ok (textForm v) else .error .intTooLong := by
  rw [encode, h]
  split <;> rfl

end VectorStore.Json
