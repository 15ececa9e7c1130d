/-
  Lines of JSON.

  * `printable_writeValue`: a JSON text without other than ASCII characters is printable, whatever
    the document;
  * `splitOn_lines`: texts without line feeds are the pieces of their lines;
  * `ndjson_lossless`: so the records of a body are found again, line by line.
-/
import VectorStore.Proofs.Json.Documents
import VectorStore.Vectorize.Store

namespace VectorStore

namespace Json

open Number (DecimalParts Layout isDecimal isDecimal_cases natDigits)

/-! ## Printable texts -/

/-- Whether a character is a printable one of ASCII. -/
def isPrintable (c : Char) : Bool := 32 ≤ c.toNat && c.toNat < 127

/-- All characters are printable ones of ASCII, so there is no line feed. -/
def Printable (cs : List Char) : Prop := ∀ c ∈ cs, isPrintable c = true

instance (cs : List Char) : Decidable (Printable cs) :=
  decidable_of_iff (cs.all isPrintable = true) List.all_eq_true

theorem printable_cons {c : Char} {cs : List Char} :
    Printable (c :: cs) ↔ isPrintable c = true ∧ Printable cs := List.forall_mem_cons

theorem printable_append {a b : List Char} : Printable (a ++ b) ↔ Printable a ∧ Printable b :=
  List.forall_mem_append

/-! ## Numbers -/

theorem printable_of_isDecimal {cs : List Char} (h : ∀ c ∈ cs, isDecimal c = true) :
    Printable cs := by
  have hall : Printable ['0', '1', '2', '3', '4', '5', '6', '7', '8', '9'] := by decide
  exact fun c hc => hall c (isDecimal_cases (h c hc))

theorem printable_intDigits (n : ℤ) : Printable (Number.intDigits n) := by
  have hdigits : Printable (natDigits n.natAbs) :=
    printable_of_isDecimal fun c => Number.isDecimal_of_mem_natDigits
  rw [Number.intDigits]
  split
  · exact printable_cons.2 ⟨by decide, hdigits⟩
  · exact hdigits

theorem printable_spell {l : Layout} {p : DecimalParts} (hp : p.Sound) :
    Printable (l.spell p) := by
  have hall : Printable Number.alphabet := by decide
  exact fun c hc => hall c (Number.mem_alphabet_of_mem_spell hp hc)

theorem printable_float (x : Float) : Printable (Number.json.writeChars x) := by
  rcases hx : Number.Binary.ofFloat x with _ | negative | ⟨negative, m, e⟩
  · rw [Layout.writeChars, hx]
    decide
  · rw [Layout.writeChars, hx]
    cases negative <;> decide
  · obtain ⟨p, hp, -, hchars⟩ := Number.exists_parts (l := Number.json) (by decide) hx
    rw [hchars]
    split
    · exact printable_cons.2 ⟨by decide, printable_spell hp⟩
    · exact printable_spell hp

/-! ## Strings -/

theorem printable_hex (width n : ℕ) : Printable (Text.hex width n) := by
  have hdigit : ∀ d < 16, isPrintable (Nat.digitChar d) = true := by decide
  induction width generalizing n with
  | zero => exact nofun
  | succ width ih =>
    refine printable_append.2 ⟨ih _, printable_cons.2 ⟨hdigit _ (Nat.mod_lt n (by decide)), ?_⟩⟩
    exact nofun

theorem printable_unitEscape (n : ℕ) : Printable (unitEscape n) :=
  printable_cons.2 ⟨by decide, printable_cons.2 ⟨by decide, printable_hex 4 n⟩⟩

theorem printable_escaped (c : Char) : Printable (escaped c) := by
  unfold escaped
  extract_lets n
  split
  · exact printable_unitEscape _
  · exact printable_append.2 ⟨printable_unitEscape _, printable_unitEscape _⟩

/-- **No character is written as a line feed**, or as another that is not printable. -/
theorem printable_writeChar (c : Char) : Printable (writeChar true c) := by
  have hshort : ∀ p ∈ shortEscapes, Printable ['\\', p.2] := by
    simp only [shortEscapes, List.forall_mem_cons]
    exact ⟨by decide, by decide, by decide, by decide, by decide, by decide, by decide,
      List.forall_mem_nil _⟩
  rcases writeChar_cases true c with ⟨d, hd, hwrite⟩ | hwrite |
    ⟨hwrite, -, -, hlow, hhigh⟩
  · rw [hwrite]
    exact hshort _ hd
  · rw [hwrite]
    exact printable_escaped c
  · rw [hwrite]
    refine printable_cons.2 ⟨?_, List.forall_mem_nil _⟩
    rw [isPrintable, Bool.and_eq_true, decide_eq_true_eq, decide_eq_true_eq]
    exact ⟨hlow, hhigh rfl⟩

theorem printable_writeString (s : String) : Printable (writeString true s) := by
  have hchars : Printable (s.toList.flatMap (writeChar true)) := by
    intro c hc
    obtain ⟨d, -, hd⟩ := List.mem_flatMap.1 hc
    exact printable_writeChar d c hd
  exact printable_cons.2 ⟨by decide, printable_append.2 ⟨hchars, by decide⟩⟩

/-! ## Documents -/

mutual

/-- **A document is written in printable characters of ASCII.** -/
theorem printable_writeValue : ∀ v : Value, Printable (writeValue spaced v)
  | .null => by decide
  | .bool b => by cases b <;> decide
  | .int n => printable_intDigits n
  | .float x => printable_float x
  | .text s => printable_writeString s
  | .list items =>
    printable_cons.2 ⟨by decide, printable_append.2 ⟨printable_writeItems items, by decide⟩⟩
  | .object fields =>
    printable_cons.2 ⟨by decide, printable_append.2 ⟨printable_writeFields fields, by decide⟩⟩

theorem printable_writeItems : ∀ items : List Value, Printable (writeItems spaced items)
  | [] => nofun
  | [v] => printable_writeValue v
  | v :: w :: items =>
    printable_append.2 ⟨printable_writeValue v,
      printable_append.2 ⟨by decide, printable_writeItems (w :: items)⟩⟩

theorem printable_writeFields : ∀ fields : Fields, Printable (writeFields spaced fields)
  | [] => nofun
  | [(name, v)] =>
    printable_append.2 ⟨printable_writeString name,
      printable_append.2 ⟨by decide, printable_writeValue v⟩⟩
  | (name, v) :: f :: fields =>
    printable_append.2 ⟨printable_writeString name, printable_append.2 ⟨by decide,
      printable_append.2 ⟨printable_writeValue v,
        printable_append.2 ⟨by decide, printable_writeFields (f :: fields)⟩⟩⟩⟩

end

/-! ## Lines -/

theorem Printable.lineFeed_notMem {cs : List Char} (h : Printable cs) : '\n' ∉ cs := fun hmem => by
  have : isPrintable '\n' = false := by decide
  rw [h _ hmem] at this
  cases this

variable {texts : List (List Char)}

/-- **Texts without line feeds are found again at the line feeds**; nothing follows the last one. -/
theorem splitOn_lines (h : ∀ text ∈ texts, Printable text) :
    (texts.flatMap (· ++ ['\n'])).splitOn '\n' = texts ++ [[]] := by
  induction texts with
  | nil => rfl
  | cons text texts ih =>
    obtain ⟨htext, htexts⟩ := List.forall_mem_cons.1 h
    rw [List.flatMap_cons, List.append_assoc, List.singleton_append,
      List.splitOn_append_cons_self_of_not_mem htext.lineFeed_notMem, ih htexts, List.cons_append]

theorem count_lines (h : ∀ text ∈ texts, Printable text) :
    (texts.flatMap (· ++ ['\n'])).count '\n' = texts.length := by
  induction texts with
  | nil => rfl
  | cons text texts ih =>
    obtain ⟨htext, htexts⟩ := List.forall_mem_cons.1 h
    rw [List.flatMap_cons, List.count_append, List.count_append,
      List.count_eq_zero.2 htext.lineFeed_notMem, ih htexts, List.length_cons,
      List.count_singleton_self]
    omega

theorem ascii_lines (h : ∀ text ∈ texts, Printable text) :
    ∀ c ∈ texts.flatMap (· ++ ['\n']), c.toNat < 128 := by
  intro c hc
  obtain ⟨text, htext, hc⟩ := List.mem_flatMap.1 hc
  rcases List.mem_append.1 hc with hc | hc
  · have hprintable := h text htext c hc
    rw [isPrintable, Bool.and_eq_true, decide_eq_true_eq, decide_eq_true_eq] at hprintable
    omega
  · rw [List.mem_singleton.1 hc]
    decide

theorem getLast?_lines (h : texts ≠ []) :
    (texts.flatMap (· ++ ['\n'])).getLast? = some '\n' := by
  obtain ⟨front, text, rfl⟩ := List.eq_nil_or_concat texts |>.resolve_left h
  simp [List.flatMap_append, List.getLast?_append]

end Json

namespace Vectorize

/-- Where all lines have a text, the body has them with a line feed behind each. -/
theorem ndjson_eq_ok {lines : List Line} (hne : lines ≠ [])
    (h : ∀ l ∈ lines, l.toValue.isWritable = true) :
    ndjson lines = .ok (String.ofList
      ((lines.map fun l => Json.writeValue Json.spaced l.toValue).flatMap (· ++ ['\n']))) := by
  have hall : lines.all (fun l => l.toValue.isWritable) = true := List.all_eq_true.2 h
  have htexts : lines.mapM Line.text =
      .ok (lines.map fun l => Json.write Json.spaced l.toValue) := by
    rw [mapM_checked (f := Line.text) (fun _ => rfl), hall]
    rfl
  have hjoin {texts : List String} (ht : texts ≠ []) :
      joinLines texts = String.ofList (texts.flatMap fun s => s.toList ++ ['\n']) := by
    obtain ⟨s, texts, rfl⟩ := List.exists_cons_of_ne_nil ht
    rfl
  rw [ndjson, htexts]
  show Except.ok (joinLines _) = _
  rw [hjoin (by simpa using hne), List.flatMap_map, List.flatMap_map]
  simp only [Json.write, String.toList_ofList]
  rfl

/-- The object of a record's line has a text if its metadata have one. -/
theorem isWritable_lineOf {r : Record} (h : (Value.object r.metadata).isWritable = true) :
    (lineOf r).toValue.isWritable = true := by
  have hvalues : Value.areWritable (r.vector.map .float) = true := by
    rw [Value.areWritable_eq_all, List.all_map]
    exact List.all_eq_true.2 fun _ _ => rfl
  show (true && (Value.areWritable (r.vector.map .float) &&
    ((Value.object r.metadata).isWritable && true))) = true
  rw [hvalues, h]
  rfl

/-- The object of a record's line is representable if its metadata are. -/
theorem isRepresentable_lineOf {r : Record}
    (h : Json.isRepresentable (.object r.metadata) = true) :
    Json.isRepresentable (lineOf r).toValue = true := by
  have hvalues : Json.isRepresentable (.list (r.vector.map .float)) = true := by
    refine Json.areRepresentable_iff.2 fun v hv => ?_
    obtain ⟨x, -, rfl⟩ := List.mem_map.1 hv
    rfl
  have hkeys : ["id", "values", "metadata"].Nodup := by decide
  refine Json.isRepresentable_object.2 ⟨hkeys, ?_⟩
  simp only [List.forall_mem_cons]
  exact ⟨rfl, hvalues, h, nofun⟩

/-- **The records of a body are found again.**  Whatever the ids, the vectors and the metadata of
    some records are, if only their metadata can be held by a JSON text: the body sent for them is
    ASCII, and has one line feed for each record, the last one at its end.  What stands between the
    line feeds are texts, one for each record in their order, and what is read from such a text is
    the object with the id, the values and the metadata of the record. -/
theorem ndjson_lossless (records : List Record) (hne : records ≠ [])
    (h : ∀ r ∈ records, Json.isRepresentable (.object r.metadata) = true) :
    ∃ body, ndjson (records.map lineOf) = .ok body ∧
      (∀ c ∈ body.toList, c.toNat < 128) ∧ body.toList.getLast? = some '\n' ∧
      body.toList.count '\n' = records.length ∧
      ∃ texts : List String, body.toList.splitOn '\n' = texts.map String.toList ++ [[]] ∧
        List.Forall₂ (fun r text => Json.read text = .ok (.object
          [("id", .text r.id), ("values", .list (r.vector.map .float)),
            ("metadata", .object r.metadata)])) records texts := by
  obtain ⟨texts, htexts⟩ : ∃ texts, texts =
      (records.map lineOf).map (fun l => Json.writeValue Json.spaced l.toValue) := ⟨_, rfl⟩
  have hwritable : ∀ l ∈ records.map lineOf, l.toValue.isWritable = true := by
    intro l hl
    obtain ⟨r, hr, rfl⟩ := List.mem_map.1 hl
    exact isWritable_lineOf (Json.isWritable_of_isRepresentable (h r hr))
  have hlines : records.map lineOf ≠ [] := by simpa using hne
  have hprintable : ∀ text ∈ texts, Json.Printable text := by
    intro text htext
    rw [htexts] at htext
    obtain ⟨l, -, rfl⟩ := List.mem_map.1 htext
    exact Json.printable_writeValue l.toValue
  have hlength : texts.length = records.length := by simp [htexts]
  refine ⟨_, ndjson_eq_ok hlines hwritable, ?_⟩
  rw [← htexts, String.toList_ofList]
  refine ⟨Json.ascii_lines hprintable, ?_, hlength ▸ Json.count_lines hprintable,
    texts.map String.ofList, ?_, ?_⟩
  · exact Json.getLast?_lines (List.ne_nil_of_length_pos (hlength ▸ List.length_pos_iff.2 hne))
  · have hlists : (texts.map String.ofList).map String.toList = texts := by
      simp [Function.comp_def]
    rw [Json.splitOn_lines hprintable, hlists]
  · rw [htexts, List.forall₂_map_right_iff, List.forall₂_map_right_iff, List.forall₂_map_right_iff,
      List.forall₂_same]
    exact fun r hr => Json.read_write (isRepresentable_lineOf (h r hr))

/-- A record with line breaks, quotes and characters beyond ASCII, and one without metadata. -/
def brokenRecords : List Record :=
  [⟨"a\nb", [0.5, -2.0], [("say \"\r\n\"", .list [.text "\\ 😀 \t", .null, .int 7])]⟩,
    ⟨"é", [], []⟩]

/-- Both are found again. -/
theorem ndjson_lossless_broken : ∃ body first second : String,
    ndjson (brokenRecords.map lineOf) = .ok body ∧
    body.toList.splitOn '\n' = [first.toList, second.toList, []] ∧
    Json.read first = .ok (.object [("id", .text "a\nb"),
      ("values", .list [.float 0.5, .float (-2.0)]), ("metadata", .object [("say \"\r\n\"",
        .list [.text "\\ 😀 \t", .null, .int 7])])]) ∧
    Json.read second = .ok (.object [("id", .text "é"), ("values", .list []),
      ("metadata", .object [])]) := by
  obtain ⟨body, hbody, -, -, -, texts, hsplit, hread⟩ := ndjson_lossless brokenRecords nofun
    (List.forall_mem_cons.2 ⟨by decide +kernel, List.forall_mem_cons.2 ⟨by decide, nofun⟩⟩)
  obtain _ | ⟨hfirst, _ | ⟨hsecond, _ | _⟩⟩ := hread
  exact ⟨body, _, _, hbody, hsplit, hfirst, hsecond⟩

end Vectorize

end VectorStore
