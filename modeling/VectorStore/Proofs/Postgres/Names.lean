/-
  The alphabet of what is written into statements.

  Segments of paths, columns, schemas and indexes are all that a statement takes over from outside.

  * a name is accepted just if its stem, the text without one line feed at its end, is spelled as
    it should be (`Postgres.isName_iff`), like a segment and an identifier;
  * `Postgres.spelled_iff`: so what is accepted is in its alphabet just if it does not end with a
    line feed.
-/
import VectorStore.Proofs.Filter.Spelling
import VectorStore.Proofs.Postgres.Query

namespace VectorStore.Postgres

open VectorStore.Filter

/-- The spelling of a schema or an index: an identifier of no more than 48 characters. -/
structure SpellsName (s : String) : Prop extends SpellsIdentifier s where
  length_le : s.length ≤ 48

/-- **A name is accepted just if its stem is spelled as one.** -/
theorem isName_iff {s : String} : isName s = true ↔ SpellsName (stem s) := by
  have hlength : (stem s).length = (withoutFinalFeed s.toList).length := by
    rw [← toList_stem, String.length_toList]
  rw [isName, Bool.and_eq_true, decide_eq_true_eq, isIdentifier_iff, maxNameLength, ← hlength]
  constructor
  · rintro ⟨hspelled, hshort⟩
    exact ⟨hspelled, hshort⟩
  · rintro ⟨hspelled, hshort⟩
    exact ⟨hspelled, hshort⟩

/-- A table is that of a name. -/
theorem isName_of_tableOf {settings : Settings} {name table : String}
    (h : tableOf settings name = .ok table) : isName name = true := by
  rw [tableOf] at h
  split at h
  · assumption
  · cases h

/-- **What is accepted is in its alphabet just if it does not end with a line feed**: as a segment
    of a path, as a column, as a schema and as the name of an index. -/
theorem spelled_iff (s : String) :
    (∀ {key path}, Path.ofText key = .ok path → s ∈ path →
      (SpellsSegment s ↔ ¬EndsWithFeed s)) ∧
    (∀ {v}, columnOf v = .ok s → (SpellsIdentifier s ↔ ¬EndsWithFeed s)) ∧
    (∀ {options env settings}, Settings.ofOptions options env = .ok settings →
      settings.schema = s → (SpellsName s ↔ ¬EndsWithFeed s)) ∧
    ∀ {settings table}, tableOf settings s = .ok table → (SpellsName s ↔ ¬EndsWithFeed s) := by
  have hname (hs : isName s = true) : SpellsName s ↔ ¬EndsWithFeed s :=
    holds_iff_not_endsWithFeed (fun h => h.feed_notMem) (isName_iff.1 hs)
  refine ⟨?_, ?_, ?_, ?_⟩
  · intro key path hkey hs
    have hsegment := isSegment_of_ofText hkey s hs
    exact holds_iff_not_endsWithFeed SpellsSegment.feed_notMem (isSegment_iff.1 hsegment)
  · intro v hcolumn
    have hidentifier := isIdentifier_of_columnOf hcolumn
    exact holds_iff_not_endsWithFeed SpellsIdentifier.feed_notMem (isIdentifier_iff.1 hidentifier)
  · intro options env settings hsettings hschema
    exact hname (hschema ▸ isName_schema hsettings)
  · intro settings table htable
    exact hname (isName_of_tableOf htable)

/-- The options of a store whose schema is the given one. -/
def schemaOptions (schema : String) : Fields := [("schema", .text schema), ("dsn", .text "db")]

theorem spelled_products :
    (∀ s ∈ ["größe", "price-eur"], SpellsSegment s) ∧ SpellsIdentifier "doc" ∧
      SpellsName "shop" ∧ SpellsName "products_2" := by
  have hkey : Path.ofText "metadata.größe.price-eur" = .ok ["größe", "price-eur"] := rfl
  have hcolumn : columnOf (.text "doc") = .ok "doc" := rfl
  obtain ⟨settings, hsettings, hschema⟩ : ∃ settings,
      Settings.ofOptions (schemaOptions "shop") [] = .ok settings ∧ settings.schema = "shop" :=
    ⟨_, rfl, rfl⟩
  have htable : tableOf settings "products_2" = .ok (qualified settings.schema "products_2") := rfl
  refine ⟨?_, ((spelled_iff "doc").2.1 hcolumn).2 (by decide),
    ((spelled_iff "shop").2.2.1 hsettings hschema).2 (by decide),
    ((spelled_iff "products_2").2.2.2 htable).2 (by decide)⟩
  intro s hs
  refine ((spelled_iff s).1 hkey hs).2 ?_
  simp only [List.mem_cons, List.not_mem_nil, or_false] at hs
  rcases hs with rfl | rfl <;> decide

/-- A segment, a column, a schema and an index are accepted that end with a line feed; the index
    has one character more than it may. -/
theorem accepted_feed :
    Path.ofText "size\n" = .ok ["size\n"] ∧ ¬SpellsSegment "size\n" ∧
    columnOf (.text "doc\n") = .ok "doc\n" ∧ ¬SpellsIdentifier "doc\n" ∧
    ∃ settings, Settings.ofOptions (schemaOptions "shop\n") [] = .ok settings ∧
      settings.schema = "shop\n" ∧ ¬SpellsName settings.schema ∧
      ∃ name table, tableOf settings name = .ok table ∧ name.length = 49 ∧ ¬SpellsName name := by
  refine ⟨rfl, fun h => h.feed_notMem (by decide), rfl, fun h => h.feed_notMem (by decide),
    _, rfl, rfl, fun h => h.feed_notMem (by decide),
    String.ofList (List.replicate 48 'n' ++ ['\n']), _, rfl, by decide, ?_⟩
  intro h
  exact absurd h.length_le (by decide)

end VectorStore.Postgres
