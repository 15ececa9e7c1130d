/-
  Successful writes to the store in memory.

  `upsert_inserts`: a write of valid records that fit their index inserts them one after another
  in their order and returns their ids, whatever the size of a chunk and the number of chunks at
  a time; if all ids are given, writing the same once more changes nothing.
-/
import VectorStore.Proofs.Memory.Writes

namespace VectorStore.Memory

open Batch Fields

variable {s : Session State} {n : String} {i : Index} {rs : List Record}
  {vectors metadata ids : Value} {ctx : Option Context} {config : Config}

/-- Where nothing keeps a write from success, both operations that write return its ids and
    leave its records in the index. -/
theorem run_upsert_fit (hsink : ∀ events event, s.sink events event = none)
    (h : Accepted config s (.text n) vectors metadata ids ctx n i rs) (hfits : i.Fits rs)
    (server : String) :
    (∃ s', ((store server config).upsert (.text n) vectors metadata ids ctx).run s =
        (.ok (rs.map Record.id), s') ∧ s'.backend = put s.backend n (i.insert rs)) ∧
      ∃ s' chunks, ((store server config).upsertWithReport (.text n) vectors metadata ids ctx).run
          s = (.ok ⟨rs.map Record.id, [], chunks⟩, s') ∧
        s'.backend = put s.backend n (i.insert rs) := by
  have hrun (operation : String) : ∃ s', s'.backend = put s.backend n (i.insert rs) ∧
      ((store server config).runUpsert operation (.text n) vectors metadata ids ctx).run s =
        (.ok ⟨rs.map Record.id, [], (chunks config.batchSize rs).length⟩, s') := by
    obtain ⟨s', hb, hok | ⟨f, -, events, event, hf⟩⟩ := run_runUpsert_fit h hfits server operation
    · exact ⟨s', hb, hok⟩
    · rw [hsink] at hf
      cases hf
  obtain ⟨s', hb, hok⟩ := hrun "upsert"
  obtain ⟨s'', hb', hok'⟩ := hrun "upsert_with_report"
  exact ⟨⟨s', Task.run_bind_ok hok _, hb⟩, s'', _, hok', hb'⟩

/-- **A write inserts its records one after another**, in their order.  Each is made of its
    vector, its metadata and its id, which is returned as it is given or drawn; new ids come
    behind the others, an id that is there keeps its place, and of its records the last one
    stays.  How the records are cut into chunks, and how many chunks are written at a time, makes
    no difference, and where all ids are given, neither does a second write. -/
theorem upsert_inserts (hn : Text.allBlank n = false) (hi : get? s.backend n = some i)
    (hrs : (Record.buildRecords s.drawn vectors metadata ids).1 = .ok rs) (hfits : i.Fits rs)
    (ht : Store.InTime ctx s.now) (hsink : ∀ events event, s.sink events event = none) :
    let inserted := rs.foldl (fun acc r => put acc r.id r) i.records
    let after := put s.backend n { i with records := inserted }
    (∀ k v m, (Record.given rs.length vectors)[k]? = some v →
      (Record.given rs.length metadata)[k]? = some m → ∃ r, rs[k]? = some r ∧
        Record.vectorOf s!"vectors[{Number.natText k}]" v = .ok r.vector ∧
        Record.metadataOf k m = .ok r.metadata) ∧
      rs.map Record.id = Record.idsFrom s.drawn (Record.given rs.length ids) ∧
      keys inserted =
        keys i.records ++ ((rs.map Record.id).removeAll (keys i.records)).eraseDups ∧
      (∀ id, get? inserted id = (rs.reverse.find? (·.id = id)).or (get? i.records id)) ∧
      (∀ (server : String) (config : Config), 0 < config.batchSize →
        0 < config.batchMaxConcurrency →
        (∃ s', ((store server config).upsert (.text n) vectors metadata ids ctx).run s =
          (.ok (rs.map Record.id), s') ∧ s'.backend = after) ∧
        ∃ s' chunks, ((store server config).upsertWithReport (.text n) vectors metadata ids
          ctx).run s = (.ok ⟨rs.map Record.id, [], chunks⟩, s') ∧ s'.backend = after) ∧
      ∀ items : List Value, ids = .list items → (∀ v ∈ items, v ≠ .null) →
        ∀ (server : String) (config : Config) (s' : Session State), 0 < config.batchSize →
        0 < config.batchMaxConcurrency → s'.backend = after → Store.InTime ctx s'.now →
        (∀ events event, s'.sink events event = none) →
        ∃ s'', ((store server config).upsert (.text n) vectors metadata ids ctx).run s' =
          (.ok (rs.map Record.id), s'') ∧ s''.backend = after := by
  intro inserted after
  have hname := Store.requireText_text hn "name"
  have hbuilt : Record.buildRecords s.drawn vectors metadata ids =
      (.ok rs, (Record.buildRecords s.drawn vectors metadata ids).2) := Prod.ext hrs rfl
  refine ⟨fun k v m hv hm => Record.buildRecords_getElem? hbuilt hv hm,
    Record.map_id_buildRecords hbuilt, keys_insertAll i.records rs,
    get?_insertAll i.records rs, fun server config hsize hconc => ?_, ?_⟩
  · exact run_upsert_fit hsink ⟨hname, hrs, ht, hi, hsize, hconc⟩ hfits server
  · rintro items rfl hitems server config s' hsize hconc hs' ht' hsink'
    have hrs' : (Record.buildRecords s'.drawn vectors metadata (.list items)).1 = .ok rs := by
      rw [Record.buildRecords_of_explicit hitems hbuilt]
    have hi' : get? s'.backend n = some (i.insert rs) := hs' ▸ get?_put_self ..
    have htwice : (i.insert rs).insert rs = i.insert rs := by
      rw [Index.insert, Index.insert, insertAll_insertAll]
    obtain ⟨⟨s'', hrun, hb⟩, -⟩ := run_upsert_fit hsink' ⟨hname, hrs', ht', hi', hsize, hconc⟩
      hfits server
    refine ⟨s'', hrun, ?_⟩
    rw [hb, htwice, hs']
    exact put_put_self ..

/-- Of three records, written two at a time, one is for an id that is there, and two are for
    another one. -/
theorem upsert_inserts_repeated :
    let s := Session.start [("docs", ⟨1, .cosine, [("a", ⟨"a", [0.5], []⟩)]⟩)] Session.takesAll
    ∃ s', ((store "memory" ⟨2, 3, .bool false, none⟩).upsert (.text "docs")
        (.list [.list [.float 1.5], .list [.float 2.5], .list [.float 3.5]]) .null
        (.list [.text "b", .text "a", .text "b"]) none).run s = (.ok ["b", "a", "b"], s') ∧
      s'.backend =
        [("docs", ⟨1, .cosine, [("a", ⟨"a", [2.5], []⟩), ("b", ⟨"b", [3.5], []⟩)]⟩)] := by
  intro s
  have hi : get? s.backend "docs" = some ⟨1, .cosine, [("a", ⟨"a", [0.5], []⟩)]⟩ := rfl
  have hrs : (Record.buildRecords s.drawn
      (.list [.list [.float 1.5], .list [.float 2.5], .list [.float 3.5]]) .null
      (.list [.text "b", .text "a", .text "b"])).1 =
      .ok [⟨"b", [1.5], []⟩, ⟨"a", [2.5], []⟩, ⟨"b", [3.5], []⟩] := rfl
  have hfits : Index.Fits ⟨1, .cosine, [("a", ⟨"a", [0.5], []⟩)]⟩
      [⟨"b", [1.5], []⟩, ⟨"a", [2.5], []⟩, ⟨"b", [3.5], []⟩] := fun r hr => by
    simp only [List.mem_cons, List.not_mem_nil, or_false] at hr
    rcases hr with rfl | rfl | rfl <;> rfl
  obtain ⟨-, -, -, -, hrun, -⟩ := upsert_inserts (by decide) hi hrs hfits (Store.inTime_none _)
    fun _ _ => rfl
  exact (hrun "memory" ⟨2, 3, .bool false, none⟩ (by decide) (by decide)).1

end VectorStore.Memory
