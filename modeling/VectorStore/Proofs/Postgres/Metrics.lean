/-
  The metric of an index through the catalog.

  * `Catalog` is what the database is assumed to do with the definitions of a table's indexes:
    they come with the two statements that create the table, and are listed in some order;
  * `definitions_of_create`: the definitions after an index was created;
  * `indexMetric_created`: a store that does not know the metric reads it from the catalog, or
    reads the one that the schema or the index is named after.
-/
import VectorStore.Proofs.Postgres.Definitions
import VectorStore.Proofs.Store.Clients

namespace VectorStore

/-! ## Runs -/

/-- The clock of a service is that of what is known of it. -/
instance {S : Type} [Clocked S] : Clocked (Known S) where
  clock k := Clocked.clock k.service
  atTime time k := { k with service := Clocked.atTime time k.service }

namespace Postgres

variable {S α : Type}

/-- The clock of a connection is that of its pool. -/
instance [Clocked S] : Clocked (Pool S) where
  clock p := Clocked.clock p.connection
  atTime time p := { p with connection := Clocked.atTime time p.connection }

variable [Clocked S]

theorem run_onService {ε : Type} (t : Task S ε α) (st : State S) : (onService t).run st =
    ((t.run st.service.connection).1, changed (fun _ => (t.run st.service.connection).2) st) := by
  have hpool (p : Pool S) := Task.run_zoom part_connection (fun _ => rfl) (fun _ _ => rfl) t p
  rw [onService, Known.ofService,
    Task.run_zoom Known.part_service (fun _ => rfl) (fun _ _ => rfl), hpool]
  rfl

theorem run_onService_eq_ok {ε : Type} {t : Task S ε α} {a : α} {st st' : State S}
    (h : (onService t).run st = (.ok a, st')) :
    t.run st.service.connection = (.ok a, st'.service.connection) := by
  rw [run_onService] at h
  rcases ht : t.run st.service.connection with ⟨r, s'⟩
  rw [ht] at h
  cases h
  rfl

/-- A transaction that succeeds is committed. -/
theorem run_inTransaction_eq_ok {conn : Connection S} {t : Task (State S) Failure α} {a : α}
    {st st' : State S} (h : (inTransaction conn t).run st = (.ok a, st')) :
    ∃ st₁ st₂, t.run st₁ = (.ok a, st₂) ∧
      conn.commit.run st₂.service.connection = (.ok (), st'.service.connection) := by
  obtain ⟨-, st₁, -, h⟩ := Task.run_andThen_eq_ok h
  obtain ⟨r, st₂, hwork, h⟩ := Task.run_andThen_eq_ok h
  rw [Task.run_attempt, Task.run_onAbandon, Prod.mk.injEq, Except.ok.injEq] at hwork
  obtain ⟨rfl, rfl⟩ := hwork
  rcases ht : t.run st₁ with ⟨f | b, st₂⟩ <;> rw [ht] at h
  · obtain ⟨-, st₃, -, h⟩ := Task.run_andThen_eq_ok h
    cases h
  · obtain ⟨⟨⟩, st₃, hcommit, h⟩ := Task.run_andThen_eq_ok h
    cases h
    exact ⟨st₁, st₂, ht, run_onService_eq_ok hcommit⟩

/-- Work on a connection that succeeds has been done, and the connection was handed back. -/
theorem run_onConnection_eq_ok {settings : Settings} {conn : Connection S} {operation : String}
    {index : Option String} {work : Task (State S) Failure α} {a : α} {st st' : State S}
    (h : (onConnection settings conn operation index work).run st = (.ok a, st')) :
    ∃ st₁ st₂, work.run st₁ = (.ok a, st₂) ∧
      conn.release.run st₂.service.connection = (.ok (), st'.service.connection) := by
  rw [onConnection, Task.run_recover] at h
  rcases hi : ((ensureOpen settings conn).andThen fun _ => withConnection conn work).run st with
    ⟨_ | b, st₂⟩ <;> rw [hi] at h
  · cases h
  · obtain ⟨rfl, rfl⟩ : b = a ∧ st₂ = st' := by cases h; exact ⟨rfl, rfl⟩
    obtain ⟨-, st₁, -, hi⟩ := Task.run_andThen_eq_ok hi
    obtain ⟨-, st₂, -, hi⟩ := Task.run_andThen_eq_ok hi
    obtain ⟨r, st₃, hwork, hi⟩ := Task.run_andThen_eq_ok hi
    obtain ⟨⟨⟩, st₄, hrelease, hi⟩ := Task.run_andThen_eq_ok hi
    cases hi
    rw [Task.run_attempt, Task.run_onAbandon, Prod.mk.injEq, Except.ok.injEq] at hwork
    exact ⟨st₂, st₃, Prod.ext hwork.1 hwork.2, run_onService_eq_ok hrelease⟩

/-! ## The catalog -/

/-- The rows by which definitions are listed. -/
def definitionRows (definitions : List String) : Value :=
  .list (definitions.map fun d => .object [("indexdef", .text d)])

/-- What the database is assumed to do with the definitions of a table's indexes: those of the
    table that is created for vectors of dimension `d`, to be compared by the metric `m`. -/
structure Catalog (conn : Connection S) (schema name : String) (d : Nat) (m : Metric)
    (definitions : S → List String) : Prop where
  /-- a new table has an index over its ids -/
  createTable {s s'} :
    (conn.execute (createTable (qualified schema name) d) []).run s = (.ok (), s') →
      (definitions s').Perm [keyDefinition schema name]
  /-- an index over its vectors has the operator class of its statement -/
  createVectorIndex {s s'} :
    (conn.execute (createVectorIndex name (qualified schema name) m) []).run s = (.ok (), s') →
      (definitions s').Perm (vectorDefinition schema name m :: definitions s)
  commit {s s'} : conn.commit.run s = (.ok (), s') → definitions s' = definitions s
  release {s s'} : conn.release.run s = (.ok (), s') → definitions s' = definitions s
  /-- a table with indexes is found -/
  found s : definitions s ≠ [] →
    ∃ v s', (conn.fetchValue selectTable [.value (.text (qualified schema name))]).run s =
      (.ok v, s') ∧ v.isNull = false ∧ definitions s' = definitions s
  /-- definitions are listed in some order -/
  lists s : ∃ listed s', (conn.fetchRows selectIndexes
      [.value (.text schema), .value (.text name)]).run s = (.ok (definitionRows listed), s') ∧
    listed.Perm (definitions s)

theorem metricOfRows_definitionRows (definitions : List String) :
    (definitionRows definitions).toItems >>= metricOfRows = .ok (metricOf definitions) := by
  show metricOfRows (definitions.map fun d => .object [("indexdef", .text d)]) = _
  induction definitions with
  | nil => rfl
  | cons d definitions ih =>
    have hfield : (Value.object [("indexdef", .text d)]).field "indexdef" = .ok (.text d) := rfl
    have htext : (Value.text d).toText = .ok d := rfl
    rw [List.map_cons, metricOfRows, hfield, metricOf, List.findSome?_cons]
    simp only [Bind.bind, Except.bind, htext]
    rcases metricIn d with _ | m
    · exact ih
    · rfl

section

variable {conn : Connection S} {settings : Settings} {name : String} {definitions : S → List String}
  {d : Nat} {m : Metric} {st st' : State S}

/-- The two statements of a creation, whether or not the extension is installed before; then it is
    committed, and the connection handed back. -/
theorem run_create_eq_ok (h : (create settings conn name d m).run st = (.ok (), st')) :
    tableOf settings name = .ok (qualified settings.schema name) ∧
      ∃ st₁ st₂ s, ((onService (conn.execute
          (Postgres.createTable (qualified settings.schema name) d) [])).andThen fun _ =>
        onService (conn.execute
          (Postgres.createVectorIndex name (qualified settings.schema name) m) [])).run st₁ =
          (.ok (), st₂) ∧ conn.commit.run st₂.service.connection = (.ok (), s) ∧
        conn.release.run s = (.ok (), st'.service.connection) := by
  obtain ⟨table, st₁, htable, hrest⟩ := Task.run_andThen_eq_ok h
  have hq : tableOf settings name = .ok (qualified settings.schema name) := by
    rw [tableOf] at htable ⊢
    split at htable
    · rw [if_pos ‹_›]
    · cases htable
  rw [hq] at htable
  cases htable
  obtain ⟨⟨⟩, st₂, hconn, hrem⟩ := Task.run_andThen_eq_ok hrest
  cases hrem
  obtain ⟨st₃, st₄, htrans, hrelease⟩ := run_onConnection_eq_ok hconn
  obtain ⟨st₅, st₆, hwork, hcommit⟩ := run_inTransaction_eq_ok htrans
  refine ⟨hq, ?_⟩
  cases he : settings.createExtension with
  | false =>
    simp only [he] at hwork
    exact ⟨_, st₆, _, hwork, hcommit, hrelease⟩
  | true =>
    simp only [he] at hwork
    obtain ⟨⟨⟩, st₇, -, hboth⟩ := Task.run_andThen_eq_ok hwork
    exact ⟨st₇, st₆, _, hboth, hcommit, hrelease⟩

/-- **The definitions after an index was created.** -/
theorem definitions_of_create (hc : Catalog conn settings.schema name d m definitions)
    (h : (create settings conn name d m).run st = (.ok (), st')) :
    (definitions st'.service.connection).Perm
      [vectorDefinition settings.schema name m, keyDefinition settings.schema name] := by
  obtain ⟨-, st₁, st₂, s, hboth, hcommit, hrelease⟩ := run_create_eq_ok h
  obtain ⟨⟨⟩, st₃, htable, hindex⟩ := Task.run_andThen_eq_ok hboth
  have hkey := hc.createTable (run_onService_eq_ok htable)
  have hvector := hc.createVectorIndex (run_onService_eq_ok hindex)
  rw [hc.release hrelease, hc.commit hcommit]
  exact hvector.trans (hkey.cons _)

/-- The metric of an index that is found, as its definitions are listed. -/
theorem run_indexMetric {k : State S} {table : String} {v : Value} {s₁ s₂ : S}
    {listed : List String} {found : Metric} (hk : k.metric? name = none)
    (hv : (conn.fetchValue selectTable [.value (.text table)]).run k.service.connection =
      (.ok v, s₁)) (hnull : v.isNull = false)
    (hrows : (conn.fetchRows selectIndexes [.value (.text settings.schema),
      .value (.text name)]).run s₁ = (.ok (definitionRows listed), s₂))
    (hfound : metricOf listed = some found) :
    (indexMetric settings conn name table).run k =
      (.ok found, (changed (fun _ => s₂) k).remember name found) := by
  have hv' : (onService (conn.fetchValue selectTable [.value (.text table)])).run k =
      (.ok v, changed (fun _ => s₁) k) := by rw [run_onService, hv]
  have hrows' : (onService (conn.fetchRows selectIndexes [.value (.text settings.schema),
      .value (.text name)])).run (changed (fun _ => s₁) k) =
        (.ok (definitionRows listed), changed (fun _ => s₂) k) := by
    rw [run_onService]
    exact congrArg (fun r : Except Failure Value × S =>
      (r.1, changed (fun _ => r.2) (changed (fun _ => s₁) k))) hrows
  have hget : (Task.get (ε := Failure)).run k = (.ok k, k) := rfl
  rw [indexMetric, Task.run_bind_ok hget]
  simp only [hk]
  rw [Task.run_bind_ok hv', hnull]
  simp only [Bool.false_eq_true, if_false]
  rw [Task.run_bind_ok hrows', metricOfRows_definitionRows, hfound]
  rfl

/-- **A store that does not know the metric of a created index reads it from the catalog**, in
    whatever order that lists the definitions, unless the schema or the index is named after
    another metric's operator class. -/
theorem indexMetric_created (hc : Catalog conn settings.schema name d m definitions)
    (h : (create settings conn name d m).run st = (.ok (), st')) {k : State S}
    (hk : k.metric? name = none)
    (hsame : definitions k.service.connection = definitions st'.service.connection) :
    ∃ table found k', tableOf settings name = .ok table ∧
      (indexMetric settings conn name table).run k = (.ok found, k') ∧
      (found = m ∨ namedMetric? settings.schema name = some found) := by
  have hdefs := definitions_of_create hc h
  rw [← hsame] at hdefs
  have hne : definitions k.service.connection ≠ [] := fun he => by
    rw [he] at hdefs
    exact absurd hdefs.nil_eq nofun
  obtain ⟨v, s₁, hv, hnull, hs₁⟩ := hc.found _ hne
  obtain ⟨listed, s₂, hrows, hlisted⟩ := hc.lists s₁
  obtain ⟨found, hfound, hm⟩ := metricOf_definitions (hlisted.trans (hs₁ ▸ hdefs))
  exact ⟨_, found, _, (run_create_eq_ok h).1, run_indexMetric hk hv hnull hrows hfound, hm⟩

end

/-! ## A database of one table -/

section

variable (schema name : String) (d : Nat) (m : Metric)

/-- The definitions after a statement of the creation of a table. -/
def definitionsAfter (statement : String) (definitions : List String) : List String :=
  if statement = createVectorIndex name (qualified schema name) m then
    definitions ++ [vectorDefinition schema name m]
  else if statement = createTable (qualified schema name) d then [keyDefinition schema name]
  else definitions

/-- A database that keeps the definitions of one table's indexes, in the order in which they were
    created. -/
def ledger : Connection (List String) where
  openPool _ _ _ := .ret ()
  closePool := .ret ()
  acquire := .ret ()
  release := .ret ()
  begin := .ret ()
  commit := .ret ()
  rollBack := .ret ()
  rollsBack := id
  releases := id
  execute statement _ := .modify (definitionsAfter schema name d m statement)
  fetchValue _ _ := .ret (.text name)
  fetchRows _ _ := .read fun definitions => .ret (definitionRows definitions)
  executeMany _ _ := .ret ()

/-- A database where no time passes. -/
instance : Clocked (List String) where
  clock _ := 0
  atTime _ definitions := definitions

variable {schema name d m}

theorem definitionsAfter_createTable (hne : createTable (qualified schema name) d ≠
    createVectorIndex name (qualified schema name) m) (definitions : List String) :
    definitionsAfter schema name d m (createTable (qualified schema name) d) definitions =
      [keyDefinition schema name] := by
  rw [definitionsAfter, if_neg hne, if_pos rfl]

theorem definitionsAfter_createVectorIndex (definitions : List String) :
    definitionsAfter schema name d m (createVectorIndex name (qualified schema name) m) definitions =
      definitions ++ [vectorDefinition schema name m] := by
  rw [definitionsAfter, if_pos rfl]

theorem run_execute_ledger (statement : String) (parameters : List Bound) (s : List String) :
    ((ledger schema name d m).execute statement parameters).run s =
      (.ok (), definitionsAfter schema name d m statement s) :=
  rfl

theorem catalog_ledger (hne : createTable (qualified schema name) d ≠
    createVectorIndex name (qualified schema name) m) :
    Catalog (ledger schema name d m) schema name d m id where
  createTable h := by
    rw [run_execute_ledger, Prod.mk.injEq] at h
    rw [id, ← h.2, definitionsAfter_createTable hne]
  createVectorIndex h := by
    rw [run_execute_ledger, Prod.mk.injEq] at h
    rw [id, ← h.2, definitionsAfter_createVectorIndex]
    exact List.perm_append_singleton _ _
  commit h := (Prod.ext_iff.1 h).2.symm
  release h := (Prod.ext_iff.1 h).2.symm
  found s _ := ⟨_, s, rfl, rfl, rfl⟩
  lists s := ⟨_, s, rfl, .refl s⟩

/-- The database lists the index over the ids first. -/
theorem connection_of_create {settings : Settings} {st st' : State (List String)}
    (hne : createTable (qualified settings.schema name) d ≠
      createVectorIndex name (qualified settings.schema name) m)
    (h : (create settings (ledger settings.schema name d m) name d m).run st = (.ok (), st')) :
    st'.service.connection =
      [keyDefinition settings.schema name, vectorDefinition settings.schema name m] := by
  obtain ⟨-, st₁, st₂, s, hboth, hcommit, hrelease⟩ := run_create_eq_ok h
  obtain rfl : st₂.service.connection = s := (Prod.ext_iff.1 hcommit).2
  obtain ⟨⟨⟩, st₃, htable, hindex⟩ := Task.run_andThen_eq_ok hboth
  have htable := run_onService_eq_ok htable
  have hindex := run_onService_eq_ok hindex
  rw [run_execute_ledger, Prod.mk.injEq, definitionsAfter_createTable hne] at htable
  rw [run_execute_ledger, Prod.mk.injEq, definitionsAfter_createVectorIndex, ← htable.2] at hindex
  exact (Prod.ext_iff.1 hrelease).2.symm.trans hindex.2.symm

/-- So the metric that the schema or the index is named after is read, if there is one. -/
theorem indexMetric_ledger (settings : Settings) {st st' : State (List String)} {k : Metric}
    (hne : createTable (qualified settings.schema name) d ≠
      createVectorIndex name (qualified settings.schema name) m)
    (h : (create settings (ledger settings.schema name d m) name d m).run st = (.ok (), st'))
    (hk : namedMetric? settings.schema name = some k) : ∃ k',
      (indexMetric settings (ledger settings.schema name d m) name
        (qualified settings.schema name)).run (Known.start st'.service) = (.ok k, k') := by
  have hfound : metricOf st'.service.connection = some k := by
    rw [connection_of_create hne h, metricOf, List.findSome?_cons, metricIn_keyDefinition, hk]
  exact ⟨_, run_indexMetric rfl rfl rfl rfl hfound⟩

end

/-- Indexes in one schema, over a pool that is given. -/
def publicSettings : Settings := ⟨"public", .null, false, 1, 10, false⟩

/-- An index of a plain name. -/
theorem indexMetric_docs : ∃ st' table k',
    Catalog (ledger "public" "docs" 3 .euclidean) "public" "docs" 3 .euclidean id ∧
    (create publicSettings (ledger "public" "docs" 3 .euclidean) "docs" 3 .euclidean).run
      (start publicSettings []) = (.ok (), st') ∧
    (Known.start st'.service).metric? "docs" = none ∧
    (indexMetric publicSettings (ledger "public" "docs" 3 .euclidean) "docs" table).run
      (Known.start st'.service) = (.ok .euclidean, k') := by
  have hc : Catalog (ledger "public" "docs" 3 .euclidean) "public" "docs" 3 .euclidean id :=
    catalog_ledger (by decide +kernel)
  obtain ⟨st', h⟩ : ∃ st', (create publicSettings (ledger "public" "docs" 3 .euclidean) "docs" 3
      .euclidean).run (start publicSettings []) = (.ok (), st') := ⟨_, rfl⟩
  have hnone : namedMetric? "public" "docs" = none := by decide +kernel
  obtain ⟨table, found, k', -, hrun, rfl | hm⟩ :=
    indexMetric_created hc h (k := Known.start st'.service) rfl rfl
  · exact ⟨st', table, k', hc, h, rfl, hrun⟩
  · exact absurd (hnone.symm.trans hm) nofun

/-- An index that is named after another metric's operator class. -/
theorem indexMetric_misnamed : ∃ st' table k',
    Catalog (ledger "public" "vector_cosine_ops" 3 .euclidean) "public" "vector_cosine_ops" 3
      .euclidean id ∧
    (create publicSettings (ledger "public" "vector_cosine_ops" 3 .euclidean) "vector_cosine_ops" 3
      .euclidean).run (start publicSettings []) = (.ok (), st') ∧
    tableOf publicSettings "vector_cosine_ops" = .ok table ∧
    (indexMetric publicSettings (ledger "public" "vector_cosine_ops" 3 .euclidean)
      "vector_cosine_ops" table).run (Known.start st'.service) = (.ok .cosine, k') := by
  have hne : createTable (qualified "public" "vector_cosine_ops") 3 ≠
      createVectorIndex "vector_cosine_ops" (qualified "public" "vector_cosine_ops") .euclidean := by
    decide +kernel
  obtain ⟨st', h⟩ : ∃ st', (create publicSettings
      (ledger "public" "vector_cosine_ops" 3 .euclidean) "vector_cosine_ops" 3 .euclidean).run
        (start publicSettings []) = (.ok (), st') := ⟨_, rfl⟩
  have hnamed : namedMetric? "public" "vector_cosine_ops" = some .cosine := by decide +kernel
  obtain ⟨k', hrun⟩ := indexMetric_ledger publicSettings hne h hnamed
  exact ⟨st', _, k', catalog_ledger hne, h, (run_create_eq_ok h).1, hrun⟩

end Postgres

end VectorStore
