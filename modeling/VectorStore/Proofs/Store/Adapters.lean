/-
  The adapters.

  * `Adapter`: the four backends, over services whose calls may take any time, and each of them
    with its own calls held up (`Backend.delayed`);
  * `Adapter.waits`: what an adapter waits for is over at a time from zero on, as what its service
    waits for is;
  * `Adapter.answersAtOnce`: what it can do an adapter says without asking its service;
  * `Adapter.told`: no adapter looks at the context of an operation.
-/
import VectorStore.Memory.Store
import VectorStore.Postgres.Store
import VectorStore.Proofs.Store.Punctual
import VectorStore.Qdrant.Store
import VectorStore.Vectorize.Store

namespace VectorStore

open VectorStore.Task (waits_done waits_get waits_modify)

variable {S α : Type}

theorem Known.waits_ofService {ε : Type} {t : Task S ε α} (h : t.Waits) :
    (Known.ofService t).Waits := h.zoom ..

/-! ## Memory -/

namespace Memory

theorem waits_change (f : State → Except Failure State) : (change f).Waits := by
  intro s
  dsimp only
  split <;> trivial

theorem waits_storeChunk (copy : Fields → Except Fault Fields) (name : String)
    (c : Batch.Chunk Record) : (storeChunk copy name c).Waits := by
  intro s
  dsimp only
  split
  · next written _ => cases written <;> trivial
  · trivial

theorem waits_backend (name : String) (copy : Fields → Except Fault Fields) :
    (backend name copy).Waits where
  createIndex _ _ _ _ := waits_change _
  describeIndex _ _ _ := trivial
  listIndexes _ _ := trivial
  deleteIndex _ _ := waits_change _
  upsertChunk _ _ _ := (waits_storeChunk copy _ _).andThen fun _ => waits_done _
  query _ _ _ := trivial

end Memory

/-! ## PostgreSQL -/

namespace Postgres

/-- What is waited for where the database is asked, if it is time, is over at a time from zero
    on. -/
structure Connection.Waits (conn : Connection S) : Prop where
  openPool : ∀ dsn least most, (conn.openPool dsn least most).Waits
  acquire : conn.acquire.Waits
  release : conn.release.Waits
  begin : conn.begin.Waits
  commit : conn.commit.Waits
  rollBack : conn.rollBack.Waits
  execute : ∀ statement parameters, (conn.execute statement parameters).Waits
  fetchValue : ∀ statement parameters, (conn.fetchValue statement parameters).Waits
  fetchRows : ∀ statement parameters, (conn.fetchRows statement parameters).Waits
  executeMany : ∀ statement rows, (conn.executeMany statement rows).Waits

variable {settings : Settings} {conn : Connection S}

theorem waits_onService {t : Task S Failure α} (h : t.Waits) : (onService t).Waits :=
  Known.waits_ofService (h.zoom ..)

theorem waits_inTransaction (h : conn.Waits) {t : Task (State S) Failure α} (ht : t.Waits) :
    (inTransaction conn t).Waits := by
  refine (waits_onService h.begin).andThen fun _ => (ht.onAbandon _).attempt.andThen fun r => ?_
  cases r with
  | ok a => exact (waits_onService h.commit).andThen fun _ => waits_done _
  | error e => exact (waits_onService h.rollBack).andThen fun _ => waits_done _

theorem waits_withConnection (h : conn.Waits) {t : Task (State S) Failure α} (ht : t.Waits) :
    (withConnection conn t).Waits :=
  (waits_onService h.acquire).andThen fun _ => (ht.onAbandon _).attempt.andThen fun _ =>
    (waits_onService h.release).andThen fun _ => waits_done _

theorem waits_ensureOpen (h : conn.Waits) : (ensureOpen settings conn).Waits := by
  have hopen : (openIfClosed settings conn).Waits := by
    intro st
    dsimp only
    split
    · exact waits_done _
    · exact (waits_onService (h.openPool _ _ _)).andThen fun _ => waits_modify _
  intro st
  dsimp only
  split
  · exact waits_done _
  · intro st
    have hentrance (ticket : Nat) : (if (st.service.turnstile.returned == ticket) = true
        then .ret ()
        else .await (.holds fun s : State S => s.service.turnstile.returned == ticket) :
        Task (State S) Failure Unit).Waits := by
      split
      · exact waits_done _
      · exact ⟨trivial, waits_done _⟩
    refine (((hentrance _).andThen fun _ => hopen).onAbandon _).attempt.andThen fun r => ?_
    exact (waits_modify _).andThen fun _ => waits_done _

theorem waits_onConnection (h : conn.Waits) {operation : String} {index : Option String}
    {work : Task (State S) Failure α} (hw : work.Waits) :
    (onConnection settings conn operation index work).Waits := by
  refine Task.Waits.recover ?_ fun f => waits_done _
  exact (waits_ensureOpen h).andThen fun _ => waits_withConnection h hw

theorem waits_indexMetric (h : conn.Waits) (name table : String) :
    (indexMetric settings conn name table).Waits := by
  refine waits_get.andThen fun st => ?_
  split
  · exact waits_done _
  · refine (waits_onService (h.fetchValue _ _)).andThen fun found => ?_
    dsimp only
    split
    on_goal 1 => refine (waits_done _).andThen fun _ => ?_
    all_goals
      refine (waits_onService (h.fetchRows _ _)).andThen fun rows => ?_
      refine (waits_done _).andThen fun m? => ?_
      split
      · exact waits_done _
      · exact (waits_modify _).andThen fun _ => waits_done _

theorem waits_backend (settings : Settings) (h : conn.Waits) : (backend settings conn).Waits where
  createIndex name dimension m _ := by
    refine (waits_done _).andThen fun table => Task.Waits.andThen ?_ fun _ => waits_modify _
    have htables : Task.Waits (do
        onService (conn.execute (createTable table dimension) [])
        onService (conn.execute (createVectorIndex name table m) []) :
        Task (State S) Failure Unit) :=
      (waits_onService (h.execute _ _)).andThen fun _ => waits_onService (h.execute _ _)
    refine waits_onConnection h (waits_inTransaction h ?_)
    dsimp only
    split
    · exact (waits_onService (h.execute _ _)).andThen fun _ => htables
    · exact htables
  describeIndex name _ := by
    refine (waits_done _).andThen fun table => waits_onConnection h ?_
    refine (waits_indexMetric h name table).andThen fun m => ?_
    refine (waits_onService (h.fetchValue _ _)).andThen fun dimension => ?_
    refine (waits_onService (h.fetchValue _ _)).andThen fun count => ?_
    exact (waits_done _).andThen fun _ => (waits_done _).andThen fun _ => waits_done _
  listIndexes _ :=
    waits_onConnection h ((waits_onService (h.fetchRows _ _)).andThen fun rows => waits_done _)
  deleteIndex name _ := by
    refine (waits_done _).andThen fun table => Task.Waits.andThen ?_ fun _ => waits_modify _
    exact waits_onConnection h (waits_onService (h.execute _ _))
  upsertChunk name c _ := by
    refine (waits_done _).andThen fun table => (waits_done _).andThen fun rows =>
      Task.Waits.andThen ?_ fun _ => waits_done _
    exact waits_onConnection h (waits_inTransaction h (waits_onService (h.executeMany _ _)))
  query q _ := by
    refine (waits_done _).andThen fun table => (waits_done _).andThen fun predicate =>
      (waits_done _).andThen fun parameters => Task.Waits.andThen ?_ fun _ => waits_done _
    refine waits_onConnection h ((waits_indexMetric h q.name table).andThen fun m => ?_)
    exact (waits_onService (h.fetchRows _ _)).andThen fun rows => waits_done _

end Postgres

/-! ## Qdrant -/

namespace Qdrant

/-- What the calls of the service wait for, if it is time, is over at a time from zero on. -/
structure Client.Waits (client : Client S) : Prop where
  collectionExists : ∀ name, (client.collectionExists name).Waits
  createCollection : ∀ name size distance, (client.createCollection name size distance).Waits
  deleteCollection : ∀ name, (client.deleteCollection name).Waits
  collection : ∀ name, (client.collection name).Waits
  collectionNames : client.collectionNames.Waits
  upsert : ∀ name points, (client.upsert name points).Waits
  search : ∀ q, (client.search q).Waits

variable {client : Client S}

theorem waits_onService {operation : String} {index : Option String}
    {t : Task (Known S) Failure α} (h : t.Waits) : (onService operation index t).Waits :=
  h.recover fun _ => waits_done _

theorem waits_collectionMetric (h : client.Waits) (name : String) :
    (collectionMetric client name).Waits := by
  refine waits_get.andThen fun k => ?_
  split
  · exact waits_done _
  · refine (Known.waits_ofService (h.collection name)).andThen fun c => ?_
    exact (waits_done _).andThen fun _ => (waits_modify _).andThen fun _ => waits_done _

theorem waits_backend (h : client.Waits) : (backend client).Waits where
  createIndex name dimension m _ := by
    refine Task.Waits.andThen (waits_onService ?_) fun _ => waits_modify _
    refine (Known.waits_ofService (h.collectionExists name)).andThen fun found => ?_
    have hcreate := Known.waits_ofService
      (h.createCollection name dimension (Mapper.qdrant.toNative m))
    dsimp only
    split
    · exact (waits_done _).andThen fun _ => hcreate
    · exact hcreate
  describeIndex name _ := by
    refine Task.Waits.andThen (waits_onService ?_) fun c => ?_
    · exact Known.waits_ofService (h.collection name)
    refine (waits_done _).andThen fun _ => (waits_done _).andThen fun _ =>
      (waits_modify _).andThen fun _ => ?_
    exact (waits_done _).andThen fun _ => (waits_done _).andThen fun _ => waits_done _
  listIndexes _ :=
    (waits_onService (Known.waits_ofService h.collectionNames)).andThen fun _ => waits_done _
  deleteIndex name _ := by
    refine Task.Waits.andThen (waits_onService ?_) fun _ => waits_modify _
    refine (Known.waits_ofService (h.collectionExists name)).andThen fun found => ?_
    have hdelete := Known.waits_ofService (h.deleteCollection name)
    dsimp only
    split
    · exact (waits_done _).andThen fun _ => hdelete
    · exact hdelete
  upsertChunk name c _ := by
    refine (waits_done _).andThen fun points => Task.Waits.andThen ?_ fun _ => waits_done _
    exact waits_onService (Known.waits_ofService (h.upsert name points))
  query q _ := by
    refine (waits_done _).andThen fun filter => Task.Waits.andThen ?_ fun _ => waits_done _
    refine waits_onService ((waits_collectionMetric h q.name).andThen fun m => ?_)
    exact (Known.waits_ofService (h.search _)).andThen fun _ => waits_done _

end Qdrant

/-! ## Vectorize -/

namespace Vectorize

/-- What the calls of the service wait for, if it is time, is over at a time from zero on. -/
structure Client.Waits (client : Client S) : Prop where
  create : ∀ name dimension metric, (client.create name dimension metric).Waits
  config : ∀ name, (client.config name).Waits
  info : ∀ name, (client.info name).Waits
  names : client.names.Waits
  delete : ∀ name, (client.delete name).Waits
  upsert : ∀ name lines, (client.upsert name lines).Waits
  search : ∀ q, (client.search q).Waits

variable {client : Client S}

theorem waits_onService {operation : String} {index : Option String} {t : Task S Failure α}
    (h : t.Waits) : (onService operation index t).Waits :=
  h.recover fun _ => waits_done _

theorem waits_backend (h : client.Waits) : (backend client).Waits where
  createIndex name dimension m _ := waits_onService (h.create _ _ _)
  describeIndex name _ := by
    refine Task.Waits.andThen (waits_onService ?_) fun _ => waits_done _
    exact (h.config name).andThen fun _ => (h.info name).andThen fun _ => waits_done _
  listIndexes _ := waits_onService (h.names.andThen fun _ => waits_done _)
  deleteIndex name _ := waits_onService (h.delete name)
  upsertChunk name c _ := (waits_done _).andThen fun _ =>
    (waits_onService (h.upsert _ _)).andThen fun _ => waits_done _
  query q _ := by
    refine (waits_done _).andThen fun _ => Task.Waits.andThen (waits_onService ?_) fun _ =>
      (waits_done _).andThen fun _ => waits_done _
    exact (h.config q.name).andThen fun _ => (h.search _).andThen fun _ => waits_done _

end Vectorize

/-! ## Delays -/

/-- How long the calls of a backend are held up. -/
structure Delays where
  createIndex : String → Nat → Metric → Time
  describeIndex : String → Time
  listIndexes : Time
  deleteIndex : String → Time
  upsertChunk : String → Batch.Chunk Record → Time
  query : QueryRequest → Time

/-- The backend with its calls held up. -/
def Backend.delayed {β : Type} (d : Delays) (B : Backend β) : Backend β where
  component := B.component
  capabilities := B.capabilities
  createIndex name dimension m ctx :=
    (Task.sleep (d.createIndex name dimension m)).andThen fun _ =>
      B.createIndex name dimension m ctx
  describeIndex name ctx :=
    (Task.sleep (d.describeIndex name)).andThen fun _ => B.describeIndex name ctx
  listIndexes ctx := (Task.sleep d.listIndexes).andThen fun _ => B.listIndexes ctx
  deleteIndex name ctx := (Task.sleep (d.deleteIndex name)).andThen fun _ => B.deleteIndex name ctx
  upsertChunk name c ctx :=
    (Task.sleep (d.upsertChunk name c)).andThen fun _ => B.upsertChunk name c ctx
  query q ctx := (Task.sleep (d.query q)).andThen fun _ => B.query q ctx

theorem Task.waits_sleep {σ ε : Type} (span : Time) : (Task.sleep span : Task σ ε Unit).Waits := by
  rw [sleep]
  split
  · next h => exact ⟨Number.le_of_lt h, waits_done _⟩
  · exact ⟨trivial, waits_done _⟩

theorem Backend.Waits.delayed {β : Type} {B : Backend β} (h : B.Waits) (d : Delays) :
    (B.delayed d).Waits where
  createIndex name dimension m ctx :=
    (Task.waits_sleep _).andThen fun _ => h.createIndex name dimension m ctx
  describeIndex name ctx := (Task.waits_sleep _).andThen fun _ => h.describeIndex name ctx
  listIndexes ctx := (Task.waits_sleep _).andThen fun _ => h.listIndexes ctx
  deleteIndex name ctx := (Task.waits_sleep _).andThen fun _ => h.deleteIndex name ctx
  upsertChunk name c ctx := (Task.waits_sleep _).andThen fun _ => h.upsertChunk name c ctx
  query q ctx := (Task.waits_sleep _).andThen fun _ => h.query q ctx

/-! ## All of them -/

/-- The backends of the library, held up or not. -/
inductive Adapter : {β : Type} → Backend β → Prop
  | memory (name : String) (copy : Fields → Except Fault Fields) :
      Adapter (Memory.backend name copy)
  | postgres {S : Type} (settings : Postgres.Settings) {conn : Postgres.Connection S} :
      conn.Waits → Adapter (Postgres.backend settings conn)
  | qdrant {S : Type} {client : Qdrant.Client S} : client.Waits → Adapter (Qdrant.backend client)
  | vectorize {S : Type} {client : Vectorize.Client S} :
      client.Waits → Adapter (Vectorize.backend client)
  | delayed {β : Type} {B : Backend β} (d : Delays) : Adapter B → Adapter (B.delayed d)

variable {β : Type} {B : Backend β}

/-- **What an adapter waits for is over at a time from zero on.** -/
theorem Adapter.waits (h : Adapter B) : B.Waits := by
  induction h with
  | memory name copy => exact Memory.waits_backend name copy
  | postgres settings h => exact Postgres.waits_backend settings h
  | qdrant h => exact Qdrant.waits_backend h
  | vectorize h => exact Vectorize.waits_backend h
  | delayed d _ ih => exact ih.delayed d

theorem Adapter.answersAtOnce (h : Adapter B) (config : Config) (s : Session β) :
    Store.AnswersAtOnce ⟨B, config⟩ s := by
  induction h with
  | delayed d _ ih => exact ih s
  | _ => exact ⟨_, _, rfl⟩

theorem Adapter.told_backend (h : Adapter B) (c : Context) : B.told c = B := by
  induction h with
  | @delayed β B d _ ih => exact congrArg (Backend.delayed d) ih
  | _ => rfl

/-- An adapter does the same whatever the context. -/
theorem Adapter.told (h : Adapter B) (c : Context) (config : Config) :
    Store.told c ⟨B, config⟩ = ⟨B, config⟩ :=
  congrArg (Store.mk · config) (h.told_backend c)

end VectorStore
