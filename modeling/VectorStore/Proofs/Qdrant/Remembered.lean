/-
  What is remembered of the collections.

  A store asks the service for the metric of a collection once, and then remembers it.  The service
  is a client of which only this is assumed: a call that succeeds has done what it is for, and a
  call that fails or is cut short has changed no collection (`Client.Serves`).

  * `Coherent`: every collection of which a metric is remembered is there, and has that metric;
  * `keeps_backend`: the tasks of the store keep what is remembered coherent, and a query converts
    its scores by the metric that the collection has;
  * `uses_coherent`: so it is after any use of the store, whatever fails.
-/
import Mathlib.Logic.Function.Basic
import VectorStore.Proofs.Store.Clients
import VectorStore.Proofs.Store.Keeping

namespace VectorStore.Qdrant

open VectorStore.Task (Frame Leaves)

variable {S α β : Type}

/-! ## The service -/

/-- The collections of a service by name, each with its vectors. -/
abbrev Collections := String → Option Vectors

/-- The metric of a collection that is there and whose distance stands for a metric. -/
def Collections.metric? (cs : Collections) (name : String) : Option Metric :=
  (cs name).bind fun v => (shapeOf v >>= metricOf).toOption

/-- A call that succeeds with its effect on the collections or fails without. -/
def Does (C : S → Collections) (effect : Collections → α → S → Prop)
    (t : Task S Failure α) : Prop :=
  ∀ s, t.Keeps (.shared fun s' => C s' = C s) (Leaves (fun s' => C s' = C s) (effect (C s))) s

/-- A call that leaves the collections alone, and of which something is told besides. -/
def Asks (C : S → Collections) (tells : Collections → α → S → Prop) (t : Task S Failure α) : Prop :=
  Does C (fun before a s => C s = before ∧ tells before a s) t

/-- **What is assumed of the service**: `C` are its collections, and `finds` is what its searches
    may find.  What it answers to the question whether a collection exists does not matter. -/
structure Client.Serves (client : Client S) (C : S → Collections)
    (finds : Search → List Found → S → Prop) : Prop where
  collectionExists : ∀ name, Asks C (fun _ _ _ => True) (client.collectionExists name)
  createCollection : ∀ name (size : Nat) distance, Does C (fun before _ s =>
    ∃ native : NativeMetric, native.value = .text distance ∧
      C s = Function.update before name (some (.single ⟨.int size, native⟩)))
    (client.createCollection name size distance)
  deleteCollection : ∀ name, Does C (fun before _ s => C s = Function.update before name none)
    (client.deleteCollection name)
  collection : ∀ name,
    Asks C (fun before c _ => before name = some c.vectors) (client.collection name)
  collectionNames : Asks C (fun _ _ _ => True) client.collectionNames
  upsert : ∀ name points, Asks C (fun _ _ _ => True) (client.upsert name points)
  search : ∀ q, Asks C (fun _ found s => finds q found s) (client.search q)
  close : Asks C (fun _ _ _ => True) client.close

/-! ## Coherence -/

/-- Every metric that is remembered is that of a collection. -/
def Coherent (C : S → Collections) (k : Known S) : Prop :=
  ∀ name m, k.metric? name = some m → (C k.service).metric? name = some m

theorem coherent_start (C : S → Collections) (s : S) : Coherent C (Known.start s) := nofun

variable {C : S → Collections} {k k' : Known S} {name : String} {m : Metric}

/-- Nothing has happened to the collections, nor to what is remembered of them. -/
def Same (C : S → Collections) (k k' : Known S) : Prop :=
  k'.metrics = k.metrics ∧ C k'.service = C k.service

theorem Same.coherent (h : Same C k k') (hk : Coherent C k) : Coherent C k' := by
  intro name m hm
  rw [Known.metric?, h.1] at hm
  rw [h.2]
  exact hk name m hm

/-- What has happened has happened to one collection, and nothing is remembered of it yet. -/
def Elsewhere (C : S → Collections) (name : String) (k k' : Known S) : Prop :=
  k'.metrics = k.metrics ∧ ∀ other, other ≠ name → C k'.service other = C k.service other

/-- The metric of another collection may be taken from memory. -/
theorem Elsewhere.metric? (h : Elsewhere C name k k') (hk : Coherent C k) {other : String}
    (hn : other ≠ name) (hm : k'.metric? other = some m) :
    (C k'.service).metric? other = some m := by
  rw [Known.metric?, h.1] at hm
  rw [Collections.metric?, h.2 other hn]
  exact hk other m hm

/-- The metric that the collection has now may be remembered. -/
theorem Elsewhere.remember (h : Elsewhere C name k k') (hk : Coherent C k)
    (hm : (C k'.service).metric? name = some m) : Coherent C (k'.remember name m) := by
  intro other m' hm'
  by_cases hn : other = name
  · subst hn
    rw [Known.metric?_remember] at hm'
    cases hm'
    exact hm
  · rw [Known.metric?_remember_of_ne k' m hn] at hm'
    exact h.metric? hk hn hm'

/-- Once its metric is forgotten, the collection may be gone. -/
theorem Elsewhere.forget (h : Elsewhere C name k k') (hk : Coherent C k) :
    Coherent C (k'.forget name) := by
  intro other m hm
  by_cases hn : other = name
  · rw [hn, Known.metric?_forget] at hm
    cases hm
  · rw [Known.metric?_forget_of_ne k' hn] at hm
    exact h.metric? hk hn hm

theorem Coherent.remember (hk : Coherent C k) (hm : (C k.service).metric? name = some m) :
    Coherent C (k.remember name m) := by
  have hsame : Elsewhere C name k k := ⟨rfl, fun _ _ => rfl⟩
  exact hsame.remember hk hm

theorem metric?_of_collection {cs : Collections} {v : Vectors} (hv : cs name = some v)
    (hm : (shapeOf v >>= metricOf) = .ok m) : cs.metric? name = some m := by
  rw [Collections.metric?, hv, Option.bind_some, hm]
  rfl

/-- The metric of a collection that was created for a metric. -/
theorem metric?_of_created {cs : Collections} {size : Value} {native : NativeMetric}
    (hc : cs name = some (.single ⟨size, native⟩))
    (hvalue : native.value = .text (Mapper.qdrant.toNative m)) : cs.metric? name = some m := by
  refine metric?_of_collection hc ?_
  show metricOf ⟨size, native⟩ = .ok m
  rw [metricOf, Mapper.qdrant.fromNative_toNative hvalue]

/-! ## Tasks of the store -/

/-- What goes on around a task of the store: nothing happens to the collections while it waits. -/
def memory (C : S → Collections) : Frame (Known S) := ⟨Same C, Coherent C⟩

/-- A call of the service. -/
theorem keeps_call {effect : Collections → α → S → Prop} {t : Task S Failure α}
    (h : Does C effect t) (hk : Coherent C k) : (Known.ofService t).Keeps (memory C)
      (Leaves (Coherent C) fun a k' => k'.metrics = k.metrics ∧ effect (C k.service) a k'.service)
      k := by
  let rest (k' : Known S) : Prop := k'.metrics = k.metrics
  have hinv (k' : Known S) (hrest : rest k') (hs : C k'.service = C k.service) :
      Coherent C k' := Same.coherent ⟨hrest, hs⟩ hk
  have hdrift (k₁ k₂ : Known S) (hrest : rest k₁) (hs : C k₁.service = C k.service)
      (hsame : Same C k₁ k₂) : rest k₂ ∧ C k₂.service = C k.service :=
    ⟨hsame.1.trans hrest, hsame.2.trans hs⟩
  have hrest : rest k := rfl
  refine Task.Keeps.zoom Known.part_service (fun _ _ hrest => hrest) hinv hdrift ?_ hrest
    (h k.service)
  rintro k' (f | a) hrest hr
  · exact hinv k' hrest hr
  · exact ⟨hrest, hr⟩

/-- What the service is asked, and what it then tells. -/
theorem keeps_asked {tells : Collections → α → S → Prop} {t : Task S Failure α}
    (h : Asks C tells t) (hk : Coherent C k) : (Known.ofService t).Keeps (memory C)
      (Leaves (Coherent C) fun a k' => Same C k k' ∧ tells (C k.service) a k'.service) k := by
  refine (keeps_call h hk).leaves (fun _ hk' => hk') ?_
  rintro a k' ⟨hm, hc, ha⟩
  exact ⟨⟨hm, hc⟩, ha⟩

variable {client : Client S} {finds : Search → List Found → S → Prop}

theorem keeps_collectionMetric (h : client.Serves C finds) (hk : Coherent C k) (name : String) :
    (collectionMetric client name).Keeps (memory C)
      (Leaves (Coherent C) fun m k' => Coherent C k' ∧ (C k'.service).metric? name = some m) k := by
  show Task.Keeps _ _ (Task.andThen (.read fun s => .ret s) _) _
  simp only [Task.andThen, Task.ret, Task.Keeps]
  split
  · next m hm => exact Task.keeps_pure ⟨hk, hk name m hm⟩
  · refine (keeps_asked (h.collection name) hk).bind ?_
    rintro c k' ⟨hsame, hc⟩
    have hk' : Coherent C k' := hsame.coherent hk
    refine Task.keeps_ofExcept hk' fun m hm => ?_
    have hmetric : (C k'.service).metric? name = some m :=
      metric?_of_collection (hsame.2 ▸ hc) hm
    exact Task.keeps_modify (Task.keeps_pure ⟨hk'.remember hmetric, hmetric⟩)

theorem keeps_create (h : client.Serves C finds) (hk : Coherent C k) (name : String)
    (dimension : Nat) (m : Metric) : (create client name dimension m).Keeps (memory C)
      (Leaves (Coherent C) fun _ k' => Coherent C k') k := by
  let created (_ : Unit) (k' : Known S) : Prop :=
    Elsewhere C name k k' ∧ (C k'.service).metric? name = some m
  refine Task.Keeps.failsThen created ?_ ?_
  · refine (keeps_asked (h.collectionExists name) hk).bind ?_
    rintro found k' ⟨hsame, -⟩
    have hk' : Coherent C k' := hsame.coherent hk
    cases found with
    | true => exact hk'
    | false =>
      refine (keeps_call (h.createCollection name dimension _) hk').leaves (fun _ hk => hk) ?_
      rintro _ k'' ⟨hmetrics, native, hvalue, hc⟩
      rw [hsame.2] at hc
      have hself : C k''.service name = some (.single ⟨.int dimension, native⟩) := by
        rw [hc, Function.update_self]
      refine ⟨⟨hmetrics.trans hsame.1, fun other hn => ?_⟩, metric?_of_created hself hvalue⟩
      rw [hc, Function.update_of_ne hn]
  · rintro _ k' ⟨helsewhere, hm⟩
    exact helsewhere.remember hk hm

theorem keeps_delete (h : client.Serves C finds) (hk : Coherent C k) (name : String) :
    (delete client name).Keeps (memory C) (Leaves (Coherent C) fun _ k' => Coherent C k') k := by
  refine Task.Keeps.failsThen (fun _ k' => Elsewhere C name k k') ?_ ?_
  · refine (keeps_asked (h.collectionExists name) hk).bind ?_
    rintro found k' ⟨hsame, -⟩
    have hk' : Coherent C k' := hsame.coherent hk
    cases found with
    | false => exact hk'
    | true =>
      refine (keeps_call (h.deleteCollection name) hk').leaves (fun _ hk => hk) ?_
      rintro _ k'' ⟨hmetrics, hc⟩
      refine ⟨hmetrics.trans hsame.1, fun other hn => ?_⟩
      rw [hc, Function.update_of_ne hn, hsame.2]
  · rintro _ k' helsewhere
    exact helsewhere.forget hk

theorem keeps_describe (h : client.Serves C finds) (hk : Coherent C k) (name : String) :
    (describe client name).Keeps (memory C) (Leaves (Coherent C) fun _ k' => Coherent C k') k := by
  refine Task.Keeps.bind (keeps_asked (h.collection name) hk).fails ?_
  rintro c k' ⟨hsame, hc⟩
  have hk' : Coherent C k' := hsame.coherent hk
  refine Task.keeps_ofExcept hk' fun shape hshape => Task.keeps_ofExcept hk' fun m hm => ?_
  have hmetric : (C k'.service).metric? name = some m := by
    refine metric?_of_collection (hsame.2 ▸ hc) ?_
    rw [hshape]
    exact hm
  have hremembered : Coherent C (k'.remember name m) := hk'.remember hmetric
  refine Task.keeps_modify (Task.keeps_ofExcept hremembered fun dimension _ => ?_)
  exact Task.keeps_ofExcept hremembered fun count _ => Task.keeps_pure hremembered

theorem keeps_list (h : client.Serves C finds) (hk : Coherent C k) :
    (list client).Keeps (memory C) (Leaves (Coherent C) fun _ k' => Coherent C k') k := by
  refine Task.Keeps.bind (keeps_asked h.collectionNames hk).fails ?_
  rintro names k' ⟨hsame, -⟩
  have hk' : Coherent C k' := hsame.coherent hk
  rcases hnames : names.mapM Value.toText with f | texts
  · exact hk'
  · exact hk'

/-- The scores that a query finds are converted by the metric that the collection has. -/
def Converts (C : S → Collections) (finds : Search → List Found → S → Prop) (q : QueryRequest)
    (k : Known S) (found : List Match) : Prop :=
  ∃ m filter points, (C k.service).metric? q.name = some m ∧
    finds ⟨q.name, q.vector, q.topK, filter, q.includeVector⟩ points k.service ∧
      points.mapM (matchOf m q.includeVector) = .ok found

theorem keeps_search (h : client.Serves C finds) (hk : Coherent C k) (q : QueryRequest) :
    (search client q).Keeps (memory C)
      (Leaves (Coherent C) fun found k' => Coherent C k' ∧ Converts C finds q k' found) k := by
  refine Task.keeps_ofExcept hk fun filter _ => ?_
  let searched (r : Metric × List Found) (k' : Known S) : Prop :=
    Coherent C k' ∧ (C k'.service).metric? q.name = some r.1 ∧
      finds ⟨q.name, q.vector, q.topK, filter, q.includeVector⟩ r.2 k'.service
  refine Task.Keeps.failsThen searched ?_ ?_
  · refine (keeps_collectionMetric h hk q.name).bind ?_
    rintro m k' ⟨hk', hm⟩
    refine (keeps_asked (h.search _) hk').bind ?_
    rintro points k'' ⟨hsame, hpoints⟩
    refine Task.keeps_pure ⟨hsame.coherent hk', ?_, hpoints⟩
    rw [hsame.2]
    exact hm
  · rintro ⟨m, points⟩ k' ⟨hk', hm, hpoints⟩
    show Leaves _ _ k' ((points.mapM (matchOf m q.includeVector)).mapError Failure.fault)
    rcases hfound : points.mapM (matchOf m q.includeVector) with f | found
    · exact hk'
    · exact ⟨hk', m, filter, points, hm, hpoints, hfound⟩

/-- The writers of chunks leave the collections alone, and what is remembered of them. -/
theorem keeps_writeChunk (h : client.Serves C finds) {k₀ : Known S} (hk : Same C k₀ k)
    (name : String) (c : Batch.Chunk Record) : (writeChunk client name c).Keeps
      (.shared (Same C k₀)) (Leaves (Same C k₀) fun _ k' => Same C k₀ k') k := by
  refine Task.keeps_ofExcept hk fun points _ => ?_
  have hcall : (Known.ofService (client.upsert name points)).Keeps (.shared (Same C k₀))
      (Leaves (Same C k₀) fun _ k' => Same C k₀ k') k := by
    let rest (k' : Known S) : Prop := k'.metrics = k₀.metrics
    have hinv (k' : Known S) (hrest : rest k') (hs : C k'.service = C k.service) : Same C k₀ k' :=
      ⟨hrest, hs.trans hk.2⟩
    have hdrift (k₁ k₂ : Known S) (_ : rest k₁) (_ : C k₁.service = C k.service)
        (hsame : Same C k₀ k₂) : rest k₂ ∧ C k₂.service = C k.service :=
      ⟨hsame.1, hsame.2.trans hk.2.symm⟩
    refine Task.Keeps.zoom Known.part_service (fun _ _ hrest => hrest) hinv hdrift ?_ hk.1
      (h.upsert name points k.service)
    rintro k' (f | a) hrest hr
    · exact hinv k' hrest hr
    · exact hinv k' hrest hr.1
  exact Task.Keeps.bind hcall.fails fun _ _ hsame => Task.keeps_pure hsame

/-- **The store keeps what it remembers coherent.** -/
theorem keeps_backend (h : client.Serves C finds) :
    (backend client).Keeps (memory C) (Converts C finds) where
  stays _ _ := ⟨rfl, rfl⟩
  capabilities _ hk := hk
  createIndex name dimension m _ _ hk := keeps_create h hk name dimension m
  describeIndex name _ _ hk := keeps_describe h hk name
  listIndexes _ _ hk := keeps_list h hk
  deleteIndex name _ _ hk := keeps_delete h hk name
  upsertChunk k₀ hk₀ := ⟨Same C k₀, ⟨rfl, rfl⟩, fun _ hsame => hsame.coherent hk₀,
    fun name c _ _ hsame => keeps_writeChunk h hsame name c⟩
  query q _ _ hk := keeps_search h hk q

/-! ## Uses of the store -/

/-- What is done with a store: something is asked of it, or its client is closed. -/
inductive Use where
  | call (c : Call)
  | close

/-- The session after a use of the store. -/
def use (client : Client S) (config : Config) (s : Session (Known S)) : Use → Session (Known S)
  | .call c => (Store.answer ⟨backend client, config⟩ c s).2
  | .close => ((Session.ofBackend (close client)).run s).2

variable {config : Config} {s : Session (Known S)}

/-- A call leaves what is remembered coherent, and a query is answered with the best matches, their
    scores converted by the metric of the collection. -/
theorem answer_coherent (h : client.Serves C finds) (hs : Coherent C s.backend) (c : Call) :
    let r := Store.answer ⟨backend client, config⟩ c s
    Coherent C r.2.backend ∧ ∀ results, r.1 = .ok (.found results) →
      ∃ name ∈ c.request.index?, Store.Found (Converts C finds) name results r.2.backend := by
  let st : Store (Known S) := ⟨backend client, config⟩
  have hbackend : st.backend.Keeps (memory C) (Converts C finds) := keeps_backend h
  let s₀ : Session (Known S) := Clocked.atTime c.time s
  have hs₀ : Coherent C s₀.backend := hs
  have hkept : Store.Upholds (Coherent C) (st.perform c.ctx c.request) s₀
      (Store.Answers (Converts C finds) c.request) := Store.upholds_perform hbackend hs₀ c.request
  exact ⟨hkept.1, fun results hresults => hkept.2 _ hresults results rfl⟩

theorem use_coherent (h : client.Serves C finds) (hs : Coherent C s.backend) (u : Use) :
    Coherent C (use client config s u).backend := by
  cases u with
  | call c => exact (answer_coherent h hs c).1
  | close =>
    have hclose : (close client).Keeps (memory C)
        (Leaves (Coherent C) fun _ k => Coherent C k ∧ True) s.backend :=
      (keeps_asked h.close hs).leaves (fun _ hk => hk) fun _ _ hk => ⟨hk.1.coherent hs, trivial⟩
    have hstays (k : Known S) (_ : Coherent C k) : Same C k k := ⟨rfl, rfl⟩
    exact (Store.upholds_bounded hstays hclose none).1

/-- **Whatever is done with a store, and whatever fails, its memory is right**: every metric that is
    remembered is that of a collection, and every query converts the scores of what was found by the
    metric that the collection has. -/
theorem uses_coherent (h : client.Serves C finds) (config : Config) (service : S) (sink : Sink)
    (uses : List Use) :
    let s := uses.foldl (use client config) (Session.start (Known.start service) sink)
    (∀ name m, s.backend.metric? name = some m → (C s.backend.service).metric? name = some m) ∧
      ∀ c results s', Store.answer ⟨backend client, config⟩ c s = (.ok (.found results), s') →
        ∃ name ∈ c.request.index?, Store.Found (Converts C finds) name results s'.backend := by
  have hsteps (s : Session (Known S)) (hs : Coherent C s.backend) :
      Coherent C (uses.foldl (use client config) s).backend := by
    induction uses generalizing s with
    | nil => exact hs
    | cons u uses ih => exact ih _ (use_coherent h hs u)
  have hend := hsteps (Session.start (Known.start service) sink) (coherent_start C service)
  refine ⟨hend, fun c results s' hanswer => ?_⟩
  obtain ⟨-, hfound⟩ := answer_coherent h hend c
  rw [hanswer] at hfound
  exact hfound results rfl

/-- A point that is found everywhere. -/
def onePoint : Found := ⟨.int 7, .float 0.5, .null, .null⟩

/-- A service that takes time to create a collection. -/
def shelf : Client Collections where
  collectionExists name := .read fun cs => .ret (cs name).isSome
  createCollection name size distance := do
    .await (.passed 1)
    .modify fun cs => Function.update cs name (some (.single ⟨.int size, .plain (.text distance)⟩))
  deleteCollection name := .modify fun cs => Function.update cs name none
  collection name := .read fun cs => match cs name with
    | some vectors => .ret ⟨vectors, .int 0⟩
    | none => .fail (.fault .notImplemented)
  collectionNames := .ret []
  upsert _ _ := .ret ()
  search _ := .ret [onePoint]
  close := .ret ()

theorem serves_shelf : shelf.Serves id fun _ found _ => found = [onePoint] where
  collectionExists _ _ := ⟨rfl, trivial⟩
  createCollection name size distance cs := by
    refine ⟨rfl, fun cs' hcs => ⟨hcs, .plain (.text distance), rfl, ?_⟩⟩
    rw [id, id, show cs' = cs from hcs]
  deleteCollection _ _ := rfl
  collection name cs := by
    show Task.Keeps _ _ (match cs name with | some _ => _ | none => _) cs
    split
    · next vectors hname => exact ⟨rfl, hname⟩
    · exact rfl
  collectionNames _ := ⟨rfl, trivial⟩
  upsert _ _ _ := ⟨rfl, trivial⟩
  search _ _ := ⟨rfl, rfl⟩
  close _ := ⟨rfl, trivial⟩

/-- An index is asked, deleted and made again with another metric. -/
def madeAnew : List Use :=
  [.call ⟨.createIndex (.text "docs") (.int 1) (.text "cosine"), none, 0⟩,
   .call ⟨.query (.text "docs") (.list [.float 0.5]) (.int 10) .null (.bool false), none, 1⟩,
   .call ⟨.deleteIndex (.text "docs"), none, 2⟩,
   .call ⟨.createIndex (.text "docs") (.int 1) (.text "euclidean"), none, 3⟩]

theorem uses_coherent_madeAnew :
    let s := madeAnew.foldl (use shelf .default)
      (Session.start (Known.start fun _ => none) Session.takesAll)
    shelf.Serves id (fun _ found _ => found = [onePoint]) ∧
      s.backend.metric? "docs" = some .euclidean ∧
      ((∀ name m, s.backend.metric? name = some m → s.backend.service.metric? name = some m) ∧
        ∀ c results s', Store.answer ⟨backend shelf, .default⟩ c s = (.ok (.found results), s') →
          ∃ name ∈ c.request.index?,
            Store.Found (Converts id fun _ found _ => found = [onePoint]) name results
              s'.backend) :=
  ⟨serves_shelf, by decide, uses_coherent serves_shelf .default (fun _ => none) Session.takesAll
    madeAnew⟩

end VectorStore.Qdrant
