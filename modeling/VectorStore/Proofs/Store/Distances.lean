/-
  The order of a database's results.

  A database answers a query with the nearest records first.  Their distances become similarities,
  and the store sorts by these once more.

  * `ofOperator_le`, `ofScore_le`: the greater distance has the lower similarity, or the same, as
    the doubles are rounded;
  * `topMatches_eq_self`: so sorting leaves the records where they are, those alike included;
  * `run_query_reply`: a query answers with what its backend makes of the reply of a service, if
    sorting and cutting change nothing;
  * `query_keeps_order`: so with Postgres for any metric, and with the other two services for the
    euclidean one, a query answers in the order of the service.
-/
import VectorStore.Proofs.Batch.Placement
import VectorStore.Proofs.Number.Arithmetic
import VectorStore.Proofs.Store.Best
import VectorStore.Proofs.Store.Blocks
import VectorStore.Proofs.Task.Failing

namespace VectorStore

/-! ## Similarities -/

theorem nonneg_atLeastZero {x : Float} : 0 ≤ atLeastZero x := by
  rw [atLeastZero]
  split_ifs with hx
  · exact Number.le_of_lt hx
  · exact Number.le_refl Number.isNumber_zero

theorem atLeastZero_le {x y : Float} (h : x ≤ y) : atLeastZero x ≤ atLeastZero y := by
  by_cases hx : 0 < x
  · have hy : 0 < y := by
      refine Number.lt_of_not_le (Number.isNumber_of_le h).2 Number.isNumber_zero fun hy => ?_
      exact Number.not_le_of_lt hx (Number.le_trans h hy)
    rwa [atLeastZero, atLeastZero, if_pos hx, if_pos hy]
  · have hzero : atLeastZero x = 0 := by rw [atLeastZero, if_neg hx]
    rw [hzero]
    exact nonneg_atLeastZero

/-- **The greater distance has no higher similarity.** -/
theorem ofDistance_le {x y : Float} (h : x ≤ y) : ofDistance y ≤ ofDistance x := by
  have hfinite : Number.IsFinite (1 : Float).toModel.unpack := trivial
  have hle : 1 + atLeastZero x ≤ 1 + atLeastZero y :=
    Number.add_le_add_left hfinite (atLeastZero_le h)
  have hone : (1 : Float) + 0 ≤ 1 + atLeastZero x :=
    Number.add_le_add_left hfinite nonneg_atLeastZero
  have hpos : 0 < Number.amountOf (1 + atLeastZero x) := by
    refine Number.amountOf_pos (Number.isNumber_of_le hle).1 fun hzero => ?_
    have hnot : ¬(1 : Float) + 0 ≤ 0 := by decide +kernel
    exact hnot (Number.le_trans hone hzero)
  exact Number.div_le_div_left hfinite
    (Number.amountOf_pos rfl (by decide +kernel)) hpos hle

/-- **The greater number of the operator has no higher similarity.** -/
theorem ofOperator_le (m : Metric) {x y : Float} (h : x ≤ y) :
    ofOperator m y ≤ ofOperator m x := by
  cases m with
  | cosine => exact Number.sub_le_sub_left trivial h
  | euclidean => exact ofDistance_le h
  | dotproduct => exact Number.neg_le_neg h

/-! ## Tasks with one more result -/

namespace Task

variable {σ τ ε α γ : Type}

theorem bind_andThen {β : Type} (t : Task σ ε α) (f : α → Task σ ε β) (g : β → Task σ ε γ) :
    (t >>= f).andThen g = t >>= fun a => (f a).andThen g :=
  andThen_assoc t f g

theorem withoutWait_andThen_ofExcept (late : ε) (t : Task σ ε α) (g : α → Except ε γ) :
    (t.andThen fun a => .ofExcept (g a)).withoutWait late =
      (t.withoutWait late).andThen fun a => .ofExcept (g a) := by
  induction t with
  | done r => cases r <;> rfl
  | read next ih => exact congrArg Task.read (funext ih)
  | write s next ih => exact congrArg (Task.write s) ih
  | wait u abandon next ih => rfl

theorem within_andThen_ofExcept [Clocked σ] (d : Deadline ε) (t : Task σ ε α)
    (g : α → Except ε γ) :
    (t.andThen fun a => .ofExcept (g a)).within d =
      (t.within d).andThen fun a => .ofExcept (g a) := by
  induction t with
  | done r => cases r <;> rfl
  | read next ih => exact congrArg Task.read (funext ih)
  | write s next ih => exact congrArg (Task.write s) ih
  | wait u abandon next ih =>
    refine congrArg Task.read (funext fun s => ?_)
    dsimp only
    rcases u.due? (Clocked.clock s) with _ | time
    · exact congrArg (Task.wait u abandon) ih
    dsimp only
    split_ifs
    · rfl
    · exact congrArg (Task.wait _ abandon) (withoutWait_andThen_ofExcept d.late next g)
    · exact congrArg (Task.wait _ abandon) ih

theorem zoom_andThen_ofExcept (view : τ → σ) (update : σ → τ → τ) (t : Task σ ε α)
    (g : α → Except ε γ) :
    (t.andThen fun a => .ofExcept (g a)).zoom view update =
      (t.zoom view update).andThen fun a => .ofExcept (g a) := by
  induction t with
  | done r => cases r <;> rfl
  | read next ih => exact congrArg Task.read (funext fun s => ih _)
  | write s next ih =>
    exact congrArg Task.read (funext fun t => congrArg (Task.write (update s t)) ih)
  | wait u abandon next ih => exact congrArg (Task.wait _ _) ih

theorem bounded_andThen_ofExcept [Clocked σ] (d : Option (Deadline ε)) (t : Task σ ε α)
    (g : α → Except ε γ) :
    (t.andThen fun a => .ofExcept (g a)).bounded d =
      (t.bounded d).andThen fun a => .ofExcept (g a) := by
  cases d with
  | none => rfl
  | some d => exact within_andThen_ofExcept d t g

end Task

namespace Store

variable {α β γ : Type} {st : Store β} {s : Session β} {ctx : Option Context}
  {name vector topK filter includeVector : Value} {q : QueryRequest}

/-! ## What the backend makes of a reply -/

/-- Within its deadline a task comes to what is made of its reply. -/
theorem reply_andThen_ofExcept {t : Task β Failure α} {g : α → Except Failure γ} {a : α} {b : γ}
    (h : st.reply ctx s t = .ok a) (hg : g a = .ok b) :
    st.reply ctx s (t.andThen fun a => .ofExcept (g a)) = .ok b := by
  rw [reply] at *
  generalize (st.asked s).2 = s at *
  have hguarded (d : Option (Task.Deadline Failure))
      (h : ((((Session.ofBackend t).bounded d).recover fun f => .fail (asTimeout f)).run s).1 =
        .ok a) :
      ((((Session.ofBackend (t.andThen fun a => .ofExcept (g a))).bounded d).recover
        fun f => .fail (asTimeout f)).run s).1 = .ok b := by
    have hafter : (Session.ofBackend (t.andThen fun a => .ofExcept (g a))).bounded d =
        ((Session.ofBackend t).bounded d).andThen fun a => .ofExcept (g a) := by
      rw [Session.ofBackend, Task.zoom_andThen_ofExcept, Task.bounded_andThen_ofExcept]
      rfl
    rw [Task.run_recover] at h
    rw [hafter, Task.run_recover, Task.run_andThen]
    rcases hrun : ((Session.ofBackend t).bounded d).run s with ⟨f | a', s'⟩ <;> rw [hrun] at h
    · cases h
    · cases h
      dsimp only
      rw [hg]
      rfl
  cases ctx with
  | none => exact hguarded none h
  | some c =>
    rw [byDeadline, withDeadline, Task.run] at *
    dsimp only at *
    generalize c.remaining s.now >>= Budget.ofMilliseconds = budget at *
    rcases budget with f | _ | _ | span
    · cases h
    · exact hguarded none h
    · cases h
    · exact hguarded _ h

/-- A query answers with what is made of the reply of a service, if the store would leave it as it
    is. -/
theorem run_query_reply {t : Task β Failure α} {g : α → Except Failure (List Match)} {a : α}
    {found : List Match}
    (hback : st.backend.query q ctx = t.andThen fun a => .ofExcept (g a))
    (h : Reaches st s ctx name vector topK filter includeVector q)
    (hreply : st.reply ctx s t = .ok a) (hg : g a = .ok found)
    (hkeep : topMatches q.topK found = found) :
    ∃ s', (st.query name vector topK filter includeVector ctx).run s = (.ok found, s') := by
  have hfound := run_query_found h (hback ▸ reply_andThen_ofExcept hreply hg)
  rwa [hkeep] at hfound

/-! ## The nearest first -/

/-- There are at most `k` results, and the distances read from them are numbers in ascending
    order. -/
structure NearestFirst (k : ℕ) (distance : α → Except Fault Float) (results : List α) : Prop where
  length_le : results.length ≤ k
  ascending : ∃ ds, results.mapM distance = .ok ds ∧ (∀ d ∈ ds, (d == d) = true) ∧
    ds.Pairwise (· ≤ ·)

/-- Matches whose scores do not ascend stay where they are. -/
theorem topMatches_eq_self {k : ℕ} {found : List Match} (hlength : found.length ≤ k)
    (hnum : ∀ m ∈ found, (m.score == m.score) = true)
    (hsorted : found.Pairwise fun a b => b.score ≤ a.score) : topMatches k found = found := by
  have hsort : found.mergeSort (atLeast Match.score) = found := by
    refine List.mergeSort_of_pairwise (hsorted.imp_of_mem fun {a b} ha hb hle => ?_)
    rw [atLeast_eq (hnum a ha) (hnum b hb), Bool.not_eq_true', decide_eq_false_iff_not]
    exact (Number.le_iff_not_lt (hnum b hb) (hnum a ha)).1 hle
  rw [topMatches, ranked_eq (List.all_eq_true.2 hnum), sortDescending_eq hnum, hsort,
    List.take_of_length_le hlength]

theorem map_score_eq {distance : α → Except Fault Float} {read : α → Except Fault Match}
    {similarity : Float → Float}
    (hscore : ∀ a m, read a = .ok m → ∃ d, distance a = .ok d ∧ m.score = similarity d)
    {results : List α} {found : List Match} {ds : List Float}
    (hread : List.Forall₂ (fun a m => read a = .ok m) results found)
    (hds : List.Forall₂ (fun a d => distance a = .ok d) results ds) :
    found.map Match.score = ds.map similarity := by
  induction hread generalizing ds with
  | nil =>
    cases hds
    rfl
  | @cons a m _ _ hm _ ih =>
    cases hds with
    | cons hd hds =>
      obtain ⟨d, hd', heq⟩ := hscore a m hm
      rw [hd] at hd'
      cases hd'
      rw [List.map_cons, List.map_cons, ih hds, heq]

/-- **The nearest first stay where they are**, if the greater distance has no higher score. -/
theorem NearestFirst.topMatches_eq {k : ℕ} {distance : α → Except Fault Float}
    {read : α → Except Fault Match} {similarity : Float → Float} {results : List α}
    {found : List Match} (h : NearestFirst k distance results)
    (hmono : ∀ x y, x ≤ y → similarity y ≤ similarity x)
    (hscore : ∀ a m, read a = .ok m → ∃ d, distance a = .ok d ∧ m.score = similarity d)
    (hread : results.mapM read = .ok found) : topMatches k found = found := by
  obtain ⟨hlength, ds, hds, hnum, hasc⟩ := h
  have hscores : found.map Match.score = ds.map similarity :=
    map_score_eq hscore (Batch.forall₂_of_mapM hread) (Batch.forall₂_of_mapM hds)
  have hself (d : Float) (hd : d ∈ ds) : (similarity d == similarity d) = true :=
    (Number.isNumber_of_le (hmono d d (Number.le_refl (hnum d hd)))).1
  refine topMatches_eq_self ((Batch.forall₂_of_mapM hread).length_eq ▸ hlength) (fun m hm => ?_) ?_
  · have hmem : m.score ∈ ds.map similarity := hscores ▸ List.mem_map_of_mem hm
    obtain ⟨d, hd, heq⟩ := List.mem_map.1 hmem
    rw [← heq]
    exact hself d hd
  · rw [← List.pairwise_map (f := Match.score) (R := fun x y => y ≤ x), hscores, List.pairwise_map]
    exact hasc.imp (hmono _ _)

end Store

/-! ## The three services -/

namespace Postgres

variable {S : Type}

/-- The distance of a row. -/
def distanceOf (row : Value) : Except Fault Float := do
  (← row.field "distance").toFloat

/-- The metric of the index and the rows that the database returns for a query. -/
def nearestRows (settings : Settings) (conn : Connection S) (q : QueryRequest) :
    Task (State S) Failure (Metric × Value) := do
  let table ← .ofExcept (tableOf settings q.name)
  let predicate ← .ofExcept (predicateOf q)
  let parameters ← faulty (queryParameters q predicate)
  onConnection settings conn "query" (some q.name) do
    let m ← indexMetric settings conn q.name table
    let rows ← onService
      (conn.fetchRows (selectNearest table m q.includeVector predicate) parameters)
    return (m, rows)

/-- The matches of rows. -/
def matchesOf (q : QueryRequest) (m : Metric) (rows : Value) : Except Fault (List Match) := do
  (← rows.toItems).mapM (matchOf m q.includeVector)

theorem search_eq (settings : Settings) (conn : Connection S) (q : QueryRequest) :
    search settings conn q = (nearestRows settings conn q).andThen fun p =>
      .ofExcept ((matchesOf q p.1 p.2).mapError .fault) := by
  simp only [nearestRows, Task.bind_andThen]
  rfl

theorem score_of_matchOf {m : Metric} {includeVector : Bool} {row : Value} {x : Match}
    (h : matchOf m includeVector row = .ok x) :
    ∃ d, distanceOf row = .ok d ∧ x.score = ofOperator m d := by
  obtain ⟨document, -, h⟩ := bind_eq_ok h
  obtain ⟨metadata, -, h⟩ := bind_eq_ok h
  obtain ⟨id, -, h⟩ := bind_eq_ok h
  obtain ⟨text, -, h⟩ := bind_eq_ok h
  obtain ⟨v, hv, h⟩ := bind_eq_ok h
  obtain ⟨d, hd, h⟩ := bind_eq_ok h
  obtain ⟨fields, -, h⟩ := bind_eq_ok h
  have hdistance : distanceOf row = .ok d := by
    rw [distanceOf, hv]
    exact hd
  cases includeVector with
  | false =>
    cases h
    exact ⟨d, hdistance, rfl⟩
  | true =>
    obtain ⟨embedding, -, h⟩ := bind_eq_ok h
    obtain ⟨vector, -, h⟩ := bind_eq_ok h
    cases h
    exact ⟨d, hdistance, rfl⟩

end Postgres

namespace Qdrant

variable {S : Type}

/-- The distance of a found point. -/
def distanceOf (p : Found) : Except Fault Float := p.score.toFloat

/-- The metric of the collection and the points that the service finds for a query. -/
def nearestPoints (client : Client S) (q : QueryRequest) :
    Task (Known S) Failure (Metric × List Found) := do
  let filter ← .ofExcept (filterOf q)
  onService "query" (some q.name) do
    let m ← collectionMetric client q.name
    let found ← Known.ofService
      (client.search ⟨q.name, q.vector, q.topK, filter, q.includeVector⟩)
    return (m, found)

theorem search_eq (client : Client S) (q : QueryRequest) :
    search client q = (nearestPoints client q).andThen fun p =>
      .ofExcept ((p.2.mapM (matchOf p.1 q.includeVector)).mapError .fault) := by
  simp only [nearestPoints, Task.bind_andThen]
  rfl

theorem score_of_matchOf {m : Metric} {includeVector : Bool} {p : Found} {x : Match}
    (h : matchOf m includeVector p = .ok x) :
    ∃ d, distanceOf p = .ok d ∧ x.score = ofScore m d := by
  obtain ⟨payload, -, h⟩ := bind_eq_ok h
  obtain ⟨id, -, h⟩ := bind_eq_ok h
  obtain ⟨d, hd, h⟩ := bind_eq_ok h
  cases includeVector with
  | false =>
    cases h
    exact ⟨d, hd, rfl⟩
  | true =>
    obtain ⟨vector, -, h⟩ := bind_eq_ok h
    cases h
    exact ⟨d, hd, rfl⟩

end Qdrant

namespace Vectorize

variable {S : Type}

/-- The distance of a found record. -/
def distanceOf (found : Found) : Except Fault Float := found.score.toFloat

/-- The settings of the index and the records that the service finds for a query. -/
def nearestRecords (client : Client S) (q : QueryRequest) :
    Task S Failure (IndexConfig × List Found) := do
  .ofExcept (checkValues q)
  onService "query" (some q.name) do
    let config ← client.config q.name
    let found ← client.search ⟨q.name, q.vector, q.topK, q.includeVector⟩
    return (config, found)

/-- The matches of records. -/
def matchesOf (q : QueryRequest) (config : IndexConfig) (found : List Found) :
    Except Failure (List Match) := do
  let m ← metricOf config
  (found.mapM (matchOf m q.includeVector)).mapError .fault

theorem search_eq (client : Client S) (q : QueryRequest) :
    search client q = (nearestRecords client q).andThen fun p =>
      .ofExcept (matchesOf q p.1 p.2) := by
  have hdone (p : IndexConfig × List Found) : (do
      let m ← (.ofExcept (metricOf p.1) : Task S Failure Metric)
      .ofExcept ((p.2.mapM (matchOf m q.includeVector)).mapError .fault)) =
      .ofExcept (matchesOf q p.1 p.2) := by
    rw [matchesOf]
    rcases metricOf p.1 with f | m <;> rfl
  simp only [nearestRecords, Task.bind_andThen, ← hdone]
  rfl

theorem score_of_matchOf {m : Metric} {includeVector : Bool} {found : Found} {x : Match}
    (h : matchOf m includeVector found = .ok x) :
    ∃ d, distanceOf found = .ok d ∧ x.score = ofScore m d := by
  obtain ⟨id, -, h⟩ := bind_eq_ok h
  obtain ⟨d, hd, h⟩ := bind_eq_ok h
  obtain ⟨metadata, -, h⟩ := bind_eq_ok h
  cases includeVector with
  | false =>
    cases h
    exact ⟨d, hd, rfl⟩
  | true =>
    obtain ⟨vector, -, h⟩ := bind_eq_ok h
    cases h
    exact ⟨d, hd, rfl⟩

end Vectorize

namespace Store

/-- **A query answers in the order of the database.**  Let a query reach the backend, and let a
    service answer within the deadline, the nearest first and no more than are asked for.  The rows
    of Postgres stay in this order whatever the metric; so do the points of Qdrant and the records
    of Vectorize if the metric is the euclidean one, as what they report is a distance then. -/
theorem query_keeps_order {S : Type} (config : Config) (ctx : Option Context)
    (name vector topK filter includeVector : Value) (q : QueryRequest) (found : List Match) :
    (∀ (settings : Postgres.Settings) (conn : Postgres.Connection S)
        (s : Session (Postgres.State S)) (m : Metric) (rows : List Value),
      Reaches ⟨Postgres.backend settings conn, config⟩ s ctx name vector topK filter includeVector
        q →
      reply ⟨Postgres.backend settings conn, config⟩ ctx s
        (Postgres.nearestRows settings conn q) = .ok (m, .list rows) →
      NearestFirst q.topK Postgres.distanceOf rows →
      rows.mapM (Postgres.matchOf m q.includeVector) = .ok found →
      ∃ s', (query ⟨Postgres.backend settings conn, config⟩ name vector topK filter includeVector
        ctx).run s = (.ok found, s')) ∧
    (∀ (client : Qdrant.Client S) (s : Session (Known S)) (points : List Qdrant.Found),
      Reaches ⟨Qdrant.backend client, config⟩ s ctx name vector topK filter includeVector q →
      reply ⟨Qdrant.backend client, config⟩ ctx s (Qdrant.nearestPoints client q) =
        .ok (.euclidean, points) →
      NearestFirst q.topK Qdrant.distanceOf points →
      points.mapM (Qdrant.matchOf .euclidean q.includeVector) = .ok found →
      ∃ s', (query ⟨Qdrant.backend client, config⟩ name vector topK filter includeVector ctx).run
        s = (.ok found, s')) ∧
    (∀ (client : Vectorize.Client S) (s : Session S) (settings : Vectorize.IndexConfig)
        (records : List Vectorize.Found),
      Reaches ⟨Vectorize.backend client, config⟩ s ctx name vector topK filter includeVector q →
      reply ⟨Vectorize.backend client, config⟩ ctx s (Vectorize.nearestRecords client q) =
        .ok (settings, records) →
      Vectorize.metricOf settings = .ok .euclidean →
      NearestFirst q.topK Vectorize.distanceOf records →
      records.mapM (Vectorize.matchOf .euclidean q.includeVector) = .ok found →
      ∃ s', (query ⟨Vectorize.backend client, config⟩ name vector topK filter includeVector
        ctx).run s = (.ok found, s')) := by
  refine ⟨?_, ?_, ?_⟩
  · intro settings conn s m rows hreaches hreply hnearest hread
    refine run_query_reply (Postgres.search_eq settings conn q) hreaches hreply ?_
      (hnearest.topMatches_eq (fun x y => ofOperator_le m)
        (fun _ _ => Postgres.score_of_matchOf) hread)
    exact congrArg (Except.mapError Failure.fault) hread
  · intro client s points hreaches hreply hnearest hread
    refine run_query_reply (Qdrant.search_eq client q) hreaches hreply ?_
      (hnearest.topMatches_eq (fun x y => ofDistance_le)
        (fun _ _ => Qdrant.score_of_matchOf) hread)
    exact congrArg (Except.mapError Failure.fault) hread
  · intro client s settings records hreaches hreply hmetric hnearest hread
    refine run_query_reply (Vectorize.search_eq client q) hreaches hreply ?_
      (hnearest.topMatches_eq (fun x y => ofDistance_le)
        (fun _ _ => Vectorize.score_of_matchOf) hread)
    dsimp only
    rw [Vectorize.matchesOf, hmetric]
    exact congrArg (Except.mapError Failure.fault) hread

/-- The results of a service with their distances, of which the first two count as the same. -/
def threeDistances : List (String × Float) := [("a", -0.5), ("b", 0.0), ("c", 0.25)]

/-- The matches that they are read as. -/
def threeNearest : List Match := threeDistances.map fun p => ⟨p.1, ofDistance p.2, [], none⟩

/-- The rows of a database that returns them. -/
def threeRows : List Value :=
  threeDistances.map fun p =>
    .object [("id", .text p.1), ("metadata", .null), ("distance", .float p.2)]

/-- The points of a service that finds them. -/
def threePoints : List Qdrant.Found :=
  threeDistances.map fun p => ⟨.text p.1, .float p.2, .null, .null⟩

/-- The records of a service that finds them. -/
def threeHits : List Vectorize.Found :=
  threeDistances.map fun p => ⟨.text p.1, .float p.2, .null, .null⟩

def servedRows : Postgres.Connection Unit :=
  { Postgres.idle with fetchRows := fun _ _ => .ret (.list threeRows) }

def servedPoints : Qdrant.Client Unit :=
  { Qdrant.idle with search := fun _ => .ret threePoints }

def servedHits : Vectorize.Client Unit :=
  { Vectorize.idle with
    config := fun _ => .ret ⟨.int 1, .text "euclidean"⟩
    search := fun _ => .ret threeHits }

theorem reaches_three {backend : Backend β} {b : β} {caps : Capabilities}
    (hcaps : backend.capabilities = .ret caps) (h : checkTopK Config.default caps 3 = .ok ()) :
    Reaches ⟨backend, Config.default⟩ (Session.start b Session.takesAll) none (.text "docs")
      (.list [.float 0.5]) (.int 3) .null (.bool false) ⟨"docs", [0.5], 3, none, false⟩ := by
  have hnow : 0 ≤ (Session.start b Session.takesAll).now := by
    rw [Session.now_start]
    decide
  refine ⟨rfl, nofun, hnow, ⟨caps, nofun, ?_, h, fun h => (nomatch h.1), nofun⟩, fun _ _ _ => rfl⟩
  rw [asked, hcaps]
  rfl

theorem nearestFirst_three {distance : α → Except Fault Float} {results : List α}
    (h : results.mapM distance = .ok (threeDistances.map Prod.snd)) (hlength : results.length = 3) :
    NearestFirst 3 distance results :=
  ⟨hlength.le, _, h, by decide +kernel, by decide +kernel⟩

/-- A query for three records, from the start of a session. -/
def threeAsked (backend : Backend β) (b : β) : Except Failure (List Match) × Session β :=
  (query ⟨backend, Config.default⟩ (.text "docs") (.list [.float 0.5]) (.int 3) .null (.bool false)
    none).run (.start b Session.takesAll)

theorem query_keeps_order_three :
    (∃ s', threeAsked (Postgres.backend Postgres.ownPool servedRows)
      ⟨[("docs", .euclidean)], ⟨true, (), {}⟩⟩ = (.ok threeNearest, s')) ∧
    (∃ s', threeAsked (Qdrant.backend servedPoints) ⟨[("docs", .euclidean)], ()⟩ =
      (.ok threeNearest, s')) ∧
    (∃ s', threeAsked (Vectorize.backend servedHits) () = (.ok threeNearest, s')) := by
  obtain ⟨hpostgres, hqdrant, hvectorize⟩ := query_keeps_order (S := Unit) Config.default none
    (.text "docs") (.list [.float 0.5]) (.int 3) .null (.bool false)
    ⟨"docs", [0.5], 3, none, false⟩ threeNearest
  refine ⟨?_, ?_, ?_⟩
  · exact hpostgres _ _ _ .euclidean threeRows (reaches_three rfl rfl) rfl
      (nearestFirst_three rfl rfl) rfl
  · exact hqdrant _ _ threePoints (reaches_three rfl rfl) rfl (nearestFirst_three rfl rfl) rfl
  · exact hvectorize _ _ _ threeHits (reaches_three rfl rfl) rfl rfl (nearestFirst_three rfl rfl)
      rfl

end Store

end VectorStore
