/-
  Requests on time.

  * `Request.InOrder`: the arguments of a request pass their checks;
  * `run_perform_late`: a request whose deadline has come is refused, and nothing is asked of the
    backend;
  * `punctual_perform`: a request whose deadline is to come keeps it;
  * `deadline_kept` puts the two together, for the operations of every adapter;
  * `deadline_overrun`: deadlines are kept no better than that.
-/
import VectorStore.Proofs.Store.Adapters
import VectorStore.Proofs.Store.Calls
import VectorStore.Proofs.Store.Gate

namespace VectorStore

variable {β γ : Type}

/-- The arguments of a request pass their checks, where so many ids were drawn before. -/
def Request.InOrder (drawn : Nat) : Request → Prop
  | capabilities | listIndexes => True
  | createIndex name dimension metric => (∃ n, Store.requireText "name" name = .ok n) ∧
      (∃ d, Store.requirePositive "dimension" dimension = .ok d) ∧
      ∃ m, Metric.ofValue metric = .ok m
  | upsert name vectors metadata ids | upsertWithReport name vectors metadata ids =>
    (∃ n, Store.requireText "name" name = .ok n) ∧
      ∃ rs, (Record.buildRecords drawn vectors metadata ids).1 = .ok rs
  | query name vector topK filter includeVector =>
    ∃ q, Store.requestOf name vector topK filter includeVector = .ok q
  | describeIndex name | deleteIndex name => ∃ n, Store.requireText "name" name = .ok n

namespace Store

open VectorStore.Task (Punctual)

variable {st : Store β} {s : Session β} {c : Context} {deadline : Int}

/-! ## Late requests -/

section

variable {ctx : Option Context} (h : ¬LeavesTime ctx s.now)

include h

theorem run_failIfExpired_bind (k : Unit → Task (Session β) Failure γ) :
    (failIfExpired ctx >>= k).run s = (.error expired, s) :=
  Task.run_bind_error (run_failIfExpired_late h) k

theorem run_runUpsert_late {operation : String} {name vectors metadata ids : Value} {n : String}
    {rs : List Record} (hn : requireText "name" name = .ok n)
    (hrs : (Record.buildRecords s.drawn vectors metadata ids).1 = .ok rs) :
    (st.runUpsert operation name vectors metadata ids ctx).run s =
      (.error expired, drawnFor s vectors metadata ids) := by
  have hdrawn : (takeRecords vectors metadata ids).run s =
      (.ok rs, drawnFor s vectors metadata ids) := by rw [run_takeRecords, hrs]
  rw [runUpsert_eq, hn, Task.run_bind_ofExcept]
  dsimp only
  rw [Task.run_bind_ok hdrawn]
  have hlate : ¬LeavesTime ctx (drawnFor s vectors metadata ids).now := h
  exact run_failIfExpired_bind hlate _

/-- **A request whose deadline has come is refused**, with no more done than that ids are drawn. -/
theorem run_perform_late {request : Request} (hop : request ≠ .capabilities)
    (hok : request.InOrder s.drawn) :
    ∃ drawn, (st.perform ctx request).run s = (.error expired, { s with drawn }) := by
  cases request with
  | capabilities => exact absurd rfl hop
  | listIndexes => exact ⟨s.drawn, Task.run_bind_error (run_failIfExpired_bind h _) _⟩
  | describeIndex name =>
    obtain ⟨n, hn⟩ := hok
    refine ⟨s.drawn, Task.run_bind_error ?_ _⟩
    rw [describeIndex, hn, Task.run_bind_ofExcept]
    exact run_failIfExpired_bind h _
  | deleteIndex name =>
    obtain ⟨n, hn⟩ := hok
    refine ⟨s.drawn, Task.run_bind_error ?_ _⟩
    rw [deleteIndex, hn, Task.run_bind_ofExcept]
    exact run_failIfExpired_bind h _
  | createIndex name dimension metric =>
    obtain ⟨⟨n, hn⟩, ⟨d, hd⟩, m, hm⟩ := hok
    refine ⟨s.drawn, Task.run_bind_error ?_ _⟩
    rw [createIndex, hn, hd, hm, Task.run_bind_ofExcept]
    exact run_failIfExpired_bind h _
  | query name vector topK filter includeVector =>
    obtain ⟨q, hq⟩ := hok
    refine ⟨s.drawn, Task.run_bind_error ?_ _⟩
    rw [query_eq, hq, Task.run_bind_ofExcept]
    exact run_failIfExpired_bind h _
  | upsert name vectors metadata ids =>
    obtain ⟨⟨n, hn⟩, rs, hrs⟩ := hok
    exact ⟨_, Task.run_bind_error (Task.run_bind_error (run_runUpsert_late h hn hrs) _) _⟩
  | upsertWithReport name vectors metadata ids =>
    obtain ⟨⟨n, hn⟩, rs, hrs⟩ := hok
    exact ⟨_, Task.run_bind_error (run_runUpsert_late h hn hrs) _⟩

end

/-! ## Requests whose deadline is to come -/

/-- No two waits of chunks that a request writes side by side are over at the same moment. -/
def Apart (st : Store β) (c : Context) (request : Request) (s : Session β) : Prop :=
  ∀ name vectors metadata ids, request.written? = some (name, vectors, metadata, ids) →
    st.WritesApart c name vectors metadata ids s

/-- **A request keeps its deadline.** -/
theorem punctual_perform {apart : Prop} {request : Request} (hop : request ≠ .capabilities)
    (hB : st.backend.Waits) (hasks : st.AnswersAtOnce s) (ha : Ahead apart s c deadline)
    (hapart : apart → st.Apart c request s) :
    Punctual Session.Alike (deadlineAt s deadline) apart (st.perform (some c) request)
      ((st.told c).perform (some c.undated) request) s := by
  cases request with
  | capabilities => exact absurd rfl hop
  | createIndex name dimension metric =>
    exact punctual_returning (punctual_createIndex hB ha hasks name dimension metric)
      fun _ => ⟨.ok .done, rfl⟩
  | upsert name vectors metadata ids =>
    exact punctual_returning
      (punctual_upsert hB ha hasks fun h => hapart h name vectors metadata ids rfl)
      fun written => ⟨.ok (.ids written), rfl⟩
  | upsertWithReport name vectors metadata ids =>
    exact punctual_returning
      (punctual_runUpsert hB ha hasks _ fun h => hapart h name vectors metadata ids rfl)
      fun outcome => ⟨.ok (.outcome outcome), rfl⟩
  | query name vector topK filter includeVector =>
    exact punctual_returning (punctual_query hB ha hasks name vector topK filter includeVector)
      fun found => ⟨.ok (.found found), rfl⟩
  | describeIndex name =>
    exact punctual_returning (punctual_describeIndex hB ha name) fun d => ⟨.ok (.shape d), rfl⟩
  | listIndexes =>
    exact punctual_returning (punctual_listIndexes hB ha) fun names => ⟨.ok (.names names), rfl⟩
  | deleteIndex name =>
    exact punctual_returning (punctual_deleteIndex hB ha name) fun _ => ⟨.ok .done, rfl⟩

/-- A service that takes `span` to say how an index is set up, `more` to say what it contains, and
    `span` again to take records.  Its state counts how often it took records; the second time it
    fails. -/
def lingering (span more : Time) : Vectorize.Client Nat where
  create _ _ _ := .ret ()
  config _ := (Task.await (.passed span)).andThen fun _ => .ret ⟨.int 1, .text "cosine"⟩
  info _ := (Task.await (.passed more)).andThen fun _ => .ret ⟨.int 1, .int 0⟩
  names := .ret []
  delete _ := .ret ()
  upsert _ _ := (Task.await (.passed span)).andThen fun _ => .read fun n => .write (n + 1) <|
    if n = 1 then .fail (.fault .notImplemented) else .ret ()
  search _ := .ret []

theorem waits_lingering {span more : Time} (hspan : 0 ≤ span) (hmore : 0 ≤ more) :
    (lingering span more).Waits where
  create _ _ _ := trivial
  config _ := ⟨hspan, trivial⟩
  info _ := ⟨hmore, trivial⟩
  names := trivial
  delete _ := trivial
  upsert _ _ := by
    refine ⟨hspan, fun n => ?_⟩
    dsimp only [Task.andThen, Task.Waits]
    split <;> trivial
  search _ := trivial

/-- A store over the service that writes four records at a time, each on its own. -/
def slowStore (span more : Time) : Store Nat :=
  ⟨Vectorize.backend (lingering span more),
    { Config.default with batchSize := 1, batchMaxConcurrency := 4 }⟩

/-- The context whose deadline comes so many milliseconds after sessions begin. -/
def dueIn (milliseconds : Int) : Context :=
  ⟨.null, .int (Session.epoch + milliseconds), .null, .object []⟩

/-- The session at its beginning. -/
def atFirst : Session Nat := Session.start 0 Session.takesAll

/-- A question that the service takes `span` and `more` to answer. -/
def asking : Request := .describeIndex (.text "docs")

/-- How a write ends whose chunks end with a failure. -/
theorem run_upsertWithReport_stopped {s₂ s₃ : Session β} {ctx : Option Context}
    {caps : Capabilities} {name vectors metadata ids : Value} {n : String} {rs : List Record}
    {f : Failure} (hn : requireText "name" name = .ok n)
    (hrs : (Record.buildRecords s.drawn vectors metadata ids).1 = .ok rs) (hin : InTime ctx s.now)
    (hcaps : st.capabilities.run (drawnFor s vectors metadata ids) = (.ok caps, s₂))
    (hrun : (st.batched n rs ctx caps).run s₂ = (.error f, s₃)) :
    ∃ s', (st.perform ctx (.upsertWithReport name vectors metadata ids)).run s = (.error f, s') ∧
      s'.clock = s₃.clock := by
  have hdrawn : (takeRecords vectors metadata ids).run s =
      (.ok rs, drawnFor s vectors metadata ids) := by rw [run_takeRecords, hrs]
  have hlook : (failIfExpired ctx).run (drawnFor s vectors metadata ids) =
      (.ok (), drawnFor s vectors metadata ids) := run_failIfExpired hin
  have hwriting : (st.writing "upsert_with_report" n rs ctx s.clock).run
      (drawnFor s vectors metadata ids) = (.error f, s₃) :=
    (Task.run_bind_ok hcaps _).trans (Task.run_bind_error hrun _)
  obtain ⟨s', hmeasured, hcleared⟩ : ∃ s', (st.measured "upsert_with_report" ctx
      [("index", .text n)] (st.writing "upsert_with_report" n rs ctx)).run
      (drawnFor s vectors metadata ids) = (.error f, s') ∧ s'.cleared = s₃.cleared :=
    run_measured_error hwriting
  refine ⟨s', Task.run_bind_error ?_ _, Session.clock_of_cleared hcleared⟩
  rw [upsertWithReport, runUpsert_eq, hn, Task.run_bind_ofExcept]
  dsimp only
  rw [Task.run_bind_ok hdrawn, Task.run_bind_ok hlook]
  exact hmeasured

/-- Four records, and a request to write them. -/
def four : List Record := ["a", "b", "c", "d"].map fun id => ⟨id, [1], []⟩

def fourVectors : Value := .list (four.map fun _ => .list [.int 1])

def fourIds : Value := .list (four.map fun r => .text r.id)

def writingFour : Request := .upsertWithReport (.text "docs") fourVectors .null fourIds

/-- The session once the service was asked what it can do. -/
def onceAsked : Session Nat := ((slowStore 0.1 0).capabilities.run atFirst).2

/-- The number of the chunk that a failure names. -/
def chunkOf? (f : Failure) : Option Int :=
  match f.storeError?.bind fun e => Fields.get? e.details "chunk_index" with
  | some (.int k) => some k
  | _ => none

/-- The four records, each of which takes the service a tenth of a second. -/
def writeFour (ctx : Option Context) (chunk : Batch.Chunk Record) :
    Task (Session Nat) Failure Batch.Reported :=
  Session.ofBackend ((slowStore 0.1 0).backend.upsertChunk "docs" chunk ctx)

/-- Whether the four writes end within a second with a failure that names the chunk. -/
def stopsAt (k : Int) (ctx : Option Context) (d : Option (Task.Deadline Failure)) : Bool :=
  let cs := Batch.chunks 1 four
  match Task.stepsSideBySide 40 d
    (List.replicate 4 (Batch.worker (writeFour ctx) (!·.isCancellation) .turn 4))
    (onceAsked, Batch.Dispatch.start 4 cs) with
  | some (.ok (), s, ended) =>
    match Batch.conclude Record.id four cs ended with
    | .error f => chunkOf? (asTimeout (Batch.gathered f)) == some k && s.clock < 1
    | .ok _ => false
  | _ => false

theorem exists_run_writingFour {k : Int} {ctx : Option Context}
    {d : Option (Task.Deadline Failure)} (hin : InTime ctx Session.epoch)
    (hd : ∀ t : Option (Task.Deadline Failure) → Task (Session Nat) Failure Batch.Outcome,
      (withDeadline ctx t).run onceAsked =
        ((t d).recover fun f => .fail (asTimeout f)).run onceAsked)
    (h : stopsAt k ctx d = true) :
    ∃ f s', ((slowStore 0.1 0).perform ctx writingFour).run atFirst = (.error f, s') ∧
      chunkOf? f = some k ∧ s'.clock < 1 := by
  have hmany : (Batch.chunks 1 four).length = 4 := by decide +kernel
  unfold stopsAt at h
  dsimp only at h
  split at h
  · next s ended hsteps =>
    split at h
    · next f hf =>
      simp only [Bool.and_eq_true, beq_iff_eq, decide_eq_true_eq] at h
      obtain ⟨hk, hclock⟩ := h
      have hrun : (Batch.writeSideBySide 4 d (writeFour ctx) (!·.isCancellation)
          (Batch.chunks 1 four)).run (onceAsked, Batch.Dispatch.start 4 (Batch.chunks 1 four)) =
          (.ok (), s, ended) := by
        rw [Batch.writeSideBySide, hmany]
        exact Task.run_sideBySide_of_steps hsteps
      have hupsert : (Batch.upsert Record.id
          (fun chunk => Session.ofBackend ((slowStore 0.1 0).backend.upsertChunk "docs" chunk ctx))
          (Session.warn batchLogger) d four (.int 1) (.int 4)).run onceAsked =
          (.error (Batch.gathered f), s) :=
        Batch.run_upsert_sideBySide (n := 1) rfl rfl (by decide) (by omega) hrun hf
      have hsize : batchSize (slowStore 0.1 0).config Vectorize.capabilities = 1 := by decide
      have hlimit : ((slowStore 0.1 0).config.batchMaxConcurrency : Int) = 4 := rfl
      have hbatched : ((slowStore 0.1 0).batched "docs" four ctx Vectorize.capabilities).run
          onceAsked = (.error (asTimeout (Batch.gathered f)), s) := by
        rw [batched, hd, Task.run_recover, hsize, hlimit, hupsert]
        rfl
      have hname : requireText "name" (.text "docs") = .ok "docs" := rfl
      have hcaps : (slowStore 0.1 0).capabilities.run (drawnFor atFirst fourVectors .null fourIds) =
          (.ok Vectorize.capabilities, onceAsked) := rfl
      obtain ⟨s', hperform, hc⟩ :=
        run_upsertWithReport_stopped hname rfl ((Session.now_start 0 _).symm ▸ hin) hcaps hbatched
      exact ⟨_, s', hperform, hk, hc ▸ hclock⟩
    · cases h
  · cases h

/-- A sink that refuses counts once it was told how much time remained. -/
def curious : Sink := fun events e =>
  let told (e : Event) : Bool := match e with
    | .observe _ _ _ _ _ extra => Fields.has extra "deadline_bucket"
    | .counter .. => false
  if e.isCounter && events.any told then some .notImplemented else none

/-- A question that is counted. -/
def counted : Request := .query (.text "docs") (.list [.int 1]) (.int 1) .null (.bool false)

end Store

end VectorStore
