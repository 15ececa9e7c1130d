/-
  Writes to the store in memory.

  A write is accepted if its arguments, its deadline and the settings are in order and the index
  is there (`Accepted`).

  * `write_fit`, `write_misfit`, `write_uncopied`: a chunk whose records fit is written, one with a
    record that does not is refused, and one with a record that cannot be copied is written up to
    this record;
  * `inTurn_fit`, `inTurn_misfit`: chunks whose records fit are written, up to one with a record
    that does not;
  * `run_runUpsert_fit`: an accepted write of records that fit inserts them all and returns
    their ids, unless the sink refuses to count them;
  * `run_runUpsert_misfit`: if one does not fit, the records before its chunk are inserted, and
    the write fails at this chunk;
  * `refuses_runUpsert`: what is not accepted changes nothing.
-/
import VectorStore.Proofs.Batch.InTurn
import VectorStore.Proofs.Memory.Records
import VectorStore.Proofs.Store.Records
import VectorStore.Proofs.Store.Runs

namespace VectorStore.Memory

open Batch Fields
open VectorStore.Task (AtOnce)

/-- The store in memory with its settings. -/
def store (server : String) (config : Config) : Store State := ⟨backend server, config⟩

/-- The index with more records written. -/
def Index.insert (i : Index) (rs : List Record) : Index :=
  { i with records := insertAll i.records rs }

/-- All vectors have the dimension of the index. -/
def Index.Fits (i : Index) (rs : List Record) : Prop := ∀ r ∈ rs, r.vector.length = i.dimension

variable {state : State} {name : String} {i : Index} {s : Session State}

/-! ## Chunks -/

theorem find_of_get? (h : get? state name = some i) : find state name = .ok i := by
  rw [find, h]

theorem failsWhole_find (state : State) (name : String) : FailsWhole (find state name) := by
  unfold find
  split
  · exact failsWhole_ok _
  · exact failsWhole_error nofun

theorem checkChunk_fit {c : Chunk Record} (h : i.Fits c.records) :
    checkChunk name i.dimension c = .ok () := by
  have hnone : c.records.zipIdx.find? (fun r => r.1.vector.length ≠ i.dimension) = none :=
    List.find?_eq_none.2 fun r hr => by
      simpa using h r.1 (List.fst_mem_of_mem_zipIdx hr)
  rw [checkChunk, hnone]

theorem checkChunk_misfit {c : Chunk Record} (h : ¬i.Fits c.records) :
    ∃ e, checkChunk name i.dimension c = .error (.showing (.int i.dimension) e) ∧
      e.category = .validation := by
  rcases hr : c.records.zipIdx.find? (fun r => r.1.vector.length ≠ i.dimension) with _ | ⟨r, p⟩
  · refine absurd (fun r hr' => ?_) h
    rw [← List.zipIdx_map_fst 0 c.records] at hr'
    obtain ⟨p, hp, rfl⟩ := List.mem_map.1 hr'
    simpa using List.find?_eq_none.1 hr p hp
  · exact ⟨_, by rw [checkChunk, hr]; rfl, rfl⟩

/-- Of a chunk whose records fit as much is written as can be copied. -/
theorem write_copies (copy : Fields → Except Fault Fields) (hi : get? state name = some i)
    {c : Chunk Record} (h : i.Fits c.records) :
    write copy state name c =
      .ok (put state name { i with records := (insertCopies copy i.records c.records).1 },
        (insertCopies copy i.records c.records).2) := by
  rw [write, find_of_get? hi]
  show (checkChunk name i.dimension c >>= _) = _
  rw [checkChunk_fit h]
  rfl

theorem write_fit (hi : get? state name = some i) {c : Chunk Record} (h : i.Fits c.records) :
    write .ok state name c = .ok (put state name (i.insert c.records), .ok ()) := by
  rw [write_copies .ok hi h, insertCopies_ok]
  rfl

variable {copy : Fields → Except Fault Fields}

theorem write_misfit (hi : get? state name = some i) {c : Chunk Record} {f : Failure}
    (h : checkChunk name i.dimension c = .error f) : write copy state name c = .error f := by
  rw [write, find_of_get? hi]
  show (checkChunk name i.dimension c >>= _) = _
  rw [h]
  rfl

theorem write_noIndex (hi : get? state name = none) (c : Chunk Record) :
    write copy state name c = .error (noIndex name) := by
  rw [write, find, hi]
  rfl

/-- **A chunk with a record that cannot be copied is written in part**: the records before this
    one stay. -/
theorem write_uncopied (hi : get? state name = some i) {good rest : List Record} {bad : Record}
    {e : Fault} (p offset : Nat) (h : i.Fits (good ++ bad :: rest))
    (hgood : ∀ r ∈ good, copy r.metadata = .ok r.metadata) (hbad : copy bad.metadata = .error e) :
    write copy state name ⟨p, offset, good ++ bad :: rest⟩ =
      .ok (put state name (i.insert good), .error e) := by
  rw [write_copies copy hi h, insertCopies_uncopied hgood hbad]
  rfl

/-- What is written is a part of a chunk that fits its index. -/
theorem write_eq_ok {c : Chunk Record} {state' : State} {written : Except Fault Unit}
    (h : write copy state name c = .ok (state', written)) :
    ∃ i, get? state name = some i ∧ i.Fits c.records ∧
      put state name { i with records := (insertCopies copy i.records c.records).1 } = state' ∧
      (insertCopies copy i.records c.records).2 = written := by
  rcases hi : get? state name with _ | i
  · rw [write_noIndex hi] at h
    cases h
  by_cases hfits : i.Fits c.records
  · rw [write_copies copy hi hfits] at h
    cases h
    exact ⟨i, rfl, hfits, rfl, rfl⟩
  · obtain ⟨e, he, -⟩ := checkChunk_misfit hfits
    rw [write_misfit hi he] at h
    cases h

/-- Where everything can be copied nothing ends the writing of a chunk. -/
theorem written_of_write {c : Chunk Record} {state' : State} {written : Except Fault Unit}
    (h : write .ok state name c = .ok (state', written)) : written = .ok () := by
  obtain ⟨i, -, -, -, hwritten⟩ := write_eq_ok h
  rw [← hwritten, insertCopies_ok]

/-- What the writer of a chunk does. -/
def writeChunk (name : String) (c : Chunk Record) (s : Session State) :
    Except Failure Reported × Session State :=
  match write .ok s.backend name c with
  | .ok (state, _) => (.ok [], { s with backend := state })
  | .error f => (.error f, s)

theorem atOnce_upsertChunk (server name : String) (ctx : Option Context) (c : Chunk Record)
    (s : Session State) :
    AtOnce (Session.ofBackend ((backend server).upsertChunk name c ctx)) s
      (writeChunk name c s).1 (writeChunk name c s).2 := by
  have hb : AtOnce ((backend server).upsertChunk name c ctx) s.backend (writeChunk name c s).1
      (writeChunk name c s).2.backend := by
    unfold writeChunk
    show Task.advance (.read _) _ = _
    rw [Task.advance]
    rcases hw : write .ok s.backend name c with f | ⟨state, written⟩
    · simp only [hw]
      rfl
    · cases written_of_write hw
      simp only [hw]
      rfl
  have h := Session.atOnce_ofBackend hb
  unfold writeChunk at h ⊢
  rcases hw : write .ok s.backend name c with f | state <;> rw [hw] at h <;> exact h

/-- Chunks whose records all fit are written, and then the chunks behind them. -/
theorem inTurn_append (hi : get? s.backend name = some i) {cs : List (Chunk Record)}
    (h : ∀ c ∈ cs, i.Fits c.records) (rest : List (Chunk Record))
    (stop : Except Failure Reported → Bool) (hstop : stop (.ok []) = false) :
    inTurn (writeChunk name) stop (cs ++ rest) s =
      let r := inTurn (writeChunk name) stop rest
        { s with backend := put s.backend name (i.insert (cs.flatMap (·.records))) }
      ((cs.map fun c => (c, .ok [])) ++ r.1, r.2) := by
  induction cs generalizing s i with
  | nil =>
    have hput : put s.backend name (i.insert []) = s.backend := put_of_get? hi
    simp only [List.flatMap_nil, hput]
    rfl
  | cons c cs ih =>
    have hc : writeChunk name c s =
        (.ok [], { s with backend := put s.backend name (i.insert c.records) }) := by
      rw [writeChunk, write_fit hi (h c (List.mem_cons_self ..))]
    have hi' : get? (put s.backend name (i.insert c.records)) name = some (i.insert c.records) :=
      get?_put_self ..
    have hboth : (i.insert c.records).insert (cs.flatMap (·.records)) =
        i.insert ((c :: cs).flatMap (·.records)) := by
      rw [List.flatMap_cons, Index.insert, Index.insert, Index.insert, insertAll_append]
    have hrest := ih (s := { s with backend := put s.backend name (i.insert c.records) })
      (i := i.insert c.records) hi' fun c' hc' => h c' (List.mem_cons_of_mem _ hc')
    rw [put_put_self, hboth] at hrest
    rw [List.cons_append, inTurn, hc]
    simp only [hstop, Bool.false_eq_true, if_false, hrest]
    rfl

/-- Chunks whose records all fit are all written. -/
theorem inTurn_fit (hi : get? s.backend name = some i) {cs : List (Chunk Record)}
    (h : ∀ c ∈ cs, i.Fits c.records) (halts : Failure → Bool) :
    inTurn (writeChunk name) (stops halts) cs s = (cs.map fun c => (c, .ok []),
      { s with backend := put s.backend name (i.insert (cs.flatMap (·.records))) }) := by
  have happ := inTurn_append hi h [] (stops halts) rfl
  simpa [inTurn] using happ

/-- They are written up to a chunk that is refused. -/
theorem inTurn_misfit (hi : get? s.backend name = some i) {good rest : List (Chunk Record)}
    {bad : Chunk Record} (h : ∀ c ∈ good, i.Fits c.records) {f : Failure}
    (hf : checkChunk name i.dimension bad = .error f) {halts : Failure → Bool}
    (hhalts : halts f = true) :
    inTurn (writeChunk name) (stops halts) (good ++ bad :: rest) s =
      ((good.map fun c => (c, .ok [])) ++ [(bad, .error f)],
        { s with backend := put s.backend name (i.insert (good.flatMap (·.records))) }) := by
  have hbad : write .ok (put s.backend name (i.insert (good.flatMap (·.records)))) name bad =
      .error f := write_misfit (get?_put_self ..) hf
  rw [inTurn_append hi h _ (stops halts) rfl, inTurn, writeChunk, hbad]
  simp [stops, hhalts]

/-- Without the index not even the first chunk is written. -/
theorem inTurn_noIndex (hi : get? s.backend name = none) (c : Chunk Record)
    (rest : List (Chunk Record)) {halts : Failure → Bool} (hhalts : halts (noIndex name) = true) :
    inTurn (writeChunk name) (stops halts) (c :: rest) s = ([(c, .error (noIndex name))], s) := by
  rw [inTurn, writeChunk, write_noIndex hi]
  simp [stops, hhalts]

/-! ## Batched writes -/

variable {server operation n : String} {config : Config} {ctx : Option Context}
  {rs : List Record}

/-- In time, a batched write ends as it does with whatever deadline. -/
theorem run_batched (ht : Store.InTime ctx s.now) {r : Except Failure Outcome}
    {s' : Session State}
    (h : ∀ deadline, (Batch.upsert Record.id
      (fun c => Session.ofBackend ((backend server).upsertChunk n c ctx))
      (Session.warn Store.batchLogger) deadline rs (.int config.batchSize)
      (.int config.batchMaxConcurrency)).run s = (r, s')) :
    ((store server config).batched n rs ctx (capabilities server)).run s =
      (r.mapError Store.asTimeout, s') := by
  obtain ⟨deadline, hd⟩ := Store.run_withDeadline ht fun deadline =>
    Batch.upsert Record.id (fun c => Session.ofBackend ((backend server).upsertChunk n c ctx))
      (Session.warn Store.batchLogger) deadline rs (.int config.batchSize)
      (.int config.batchMaxConcurrency)
  rw [h deadline] at hd
  exact hd

/-- Records that fit are all written. -/
theorem run_batched_fit (ht : Store.InTime ctx s.now) (hsize : 0 < config.batchSize)
    (hconc : 0 < config.batchMaxConcurrency) (hi : get? s.backend n = some i) (h : i.Fits rs) :
    ((store server config).batched n rs ctx (capabilities server)).run s =
      (.ok ⟨rs.map Record.id, [], (chunks config.batchSize rs).length⟩,
        { s with backend := put s.backend n (i.insert rs) }) := by
  have hall : (chunks config.batchSize rs).flatMap (·.records) = rs := by
    rw [List.flatMap_def, records_chunks, flatten_pieces hsize]
  have hfit : ∀ c ∈ chunks config.batchSize rs, i.Fits c.records := fun c hc r hr =>
    h r (hall ▸ List.mem_flatMap.2 ⟨c, hc, hr⟩)
  have hturn := inTurn_fit hi hfit
  rw [hall] at hturn
  exact run_batched ht fun deadline =>
    run_upsert_written (atOnce_upsertChunk server n ctx) hsize hconc deadline hturn

/-- The first chunk with a record that does not fit. -/
theorem exists_misfit {cs : List (Chunk Record)} (h : ¬i.Fits (cs.flatMap (·.records))) :
    ∃ good bad rest, cs = good ++ bad :: rest ∧ (∀ c ∈ good, i.Fits c.records) ∧
      ¬i.Fits bad.records := by
  induction cs with
  | nil => exact absurd nofun h
  | cons c cs ih =>
    by_cases hc : i.Fits c.records
    · have hcs : ¬i.Fits (cs.flatMap (·.records)) := fun hcs => h fun r hr =>
        (List.mem_append.1 hr).elim (hc r) (hcs r)
      obtain ⟨good, bad, rest, rfl, hgood, hbad⟩ := ih hcs
      exact ⟨c :: good, bad, rest, rfl, List.forall_mem_cons.2 ⟨hc, hgood⟩, hbad⟩
    · exact ⟨[], c, cs, rfl, nofun, hc⟩

/-- **If a record does not fit, the records before its chunk are written**, and the failure is
    one at this chunk. -/
theorem run_batched_misfit (ht : Store.InTime ctx s.now) (hsize : 0 < config.batchSize)
    (hconc : 0 < config.batchMaxConcurrency) (hi : get? s.backend n = some i) (h : ¬i.Fits rs) :
    ∃ (bad : Chunk Record) (f : Failure), bad ∈ chunks config.batchSize rs ∧
      ¬i.Fits bad.records ∧ i.Fits (rs.take bad.offset) ∧ f.Whole ∧
      ((store server config).batched n rs ctx (capabilities server)).run s =
        (.error (failedAt bad f ((rs.take bad.offset).map Record.id)),
          { s with backend := put s.backend n (i.insert (rs.take bad.offset)) }) := by
  rw [← flatten_pieces hsize rs, ← records_chunks, ← List.flatMap_def] at h
  obtain ⟨good, bad, rest, hcs, hgood, hbad⟩ := exists_misfit h
  have htake := flatMap_records_of_append hsize hcs
  obtain ⟨e, hcheck, he⟩ : ∃ e, checkChunk n i.dimension bad =
    .error (.showing (.int i.dimension) e) ∧ e.category = .validation := checkChunk_misfit hbad
  have hwhole : (Failure.showing (.int i.dimension) e).Whole :=
    Failure.whole_showing (by rw [he]; decide)
  have hcancel := Failure.isCancellation_showing (.int i.dimension) e
  have htimeout := Store.asTimeout_showing (.int i.dimension) e
  generalize Failure.showing (.int i.dimension) e = f at hcheck hwhole hcancel htimeout
  have hturn : ∀ halts : Failure → Bool, halts f = true →
      inTurn (writeChunk n) (stops halts) (chunks config.batchSize rs) s =
        ((good.map fun c => (c, .ok [])) ++ [(bad, .error f)],
          { s with backend := put s.backend n (i.insert (rs.take bad.offset)) }) :=
    fun halts hhalts => by rw [hcs, inTurn_misfit hi hgood hcheck hhalts, htake]
  refine ⟨bad, f, by rw [hcs]; simp, hbad, fun r hr => ?_, hwhole, ?_⟩
  · rw [← htake] at hr
    obtain ⟨c, hc, hr⟩ := List.mem_flatMap.1 hr
    exact hgood c hc r hr
  · have hids : (good.flatMap fun c => c.records.map Record.id) =
        (rs.take bad.offset).map Record.id := by
      rw [← htake, List.map_flatMap]
    rw [run_batched ht fun deadline => run_upsert_stopped (atOnce_upsertChunk server n ctx) hsize
      hconc deadline hcs hcancel hturn, hids, failedAt]
    split
    · exact congrArg (fun f => (Except.error f, _)) htimeout
    · rfl

/-- Without the index nothing is written. -/
theorem run_batched_noIndex (ht : Store.InTime ctx s.now) (hsize : 0 < config.batchSize)
    (hconc : 0 < config.batchMaxConcurrency) (hi : get? s.backend n = none) (hrs : rs ≠ []) :
    ((store server config).batched n rs ctx (capabilities server)).run s =
      (.error (noIndex n), s) := by
  obtain ⟨c, rest, hcs⟩ : ∃ c rest, chunks config.batchSize rs = [] ++ c :: rest :=
    List.exists_cons_of_ne_nil fun hnil => hrs <| by
      rw [← flatten_pieces hsize rs, ← records_chunks, hnil]
      rfl
  rw [run_batched ht fun deadline => run_upsert_stopped (atOnce_upsertChunk server n ctx) hsize
    hconc deadline hcs rfl fun halts hhalts => by rw [hcs]; exact inTurn_noIndex hi c rest hhalts]
  rfl

/-- Out of time, without a size or without a number of writes at a time nothing is written. -/
theorem refuses_batched
    (h : ¬(Store.InTime ctx s.now ∧ 0 < config.batchSize ∧ 0 < config.batchMaxConcurrency)) :
    Store.Refuses ((store server config).batched n rs ctx (capabilities server)) s := by
  by_cases ht : Store.InTime ctx s.now
  · have hzero : config.batchSize = 0 ∨ config.batchMaxConcurrency = 0 := by
      by_contra hne
      exact h ⟨ht, by omega⟩
    obtain ⟨e, he, hrun⟩ : ∃ e : StoreError, e.category = .validation ∧ ∀ deadline,
        (Batch.upsert Record.id (fun c => Session.ofBackend ((backend server).upsertChunk n c ctx))
          (Session.warn Store.batchLogger) deadline rs (.int config.batchSize)
          (.int config.batchMaxConcurrency)).run s = (.error (.error e), s) := by
      by_cases hconc : config.batchMaxConcurrency = 0
      · exact ⟨concurrencyRefusal, rfl, fun deadline => by rw [hconc]; rfl⟩
      · have hpos := Call.positive_natCast (Nat.pos_of_ne_zero hconc)
        refine ⟨.of .validation "batch_size must be a positive integer"
          [("batch_size", .text "0")], rfl, fun deadline => ?_⟩
        rw [Batch.upsert, hpos, hzero.resolve_right hconc]
        rfl
    exact ⟨_, s, run_batched ht hrun, Failure.whole_error (by rw [he]; decide), rfl⟩
  · exact Store.refuses_withDeadline ht _

/-! ## Accepted writes -/

/-- The arguments of a write, its deadline and the settings are in order, and the index is
    there; `rs` are its records. -/
structure Accepted (config : Config) (s : Session State) (name vectors metadata ids : Value)
    (ctx : Option Context) (n : String) (i : Index) (rs : List Record) : Prop where
  name_eq : Store.requireText "name" name = .ok n
  records_eq : (Record.buildRecords s.drawn vectors metadata ids).1 = .ok rs
  inTime : Store.InTime ctx s.now
  index : get? s.backend n = some i
  size_pos : 0 < config.batchSize
  concurrency_pos : 0 < config.batchMaxConcurrency

variable {operation : String} {nameArg vectors metadata ids : Value}

/-- **A write ends as its batched write does**, if its arguments are in order and its deadline
    has not passed before; only the sink may refuse to count what was written. -/
theorem run_runUpsert (hname : Store.requireText "name" nameArg = .ok n)
    (hrecords : (Record.buildRecords s.drawn vectors metadata ids).1 = .ok rs)
    (hpass : (Store.failIfExpired ctx).run (Store.drawnFor s vectors metadata ids) =
      (.ok (), Store.drawnFor s vectors metadata ids))
    (server operation : String) (config : Config) :
    ∃ s₁ : Session State, s₁.backend = s.backend ∧ s₁.now = s.now ∧
      (∀ o s₂, ((store server config).batched n rs ctx (capabilities server)).run s₁ =
          (.ok o, s₂) → o.failures = [] → s₂.sink = s₁.sink → ∃ s', s'.backend = s₂.backend ∧
        (((store server config).runUpsert operation nameArg vectors metadata ids ctx).run s =
            (.ok o, s') ∨
          ∃ f, ((store server config).runUpsert operation nameArg vectors metadata ids ctx).run s =
              (.error (.fault f), s') ∧ ∃ events event, s.sink events event = some f)) ∧
      (∀ f s₂, ((store server config).batched n rs ctx (capabilities server)).run s₁ =
          (.error f, s₂) → ∃ s', s'.backend = s₂.backend ∧
        ((store server config).runUpsert operation nameArg vectors metadata ids ctx).run s =
          (.error f, s')) := by
  let s₀ := Store.drawnFor s vectors metadata ids
  have htake : (Store.takeRecords vectors metadata ids).run s = (.ok rs, s₀) :=
    (Store.run_takeRecords ..).trans (Prod.ext hrecords rfl)
  -- what remains is the measured part
  have hrun : ((store server config).runUpsert operation nameArg vectors metadata ids ctx).run s =
      ((store server config).measured operation ctx [("index", .text n)]
        ((store server config).writing operation n rs ctx)).run s₀ := by
    rw [Store.runUpsert_eq, hname, Task.run_bind_ofExcept]
    dsimp only
    rw [Task.run_bind_ok htake]
    exact Task.run_bind_ok hpass _
  obtain ⟨s₁, hcaps, hc⟩ : ∃ s₁, (store server config).capabilities.run s₀ =
    (.ok (capabilities server), s₁) ∧ s₁.cleared = s₀.cleared := Store.run_capabilities rfl
  have hwriting (began : Time) :
      ((store server config).writing operation n rs ctx began).run s₀ =
        ((store server config).batched n rs ctx (capabilities server) >>= fun outcome =>
          (store server config).reported operation n rs ctx began outcome).run s₁ :=
    Task.run_bind_ok hcaps _
  have hb₁ : s₁.backend = s₀.backend := Session.backend_of_cleared hc
  have hnow₁ : s₁.now = s₀.now := Session.now_of_cleared hc
  rw [hrun]
  refine ⟨s₁, hb₁, hnow₁, ?_, ?_⟩
  · intro o s₂ hb ho hsink
    obtain ⟨s', hs', hend⟩ := Store.run_reported ho (store server config) operation n rs ctx
      s₀.clock s₂
    have hw := (hwriting s₀.clock).trans (Task.run_bind_ok hb _)
    rcases hend with hok | ⟨f, herr, events, event, hf⟩
    · exact ⟨s', Session.backend_of_cleared hs', .inl (Store.run_measured_ok (hw.trans hok))⟩
    · obtain ⟨s'', hm, hc''⟩ := Store.run_measured_error (hw.trans herr)
      rw [hsink, Session.sink_of_cleared hc] at hf
      exact ⟨s'', (Session.backend_of_cleared hc'').trans (Session.backend_of_cleared hs'),
        .inr ⟨f, hm, events, event, hf⟩⟩
  · intro f s₂ hb
    obtain ⟨s', hm, hc'⟩ := Store.run_measured_error
      ((hwriting s₀.clock).trans (Task.run_bind_error hb _))
    exact ⟨s', Session.backend_of_cleared hc', hm⟩

theorem Accepted.pass (h : Accepted config s nameArg vectors metadata ids ctx n i rs) :
    (Store.failIfExpired ctx).run (Store.drawnFor s vectors metadata ids) =
      (.ok (), Store.drawnFor s vectors metadata ids) :=
  Store.run_failIfExpired (s := Store.drawnFor s vectors metadata ids) h.inTime

/-- **An accepted write of records that fit inserts them all** and returns their ids, unless
    the sink refuses to count them. -/
theorem run_runUpsert_fit (h : Accepted config s nameArg vectors metadata ids ctx n i rs)
    (hfits : i.Fits rs) (server operation : String) :
    ∃ s', s'.backend = put s.backend n (i.insert rs) ∧
      (((store server config).runUpsert operation nameArg vectors metadata ids ctx).run s =
          (.ok ⟨rs.map Record.id, [], (chunks config.batchSize rs).length⟩, s') ∨
        ∃ f, ((store server config).runUpsert operation nameArg vectors metadata ids ctx).run s =
            (.error (.fault f), s') ∧ ∃ events event, s.sink events event = some f) := by
  obtain ⟨s₁, hb, hnow, hok, -⟩ := run_runUpsert h.name_eq h.records_eq h.pass server operation
    config
  obtain ⟨s', hs', hrun⟩ := hok _ _ (run_batched_fit (hnow ▸ h.inTime) h.size_pos
    h.concurrency_pos (hb ▸ h.index) hfits) rfl rfl
  exact ⟨s', hs'.trans (by rw [hb]), hrun⟩

/-- **If a record does not fit, the records before its chunk are inserted**, and the write fails
    at this chunk. -/
theorem run_runUpsert_misfit (h : Accepted config s nameArg vectors metadata ids ctx n i rs)
    (hmisfit : ¬i.Fits rs) (server operation : String) :
    ∃ (bad : Chunk Record) (f : Failure) (s' : Session State),
      bad ∈ chunks config.batchSize rs ∧ ¬i.Fits bad.records ∧ i.Fits (rs.take bad.offset) ∧
      f.Whole ∧ s'.backend = put s.backend n (i.insert (rs.take bad.offset)) ∧
      ((store server config).runUpsert operation nameArg vectors metadata ids ctx).run s =
        (.error (failedAt bad f ((rs.take bad.offset).map Record.id)), s') := by
  obtain ⟨s₁, hb, hnow, -, herr⟩ := run_runUpsert h.name_eq h.records_eq h.pass server operation
    config
  obtain ⟨bad, f, hmem, hbad, hfits, hwhole, hstop⟩ := run_batched_misfit (hnow ▸ h.inTime)
    h.size_pos h.concurrency_pos (hb ▸ h.index) hmisfit
  obtain ⟨s', hs', hrun⟩ := herr _ _ hstop
  exact ⟨bad, f, s', hmem, hbad, hfits, hwhole, hs'.trans (by rw [hb]), hrun⟩

/-- What is not accepted is refused. -/
theorem refuses_runUpsert
    (h : ∀ n i rs, ¬Accepted config s nameArg vectors metadata ids ctx n i rs)
    (server operation : String) :
    Store.Refuses ((store server config).runUpsert operation nameArg vectors metadata ids ctx)
      s := by
  rcases hname : Store.requireText "name" nameArg with f | n
  · rw [Store.runUpsert_eq, hname]
    exact (Store.refuses_ofExcept (Store.failsWhole_requireText _ _ _ hname) s).bind _
  have hafter : ((store server config).runUpsert operation nameArg vectors metadata ids ctx).run s =
      (Store.takeRecords vectors metadata ids >>= fun rs => Store.failIfExpired ctx >>= fun _ =>
        (store server config).measured operation ctx [("index", .text n)]
          ((store server config).writing operation n rs ctx)).run s := by
    rw [Store.runUpsert_eq, hname]
    rfl
  have htake := Store.run_takeRecords s vectors metadata ids
  rcases hrecords : (Record.buildRecords s.drawn vectors metadata ids).1 with f | rs <;>
    rw [hrecords] at htake
  · have hf := Record.failsWhole_buildRecords _ _ _ _ f hrecords
    exact ⟨f, _, hafter.trans (Task.run_bind_error htake _), hf, rfl⟩
  rcases Store.failIfExpired_cases ctx (Store.drawnFor s vectors metadata ids) with hpass | hexpired
  · obtain ⟨s₁, hb, hnow, -, herr⟩ := run_runUpsert hname hrecords hpass server operation config
    obtain ⟨f, s₂, hrun, hf, hb₂⟩ : Store.Refuses
        ((store server config).batched n rs ctx (capabilities server)) s₁ := by
      by_cases hset : Store.InTime ctx s₁.now ∧ 0 < config.batchSize ∧
        0 < config.batchMaxConcurrency
      · obtain ⟨ht, hsize, hconc⟩ := hset
        have hnone : get? s₁.backend n = none := by
          by_contra hi
          obtain ⟨i, hi⟩ := Option.ne_none_iff_exists'.1 hi
          exact h n i rs ⟨hname, hrecords, hnow ▸ ht, hb ▸ hi, hsize, hconc⟩
        obtain ⟨-, -, hrs, -⟩ := Record.buildRecords_lists (Prod.ext hrecords rfl)
        exact ⟨_, _, run_batched_noIndex ht hsize hconc hnone hrs, nofun, rfl⟩
      · exact refuses_batched hset
    obtain ⟨s', hs', hrun'⟩ := herr f s₂ hrun
    exact ⟨f, s', hrun', hf, hs'.trans (hb₂.trans hb)⟩
  · obtain ⟨f, s', hrun, hf, hb⟩ := hexpired
    exact ⟨f, s', hafter.trans ((Task.run_bind_ok htake _).trans (Task.run_bind_error hrun _)),
      hf, hb⟩

end VectorStore.Memory
