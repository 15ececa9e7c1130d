/-
  Failures of the services as the caller meets them.

  * `Report.Tells`: details that tell the operation and the index; those of every translation do
    (`Postgres.tells_errorOf`, `Vectorize.tells_errorOf`, `Qdrant.tells_iff`);
  * `run_guarded`: an ordinary fault leaves a guard as the cause of its translation;
  * `Backend.States`: no operation fails with an error of a driver as it is.
-/
import VectorStore.Proofs.Postgres.Metrics
import VectorStore.Proofs.Store.Readings

namespace VectorStore

variable {S α : Type}

/-! ## Translation -/

/-- The details tell the operation, and the index if there is one. -/
def Report.Tells (r : Report) (details : Fields) : Prop :=
  Fields.get? details "op" = some (.text r.operation) ∧
    ∀ name, r.index = some name → Fields.get? details "index" = some (.text name)

theorem Report.tells_append (r : Report) (more : Fields) : r.Tells (r.details ++ more) := by
  refine ⟨rfl, fun name hname => ?_⟩
  rw [details, hname]
  rfl

theorem Report.tells_details (r : Report) : r.Tells r.details := by
  simpa using r.tells_append []

theorem Postgres.tells_errorOf (r : Report) : r.Tells (errorOf r).details := by
  rw [errorOf]
  dsimp only
  split
  · exact r.tells_details
  · split
    · split
      · exact r.tells_append _
      · split <;> exact r.tells_append _
    · split <;> exact r.tells_details

theorem Vectorize.tells_statusError (r : Report) : r.Tells (statusError r).details := by
  unfold statusError
  dsimp only
  repeat' split
  all_goals exact r.tells_append _

theorem Vectorize.tells_errorOf (r : Report) : r.Tells (errorOf r).details := by
  rw [errorOf]
  repeat' split
  · exact r.tells_details
  · exact r.tells_details
  · exact r.tells_details
  · exact tells_statusError r

namespace Qdrant

theorem tells_plainError (r : Report) : r.Tells (plainError r).details := by
  unfold plainError
  dsimp only
  repeat' split
  all_goals exact r.tells_details

/-- A wait in seconds whose milliseconds are no finite number. -/
def IsEndless (v : Value) : Prop :=
  ∃ x, v = .float x ∧ ∀ negative m e, Number.Binary.ofFloat (x * 1000.0) ≠ .finite negative m e

theorem retryAfterMs_eq_ok_iff (v : Value) : (∃ ms, retryAfterMs v = .ok ms) ↔ ¬ IsEndless v := by
  cases v with
  | float x =>
    have hread : retryAfterMs (.float x) = (Value.float (x * 1000.0)).toInt.map some := rfl
    rw [hread, Value.toInt]
    rcases hx : Number.Binary.ofFloat (x * 1000.0) with _ | negative | ⟨negative, m, e⟩
    · refine iff_of_false (by rintro ⟨_, ⟨⟩⟩) (not_not_intro ⟨x, rfl, ?_⟩)
      intro _ _ _ h
      rw [hx] at h
      cases h
    · refine iff_of_false (by rintro ⟨_, ⟨⟩⟩) (not_not_intro ⟨x, rfl, ?_⟩)
      intro _ _ _ h
      rw [hx] at h
      cases h
    · refine iff_of_true ⟨_, rfl⟩ ?_
      rintro ⟨_, ⟨⟩, hend⟩
      exact hend _ _ _ hx
  | _ => exact iff_of_true ⟨_, rfl⟩ (by rintro ⟨_, ⟨⟩, -⟩)

/-- A rate limit with a wait whose milliseconds are no finite number. -/
def IsUnwaitable (r : Report) : Prop :=
  r.isKind .timeout = false ∧ r.status.wholeNumber? = some 429 ∧
    IsEndless ((r.driver?.bind (·.retryAfter)).getD .null)

/-- Under a rate limit the wait is asked for. -/
theorem statusError_limit (r : Report) (details : Fields) : statusError r 429 details =
    (retryAfterMs ((r.driver?.bind (·.retryAfter)).getD .null)).bind fun ms =>
      .ok { StoreError.of .unavailable "Qdrant rate limit exceeded" details with
        retryAfterMs := ms } := rfl

theorem tells_statusError {r : Report} {status : Int} {details : Fields} (h : r.Tells details)
    (hlimit : status ≠ 429) : ∃ e, statusError r status details = .ok e ∧ r.Tells e.details := by
  unfold statusError
  simp only [if_neg hlimit]
  repeat' split
  all_goals exact ⟨_, rfl, h⟩

/-- **Every error of the service is translated, unless it asks for an endless wait.** -/
theorem tells_errorOf_iff (r : Report) :
    (∃ e, errorOf r = .ok e ∧ r.Tells e.details) ↔ ¬ IsUnwaitable r := by
  rw [errorOf]
  rcases htimeout : r.isKind .timeout
  · rcases hstatus : r.status.wholeNumber? with _ | status
    · refine iff_of_true ⟨_, rfl, tells_plainError r⟩ ?_
      rintro ⟨-, hlimit, -⟩
      rw [hstatus] at hlimit
      cases hlimit
    · by_cases hlimit : status = 429
      · subst hlimit
        have hunwaitable : IsUnwaitable r ↔ IsEndless ((r.driver?.bind (·.retryAfter)).getD .null) :=
          and_iff_right htimeout |>.trans (and_iff_right hstatus)
        rw [hunwaitable, ← retryAfterMs_eq_ok_iff]
        dsimp only
        rw [if_neg (by decide), statusError_limit]
        constructor
        · rintro ⟨e, he, -⟩
          rcases hwait : retryAfterMs ((r.driver?.bind (·.retryAfter)).getD .null) with f | ms
          · rw [hwait] at he
            cases he
          · exact ⟨ms, rfl⟩
        · rintro ⟨ms, hms⟩
          rw [hms]
          exact ⟨_, rfl, r.tells_append _⟩
      · refine iff_of_true ?_ ?_
        · exact tells_statusError (r.tells_append _) hlimit
        · rintro ⟨-, h, -⟩
          rw [hstatus] at h
          exact hlimit (Option.some.inj h)
  · refine iff_of_true ⟨_, rfl, r.tells_details⟩ ?_
    rintro ⟨h, -⟩
    rw [htimeout] at h
    cases h

end Qdrant

/-! ## Guards -/

/-- **An ordinary fault leaves a guard as the cause of its translation.** -/
theorem run_guarded {σ : Type} [Clocked σ] {errorOf : Report → Except Fault StoreError}
    {operation : String} {index : Option String} {t : Task σ Failure α} {s s' : σ} {f : Fault}
    {e : StoreError} (hrun : t.run s = (.error (.fault f), s')) (hf : f.isCancellation = false)
    (he : errorOf ⟨operation, index, .fault f⟩ = .ok e) :
    (t.recover fun f => .fail (Report.diagnosed errorOf ⟨operation, index, f⟩)).run s =
      (.error (.chained e (.fault f)), s') := by
  have hleaves : Report.diagnosed errorOf ⟨operation, index, .fault f⟩ = .chained e (.fault f) := by
    rw [Report.diagnosed]
    dsimp only
    rw [hf, he]
    rfl
  rw [Task.run_recover, hrun]
  dsimp only
  rw [hleaves]
  rfl

/-- A failure that is not an error of a driver as it is, unless that ends a cancelled call. -/
def Failure.IsStated (f : Failure) : Prop := ∀ e, f = .fault (.driver e) → e.kind = .cancelled

theorem Failure.isStated_error (e : StoreError) : (Failure.error e).IsStated := nofun

theorem Failure.isStated_fault {f : Fault} (h : f.Own) : (Failure.fault f).IsStated := by
  rintro e ⟨⟩
  exact absurd rfl (h e)

/-- Nothing but a cancellation leaves a guard as it is. -/
theorem Report.isStated_diagnosed {errorOf : Report → Except Fault StoreError} {r : Report}
    (h : FailsOnly Fault.Own (errorOf r)) : (diagnosed errorOf r).IsStated := by
  rw [diagnosed]
  split
  · next f hf =>
    split
    · next hcancelled =>
      rw [hf]
      rintro e ⟨⟩
      exact beq_iff_eq.1 hcancelled
    · split
      · exact nofun
      · next g hg => exact Failure.isStated_fault (h g hg)
  · next f hf =>
    intro e he
    exact (hf _ he).elim

/-- What an ordinary fault of a task becomes behind a guard: if it can be translated, the cause of
    an error whose details tell the operation and the index. -/
def Guards {σ : Type} [Clocked σ] (able : Report → Prop) (operation : String)
    (index : Option String) (t guarded : Task σ Failure α) : Prop :=
  ∀ s s' f, t.run s = (.error (.fault f), s') → f.isCancellation = false →
    able ⟨operation, index, .fault f⟩ →
    ∃ e, guarded.run s = (.error (.chained e (.fault f)), s') ∧
      Report.Tells ⟨operation, index, .fault f⟩ e.details

theorem guards {σ : Type} [Clocked σ] {errorOf : Report → Except Fault StoreError}
    {able : Report → Prop} (h : ∀ r, able r → ∃ e, errorOf r = .ok e ∧ r.Tells e.details)
    (operation : String) (index : Option String) (t : Task σ Failure α) :
    Guards able operation index t
      (t.recover fun f => .fail (Report.diagnosed errorOf ⟨operation, index, f⟩)) := by
  intro s s' f hrun hf hable
  obtain ⟨e, he, htells⟩ := h _ hable
  exact ⟨e, run_guarded hrun hf he, htells⟩

theorem fails_guarded {σ : Type} {errorOf : Report → Except Fault StoreError} {operation : String}
    {index : Option String} (t : Task σ Failure α) (h : ∀ r, FailsOnly Fault.Own (errorOf r)) :
    (t.recover fun f => .fail (Report.diagnosed errorOf ⟨operation, index, f⟩)).Fails
      Failure.IsStated :=
  .recover (Task.fails_of_forall t fun _ => Report.isStated_diagnosed (h _))

/-! ## Operations -/

/-- No operation of the backend fails with an error of a driver as it is. -/
structure Backend.States {β : Type} (b : Backend β) : Prop where
  createIndex : ∀ name dimension m ctx,
    (b.createIndex name dimension m ctx).Fails Failure.IsStated
  describeIndex : ∀ name ctx, (b.describeIndex name ctx).Fails Failure.IsStated
  listIndexes : ∀ ctx, (b.listIndexes ctx).Fails Failure.IsStated
  deleteIndex : ∀ name ctx, (b.deleteIndex name ctx).Fails Failure.IsStated
  upsertChunk : ∀ name c ctx, (b.upsertChunk name c ctx).Fails Failure.IsStated
  query : ∀ q ctx, (b.query q ctx).Fails Failure.IsStated

open VectorStore.Task (fails_pure fails_modify)

theorem stated_fault {r : Except Fault α} (h : FailsOnly Fault.Own r) :
    FailsOnly Failure.IsStated (r.mapError .fault) :=
  .mapError fun f hf => Failure.isStated_fault (h f hf)

theorem Failure.isStated_showing (v : Value) (e : StoreError) : (showing v e).IsStated := by
  rw [showing]
  split
  · exact isStated_error e
  · exact isStated_fault Fault.own_intTooLong

theorem Filter.Refusal.isStated_failure (r : Filter.Refusal) : r.failure.IsStated := by
  obtain ⟨e, he, -⟩ | hf := r.failure_cases
  · rw [he]
    exact Failure.isStated_error e
  · rw [hf]
    exact Failure.isStated_fault Fault.own_intTooLong

theorem Mapper.stated_fromNative (mapper : Mapper) (native : NativeMetric) :
    FailsOnly Failure.IsStated (mapper.fromNative native) := by
  have hshown (v : Value) (e : StoreError) : FailsOnly Failure.IsStated
      (.error (.showing v e) : Except Failure Metric) :=
    failsOnly_error (Failure.isStated_showing v e)
  unfold fromNative
  split
  · split
    · exact failsOnly_ok _
    · exact hshown _ _
  · exact hshown _ _

namespace Postgres

variable {settings : Settings} {conn : Connection S}

theorem stated_tableOf (settings : Settings) (name : String) :
    FailsOnly Failure.IsStated (tableOf settings name) := by
  rw [tableOf]
  split
  · exact failsOnly_ok _
  · exact failsOnly_error (Failure.isStated_error _)

theorem fails_onConnection {operation : String} {index : Option String}
    (work : Task (State S) Failure α) :
    (onConnection settings conn operation index work).Fails Failure.IsStated :=
  fails_guarded _ fun _ => failsOnly_ok _

theorem stated_predicateOf (q : QueryRequest) : FailsOnly Failure.IsStated (predicateOf q) := by
  rw [predicateOf]
  split
  · exact failsOnly_ok _
  · next fields _ =>
    have hcompiled : FailsOnly Failure.IsStated
        ((Filter.compile (.object fields) 2).mapError Filter.Refusal.failure) :=
      .mapError fun r _ => r.isStated_failure
    exact hcompiled.bind fun compiled => failsOnly_ok (some compiled)

theorem own_queryParameters (q : QueryRequest) (predicate : Option Filter.Compiled) :
    FailsOnly Fault.Own (queryParameters q predicate) :=
  (FailsOnly.mapM (fun _ => own_bind _ _) _).bind fun _ => failsOnly_ok _

theorem states_backend (settings : Settings) (conn : Connection S) :
    (backend settings conn).States where
  createIndex name dimension m _ := by
    refine Task.Fails.andThen (stated_tableOf settings name) fun table => ?_
    exact (fails_onConnection _).andThen fun _ => fails_modify _
  describeIndex name _ :=
    Task.Fails.andThen (stated_tableOf settings name) fun table => fails_onConnection _
  listIndexes _ := fails_onConnection _
  deleteIndex name _ := by
    refine Task.Fails.andThen (stated_tableOf settings name) fun table => ?_
    exact (fails_onConnection _).andThen fun _ => fails_modify _
  upsertChunk name c _ := by
    refine Task.Fails.andThen (stated_tableOf settings name) fun table => ?_
    refine Task.Fails.andThen (stated_fault (FailsOnly.mapM own_row c.records)) fun rows => ?_
    exact (fails_onConnection _).andThen fun _ => fails_pure _
  query q _ := by
    refine Task.Fails.andThen (stated_tableOf settings q.name) fun table => ?_
    refine Task.Fails.andThen (stated_predicateOf q) fun predicate => ?_
    refine Task.Fails.andThen (stated_fault (own_queryParameters q predicate)) fun params => ?_
    refine (fails_onConnection _).andThen fun found => ?_
    exact stated_fault (found.2.own_toItems.bind fun rows => FailsOnly.mapM (own_matchOf _ _) rows)

end Postgres

namespace Vectorize

theorem fails_onService {operation : String} {index : Option String} (t : Task S Failure α) :
    (onService operation index t).Fails Failure.IsStated :=
  fails_guarded t fun _ => failsOnly_ok _

theorem stated_descriptorOf (config : IndexConfig) (info : IndexInfo) :
    FailsOnly Failure.IsStated (descriptorOf config info) :=
  (stated_fault (Value.own_toInt _)).bind fun _ => (Mapper.stated_fromNative _ _).bind fun _ =>
    (stated_fault (Value.own_toInt _)).bind fun _ => failsOnly_ok _

theorem stated_checkValues (q : QueryRequest) : FailsOnly Failure.IsStated (checkValues q) := by
  rw [checkValues]
  split
  · exact failsOnly_error (Failure.isStated_showing _ _)
  · exact failsOnly_ok _

theorem states_backend (client : Client S) : (backend client).States where
  createIndex _ _ _ _ := fails_onService _
  describeIndex _ _ := (fails_onService _).andThen fun found => stated_descriptorOf found.1 found.2
  listIndexes _ := fails_onService _
  deleteIndex _ _ := fails_onService _
  upsertChunk _ c _ := by
    refine Task.Fails.andThen (stated_fault (own_ndjson (c.records.map lineOf))) fun body => ?_
    exact (fails_onService _).andThen fun _ => fails_pure _
  query q _ := by
    refine Task.Fails.andThen (stated_checkValues q) fun _ => ?_
    refine (fails_onService _).andThen fun found => ?_
    refine Task.Fails.andThen (Mapper.stated_fromNative _ _) fun m => ?_
    exact stated_fault (FailsOnly.mapM (own_matchOf m _) found.2)

end Vectorize

namespace Qdrant

theorem own_retryAfterMs (v : Value) : FailsOnly Fault.Own (retryAfterMs v) := by
  cases v with
  | float x => exact (Value.own_toInt _).bind fun ms => failsOnly_ok _
  | _ => exact failsOnly_ok _

theorem own_errorOf (r : Report) : FailsOnly Fault.Own (errorOf r) := by
  rw [errorOf]
  split
  · exact failsOnly_ok _
  · split
    · next status _ =>
      by_cases hlimit : status = 429
      · subst hlimit
        rw [statusError_limit]
        exact (own_retryAfterMs _).bind fun ms => failsOnly_ok _
      · obtain ⟨e, he, -⟩ := tells_statusError (r.tells_append [("status_code", r.status)]) hlimit
        rw [he]
        exact failsOnly_ok e
    · exact failsOnly_ok _

theorem fails_onService {operation : String} {index : Option String}
    (t : Task (Known S) Failure α) : (onService operation index t).Fails Failure.IsStated :=
  fails_guarded t own_errorOf

theorem stated_equals (key : String) (v : Value) : FailsOnly Failure.IsStated (equals key v) := by
  cases v with
  | bool _ | int _ | text _ | float _ => exact failsOnly_ok _
  | _ => exact failsOnly_error (Failure.isStated_error _)

theorem stated_ofCondition (c : Filter.Condition) :
    FailsOnly Failure.IsStated (Clause.ofCondition c) := by
  rw [Clause.ofCondition]
  dsimp only
  split
  · exact stated_equals _ _
  · exact (stated_equals _ _).bind fun _ => failsOnly_ok _
  iterate 4 exact (stated_fault (Value.own_toFloat _)).bind fun _ => failsOnly_ok _
  iterate 2 exact (stated_fault (Value.own_toText _)).bind fun _ => failsOnly_ok _
  · refine FailsOnly.bind (.mapError fun r _ => r.isStated_failure) fun vs => ?_
    split
    · exact failsOnly_ok _
    · exact failsOnly_error (Failure.isStated_fault nofun)
  · exact (FailsOnly.mapM (fun _ => stated_equals _ _) _).bind fun _ => failsOnly_ok _
  · exact failsOnly_ok _

mutual

theorem stated_ofFilter : ∀ f : Filter, FailsOnly Failure.IsStated (Clause.ofFilter f)
  | .entries parts => by
    rw [Clause.ofFilter]
    split
    · exact failsOnly_error (Failure.isStated_error _)
    · exact (stated_ofFilters parts).bind fun _ => failsOnly_ok _
  | .group .and children => by
    rw [Clause.ofFilter]
    exact (stated_ofFilters children).bind fun _ => failsOnly_ok _
  | .group .or children => by
    rw [Clause.ofFilter]
    exact (stated_ofFilters children).bind fun _ => failsOnly_ok _
  | .leaf c => stated_ofCondition c
  | .refused r => failsOnly_error r.isStated_failure
  | .foreign _ => failsOnly_error (Failure.isStated_error _)

theorem stated_ofFilters : ∀ fs : List Filter, FailsOnly Failure.IsStated (Clause.ofFilters fs)
  | [] => failsOnly_ok _
  | f :: fs => by
    rw [Clause.ofFilters]
    exact (stated_ofFilter f).bind fun _ => (stated_ofFilters fs).bind fun _ => failsOnly_ok _

end

theorem stated_filterOf (q : QueryRequest) : FailsOnly Failure.IsStated (filterOf q) := by
  rw [filterOf]
  split
  · exact failsOnly_ok _
  · exact (stated_ofFilter _).bind fun _ => failsOnly_ok _

theorem stated_shapeOf (vectors : Vectors) : FailsOnly Failure.IsStated (shapeOf vectors) := by
  unfold shapeOf
  split
  · exact failsOnly_ok _
  · exact failsOnly_ok _
  · exact failsOnly_error (Failure.isStated_error _)

theorem states_backend (client : Client S) : (backend client).States where
  createIndex _ _ _ _ := (fails_onService _).andThen fun _ => fails_modify _
  describeIndex name _ := by
    refine (fails_onService _).andThen fun c => ?_
    refine Task.Fails.andThen (stated_shapeOf c.vectors) fun shape => ?_
    refine Task.Fails.andThen (Mapper.stated_fromNative _ _) fun m =>
      (fails_modify _).andThen fun _ => ?_
    refine Task.Fails.andThen (stated_fault (Value.own_toInt _)) fun dimension => ?_
    exact Task.Fails.andThen (stated_fault (Value.own_toInt _)) fun count => fails_pure _
  listIndexes _ := (fails_onService _).andThen fun names =>
    stated_fault (FailsOnly.mapM Value.own_toText names)
  deleteIndex _ _ := (fails_onService _).andThen fun _ => fails_modify _
  upsertChunk _ c _ := by
    refine Task.Fails.andThen (stated_fault (FailsOnly.mapM own_point c.records)) fun points => ?_
    exact (fails_onService _).andThen fun _ => fails_pure _
  query q _ := by
    refine Task.Fails.andThen (stated_filterOf q) fun filter => ?_
    refine (fails_onService _).andThen fun found => ?_
    exact stated_fault (FailsOnly.mapM (own_matchOf _ _) found.2)

end Qdrant

/-- Work on a connection of the pool, without a guard. -/
def Postgres.onPool (settings : Postgres.Settings) (conn : Postgres.Connection S)
    (work : Task (Postgres.State S) Failure α) : Task (Postgres.State S) Failure α :=
  (Postgres.ensureOpen settings conn).andThen fun _ => Postgres.withConnection conn work

/-- **Errors of the services are translated.**  Every translation succeeds, and its details tell
    the operation and the index, unless Qdrant limits the rate and asks for an endless wait.  So
    an ordinary fault of a task leaves the guard of an adapter as the cause of a store error with
    such details, and no operation of a backend fails with an error of its driver as it is. -/
theorem errors_translated [Clocked S] :
    (∀ r : Report, r.Tells (Postgres.errorOf r).details ∧ r.Tells (Vectorize.errorOf r).details ∧
      ((∃ e, Qdrant.errorOf r = .ok e ∧ r.Tells e.details) ↔ ¬ Qdrant.IsUnwaitable r)) ∧
    (∀ operation index,
      (∀ settings (conn : Postgres.Connection S) (work : Task (Postgres.State S) Failure α),
        Guards (fun _ => True) operation index (Postgres.onPool settings conn work)
          (Postgres.onConnection settings conn operation index work)) ∧
      (∀ t : Task S Failure α,
        Guards (fun _ => True) operation index t (Vectorize.onService operation index t)) ∧
      ∀ t : Task (Known S) Failure α,
        Guards (¬ Qdrant.IsUnwaitable ·) operation index t (Qdrant.onService operation index t)) ∧
    (∀ settings (conn : Postgres.Connection S), (Postgres.backend settings conn).States) ∧
    (∀ client : Vectorize.Client S, (Vectorize.backend client).States) ∧
    ∀ client : Qdrant.Client S, (Qdrant.backend client).States := by
  refine ⟨fun r => ⟨Postgres.tells_errorOf r, Vectorize.tells_errorOf r,
    Qdrant.tells_errorOf_iff r⟩, fun operation index => ⟨?_, ?_, ?_⟩, Postgres.states_backend,
    Vectorize.states_backend, Qdrant.states_backend⟩
  · intro settings conn work
    exact guards (fun r _ => ⟨_, rfl, Postgres.tells_errorOf r⟩) operation index _
  · intro t
    exact guards (fun r _ => ⟨_, rfl, Vectorize.tells_errorOf r⟩) operation index t
  · intro t
    exact guards (fun r => (Qdrant.tells_errorOf_iff r).2) operation index t

/-- A rate limit with a wait of one and a half seconds. -/
def slowDown : DriverError :=
  ⟨.driver, "slow down", none, some (.int 429), some (.float 1.5)⟩

/-- A query that meets the limit fails with the limit as the cause. -/
theorem errors_translated_slowDown :
    let t : Task (Known (List String)) Failure Unit := .fail (.fault (.driver slowDown))
    ∃ e, (Qdrant.onService "query" (some "docs") t).run (.start []) =
        (.error (.chained e (.fault (.driver slowDown))), .start []) ∧
      Fields.get? e.details "op" = some (.text "query") ∧
      Fields.get? e.details "index" = some (.text "docs") := by
  have hwait : ¬ Qdrant.IsUnwaitable ⟨"query", some "docs", .fault (.driver slowDown)⟩ := by
    rintro ⟨-, -, _, ⟨⟩, hend⟩
    exact hend false _ _ rfl
  obtain ⟨-, hguards, -⟩ := errors_translated (S := List String) (α := Unit)
  obtain ⟨e, hrun, hop, hindex⟩ := (hguards "query" (some "docs")).2.2
    (.fail (.fault (.driver slowDown))) (.start []) (.start []) _ rfl rfl hwait
  exact ⟨e, hrun, hop, hindex "docs" rfl⟩

/-- A rate limit with an endless wait is not translated: the query fails with another fault, which
    tells nothing of it. -/
theorem untranslated_endless :
    let r : Report := ⟨"query", some "docs", .fault (.driver
      { slowDown with retryAfter := some (.float Number.infinity) })⟩
    Qdrant.errorOf r = .error .infinityToInt ∧
      Report.diagnosed Qdrant.errorOf r = .fault .infinityToInt := ⟨rfl, rfl⟩

end VectorStore
