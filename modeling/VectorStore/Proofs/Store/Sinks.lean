/-
  What a sink can change.

  Every operation is run beside itself with a sink that takes everything.

  * `Unmoved`: a task ends in the same way, in the same session but for the events;
  * `Counts`: so does a task that counts, unless the sink refuses a count; then it has failed
    with the fault of the sink, in the same session all the same;
  * `serve_sink`: an observation that is refused makes no difference to any call, and a refused
    count none to the indexes, but it is what the call fails with.
-/
import VectorStore.Memory.Store
import VectorStore.Proofs.Batch.Noted
import VectorStore.Proofs.Store.Calls
import VectorStore.Proofs.Store.Queries

namespace VectorStore

variable {β α γ : Type}

/-- The session with another sink, which has taken other events. -/
def Session.measuredBy (sink : Sink) (events : List Event) (s : Session β) : Session β :=
  { s with sink, events }

/-- The session with a sink that takes everything. -/
abbrev Session.unrefused (events : List Event) (s : Session β) : Session β :=
  s.measuredBy Session.takesAll events

/-- The sink refuses some count with a fault. -/
def RefusesCount (sink : Sink) (f : Fault) : Prop :=
  ∃ events component name value, sink events (.counter component name value) = some f

/-- The sink refuses all counts. -/
def RefusesCounts (sink : Sink) : Prop :=
  ∀ events component name value, sink events (.counter component name value) ≠ none

/-- Whether a request counts what it does. -/
def Request.counts : Request → Bool
  | .upsert .. | .upsertWithReport .. | .query .. => true
  | _ => false

namespace Store

/-! ## Tasks and sinks -/

/-- The task ends as it does with a sink that takes everything. -/
def Unmoved (t : Task (Session β) Failure α) : Prop :=
  ∀ s events, (t.run s).2.sink = s.sink ∧ ∃ events',
    t.run (s.unrefused events) = ((t.run s).1, (t.run s).2.unrefused events')

/-- An operation has ended in a session with a sink as with one that takes everything, or it has
    failed since the sink refused to count. -/
structure Counted (sink : Sink) (r r' : Except Failure α × Session β) : Prop where
  sink_eq : r.2.sink = sink
  session : ∃ events, r'.2 = r.2.unrefused events
  result : r.1 = r'.1 ∨ ∃ f, RefusesCount sink f ∧ r.1 = .error (.fault f)
  fails : RefusesCounts sink → ∀ a, r.1 ≠ .ok a

def Counts (t : Task (Session β) Failure α) : Prop :=
  ∀ s events, Counted s.sink (t.run s) (t.run (s.unrefused events))

/-- A task to which no sink makes a difference. -/
theorem unmoved_of_run {t : Task (Session β) Failure α}
    (h : ∀ sink events s, t.run (Session.measuredBy sink events s) =
      Prod.map id (Session.measuredBy sink events) (t.run s)) : Unmoved t := by
  intro s events
  refine ⟨?_, events, h Session.takesAll events s⟩
  have hself : t.run s = Prod.map id (Session.measuredBy s.sink s.events) (t.run s) :=
    h s.sink s.events s
  exact congrArg (fun r => r.2.sink) hself

theorem unmoved_ofExcept (r : Except Failure α) :
    Unmoved (.ofExcept r : Task (Session β) Failure α) := fun _ events => ⟨rfl, events, rfl⟩

/-- A task that may note something as an event. -/
theorem unmoved_of_noted {t : Task (Session β) Failure α} {r : Except Failure α}
    (h : ∀ s, ∃ events, t.run s = (r, s.measuredBy s.sink events)) : Unmoved t := by
  intro s events
  obtain ⟨events₁, h₁⟩ := h s
  obtain ⟨events₂, h₂⟩ := h (s.unrefused events)
  rw [h₁, h₂]
  exact ⟨rfl, events₂, rfl⟩

theorem unmoved_warn (logger message : String) :
    Unmoved (.modify (Session.warn logger message) : Task (Session β) Failure Unit) :=
  fun _ events => ⟨rfl, events, rfl⟩

theorem unmoved_takeRecords (vectors metadata ids : Value) :
    Unmoved (takeRecords vectors metadata ids : Task (Session β) Failure (List Record)) :=
  fun _ events => ⟨rfl, events, rfl⟩

theorem Unmoved.bind {t : Task (Session β) Failure α} {k : α → Task (Session β) Failure γ}
    (ht : Unmoved t) (hk : ∀ a, Unmoved (k a)) : Unmoved (t >>= k) := by
  intro s events
  obtain ⟨hsink, events₁, ht⟩ := ht s events
  rcases hr : t.run s with ⟨f | a, s₁⟩ <;> rw [hr] at hsink ht
  · rw [Task.run_bind_error hr, Task.run_bind_error ht]
    exact ⟨hsink, events₁, rfl⟩
  · rw [Task.run_bind_ok hr, Task.run_bind_ok ht]
    obtain ⟨hsink', events₂, hk⟩ := hk a s₁ events₁
    exact ⟨hsink'.trans hsink, events₂, hk⟩

theorem Unmoved.recover {t : Task (Session β) Failure α}
    {handler : Failure → Task (Session β) Failure α} (ht : Unmoved t)
    (hh : ∀ f, Unmoved (handler f)) : Unmoved (t.recover handler) := by
  intro s events
  obtain ⟨hsink, events₁, ht⟩ := ht s events
  rw [Task.run_recover, Task.run_recover, ht]
  rcases hr : t.run s with ⟨f | a, s₁⟩ <;> rw [hr] at hsink
  · obtain ⟨hsink', events₂, hh⟩ := hh f s₁ events₁
    exact ⟨hsink'.trans hsink, events₂, hh⟩
  · exact ⟨hsink, events₁, rfl⟩

/-- A look at the session that sees nothing of the sink. -/
theorem unmoved_read {next : Session β → Task (Session β) Failure α} (h : ∀ s, Unmoved (next s))
    (hnext : ∀ s events, next (s.unrefused events) = next s) : Unmoved (.read next) := by
  intro s events
  obtain ⟨hsink, events', hrun⟩ := h s s events
  refine ⟨hsink, events', ?_⟩
  rw [← hnext s events] at hrun
  rw [Task.run, hrun, hnext]
  rfl

/-- What a task counts in the end. -/
theorem Unmoved.counts_bind {t : Task (Session β) Failure α}
    {k : α → Task (Session β) Failure γ} (ht : Unmoved t) (hk : ∀ a, Counts (k a)) :
    Counts (t >>= k) := by
  intro s events
  obtain ⟨hsink, events₁, ht⟩ := ht s events
  rcases hr : t.run s with ⟨f | a, s₁⟩ <;> rw [hr] at hsink ht
  · rw [Task.run_bind_error hr, Task.run_bind_error ht]
    exact ⟨hsink, ⟨events₁, rfl⟩, .inl rfl, fun _ _ => nofun⟩
  · rw [Task.run_bind_ok hr, Task.run_bind_ok ht, ← hsink]
    exact hk a s₁ events₁

/-- What is made of the result in the end. -/
theorem Counts.then {t : Task (Session β) Failure α} {k : α → Task (Session β) Failure γ}
    (ht : Counts t) (hk : ∀ a, ∃ r, k a = .ofExcept r) : Counts (t >>= k) := by
  choose f hf using hk
  obtain rfl : k = fun a => .ofExcept (f a) := funext hf
  intro s events
  obtain ⟨hsink, ⟨events₁, hsession⟩, hresult, hfails⟩ := ht s events
  rcases hr : t.run s with ⟨e | a, s₁⟩ <;>
    rcases hr' : t.run (s.unrefused events) with ⟨e' | a', s₁'⟩ <;>
    simp only [hr, hr'] at hsink hsession hresult hfails
  · rw [Task.run_bind_error hr, Task.run_bind_error hr']
    exact ⟨hsink, ⟨events₁, hsession⟩, by simpa using hresult, fun _ _ => nofun⟩
  · rw [Task.run_bind_error hr, Task.run_bind_ok hr']
    refine ⟨hsink, ⟨events₁, hsession⟩, .inr ?_, fun _ _ => nofun⟩
    simpa using hresult
  · simp at hresult
  · rw [Task.run_bind_ok hr, Task.run_bind_ok hr']
    obtain rfl : a = a' := by simpa using hresult
    exact ⟨hsink, ⟨events₁, hsession⟩, .inl rfl, fun h => absurd rfl (hfails h a)⟩

/-- What follows a failure may note it as an event. -/
theorem Counts.recover {t : Task (Session β) Failure α}
    {handler : Failure → Task (Session β) Failure α} (ht : Counts t)
    (hh : ∀ f s, ∃ events, (handler f).run s = (.error f, s.measuredBy s.sink events)) :
    Counts (t.recover handler) := by
  intro s events
  obtain ⟨hsink, ⟨events₁, hsession⟩, hresult, hfails⟩ := ht s events
  rw [Task.run_recover, Task.run_recover]
  rcases hr : t.run s with ⟨e | a, s₁⟩ <;>
    rcases hr' : t.run (s.unrefused events) with ⟨e' | a', s₁'⟩ <;>
    simp only [hr, hr'] at hsink hsession hresult hfails <;> subst hsession
  · obtain ⟨events₂, hh₂⟩ := hh e s₁
    obtain ⟨events₃, hh₃⟩ := hh e' (s₁.unrefused events₁)
    dsimp only
    rw [hh₂, hh₃]
    exact ⟨hsink, ⟨events₃, rfl⟩, hresult, fun _ _ => nofun⟩
  · obtain ⟨events₂, hh₂⟩ := hh e s₁
    dsimp only
    rw [hh₂]
    exact ⟨hsink, ⟨events₁, rfl⟩, hresult, fun _ _ => nofun⟩
  · simp at hresult
  · exact ⟨hsink, ⟨events₁, rfl⟩, hresult, hfails⟩

/-! ## Measuring -/

section

variable (st : Store β) (operation : String) (began : Time) (ctx : Option Context)
  (extra : Fields)

/-- An observation changes nothing but the events that were taken. -/
theorem observe_eq (component : String) (ok : Bool) (code : String) (s : Session β) :
    ∃ events, Session.observe component operation began ok code ctx extra s =
      s.measuredBy s.sink events := by
  rw [Session.observe]
  split
  · exact ⟨s.events, rfl⟩
  · dsimp only
    split
    · exact ⟨s.events, rfl⟩
    · exact ⟨_, rfl⟩

theorem unmoved_succeed : Unmoved (st.succeed operation began ctx extra) :=
  unmoved_of_noted fun s =>
    (observe_eq operation began ctx extra st.backend.component true "OK" s).imp fun _ h =>
      congrArg (Prod.mk (Except.ok ())) h

theorem counts_count (component name : String) (value : Int) :
    Counts (Session.count component name value : Task (Session β) Failure Unit) := by
  intro s events
  have hquiet : (Session.count (β := β) component name value).run (s.unrefused events) =
      (.ok (), s.unrefused (events ++ [.counter component name value])) := rfl
  rw [hquiet, Session.count, Task.run]
  dsimp only
  rcases h : s.sink s.events (.counter component name value) with _ | f
  · exact ⟨rfl, ⟨_, rfl⟩, .inl rfl, fun hall => absurd h (hall _ _ _ _)⟩
  · exact ⟨rfl, ⟨_, rfl⟩, .inr ⟨f, ⟨_, _, _, _, h⟩, rfl⟩, fun _ _ hok => by cases hok⟩

variable {st operation ctx extra} {body : Time → Task (Session β) Failure α}

/-- A failure is passed on once it is measured. -/
theorem run_failing (f : Failure) (s : Session β) : ∃ events,
    (if f.isCancellation then .fail f
      else (Task.modify (Session.observe st.backend.component operation began false f.code ctx
        extra)).andThen fun _ => .fail f : Task (Session β) Failure α).run s =
      (.error f, s.measuredBy s.sink events) := by
  split
  · exact ⟨s.events, rfl⟩
  · obtain ⟨events, h⟩ := observe_eq operation began ctx extra st.backend.component false f.code s
    exact ⟨events, congrArg (Prod.mk (Except.error f)) h⟩

theorem Unmoved.measured (h : ∀ began, Unmoved (body began)) :
    Unmoved (st.measured operation ctx extra body) := fun s events =>
  (h s.clock).recover (fun f => unmoved_of_noted (run_failing s.clock f)) s events

theorem Counts.measured (h : ∀ began, Counts (body began)) :
    Counts (st.measured operation ctx extra body) := fun s events =>
  (h s.clock).recover (run_failing s.clock) s events

end

/-! ## Tasks of the backend -/

section

variable {ctx : Option Context}

theorem sameClock_measuredBy (sink : Sink) (events : List Event) :
    Task.SameClock (Session.measuredBy (β := β) sink events) :=
  ⟨fun _ => rfl, fun _ _ => rfl⟩

theorem shows_ofBackend (t : Task β Failure α) (sink : Sink) (events : List Event)
    (s : Session β) :
    Task.Shows (Session.measuredBy sink events) s (Session.ofBackend t) (Session.ofBackend t) :=
  Task.shows_zoom (fun _ => by rfl) (fun _ _ => by rfl) t s

theorem unmoved_ofBackend (t : Task β Failure α) (d : Option (Task.Deadline Failure)) :
    Unmoved ((Session.ofBackend t).bounded d) :=
  unmoved_of_run fun sink events s =>
    ((shows_ofBackend t sink events s).bounded (sameClock_measuredBy sink events) d).run
      (sameClock_measuredBy sink events)

theorem unmoved_failIfExpired (ctx : Option Context) :
    Unmoved (failIfExpired ctx : Task (Session β) Failure Unit) := by
  cases ctx with
  | none => exact unmoved_ofExcept (.ok ())
  | some c =>
    refine unmoved_read (fun s => ?_) fun _ _ => rfl
    split
    · exact unmoved_ofExcept _
    · split
      · exact unmoved_ofExcept _
      · exact unmoved_ofExcept (.ok ())

theorem Unmoved.withDeadline {t : Option (Task.Deadline Failure) → Task (Session β) Failure α}
    (h : ∀ d, Unmoved (t d)) (ctx : Option Context) : Unmoved (Store.withDeadline ctx t) := by
  have hguarded (d : Option (Task.Deadline Failure)) :
      Unmoved ((t d).recover fun f => .fail (asTimeout f)) :=
    (h d).recover fun f => unmoved_ofExcept _
  cases ctx with
  | none => exact hguarded none
  | some c =>
    refine unmoved_read (fun s => ?_) fun _ _ => rfl
    split
    · exact unmoved_ofExcept _
    · exact hguarded none
    · exact unmoved_ofExcept _
    · exact hguarded _

theorem unmoved_byDeadline (ctx : Option Context) (t : Task β Failure α) :
    Unmoved (byDeadline ctx t) :=
  Unmoved.withDeadline (unmoved_ofBackend t) ctx

theorem unmoved_batched (st : Store β) (n : String) (rs : List Record) (ctx : Option Context)
    (caps : Capabilities) : Unmoved (st.batched n rs ctx caps) := by
  refine Unmoved.withDeadline (fun d => unmoved_of_run fun sink events s => ?_) ctx
  exact Batch.run_upsert_shows (sameClock_measuredBy sink events)
    (fun c q => shows_ofBackend _ sink events q) (fun _ _ => by rfl) _ _ _ _ _ s

end

/-! ## Operations -/

section

variable (st : Store β) (ctx : Option Context)

theorem unmoved_capabilities : Unmoved st.capabilities := by
  refine Unmoved.recover (Unmoved.measured fun began => ?_) fun f => unmoved_ofExcept _
  refine (unmoved_ofBackend st.backend.capabilities none).bind fun caps => ?_
  exact (unmoved_succeed st _ _ _ _).bind fun _ => unmoved_ofExcept (.ok caps)

theorem unmoved_createIndex (name dimension metric : Value) :
    Unmoved (st.createIndex name dimension metric ctx) := by
  refine (unmoved_ofExcept _).bind fun n => (unmoved_ofExcept _).bind fun d =>
    (unmoved_ofExcept _).bind fun m => (unmoved_failIfExpired ctx).bind fun _ =>
      Unmoved.measured fun began => ?_
  exact (unmoved_capabilities st).bind fun caps => (unmoved_ofExcept _).bind fun _ =>
    (unmoved_byDeadline ctx _).bind fun _ => unmoved_succeed st _ _ _ _

theorem unmoved_describeIndex (name : Value) : Unmoved (st.describeIndex name ctx) := by
  refine (unmoved_ofExcept _).bind fun n => (unmoved_failIfExpired ctx).bind fun _ =>
    Unmoved.measured fun began => ?_
  exact (unmoved_byDeadline ctx _).bind fun d => (unmoved_succeed st _ _ _ _).bind fun _ =>
    unmoved_ofExcept (.ok d)

theorem unmoved_listIndexes : Unmoved (st.listIndexes ctx) := by
  refine (unmoved_failIfExpired ctx).bind fun _ => Unmoved.measured fun began => ?_
  exact (unmoved_byDeadline ctx _).bind fun names => (unmoved_succeed st _ _ _ _).bind fun _ =>
    unmoved_ofExcept (.ok names)

theorem unmoved_deleteIndex (name : Value) : Unmoved (st.deleteIndex name ctx) := by
  refine (unmoved_ofExcept _).bind fun n => (unmoved_failIfExpired ctx).bind fun _ =>
    Unmoved.measured fun began => ?_
  exact (unmoved_byDeadline ctx _).bind fun _ => unmoved_succeed st _ _ _ _

theorem counts_runUpsert (operation : String) (name vectors metadata ids : Value) :
    Counts (st.runUpsert operation name vectors metadata ids ctx) := by
  rw [runUpsert_eq]
  refine (unmoved_ofExcept _).counts_bind fun n => (unmoved_takeRecords _ _ _).counts_bind fun rs =>
    (unmoved_failIfExpired ctx).counts_bind fun _ => Counts.measured fun began => ?_
  refine (unmoved_capabilities st).counts_bind fun caps =>
    (unmoved_batched st n rs ctx caps).counts_bind fun outcome => ?_
  have hcount : Counts (do
      st.succeed operation began ctx [("index", .text n), ("records", .int rs.length),
        ("chunks", .int outcome.chunks), ("failed", .int outcome.failures.length)]
      Session.count st.backend.component "vectors_upserted" (rs.length - outcome.failures.length)
      return outcome) :=
    (unmoved_succeed st _ _ _ _).counts_bind fun _ =>
      (counts_count _ _ _).then fun _ => ⟨.ok outcome, rfl⟩
  rw [reported]
  dsimp only
  split
  · exact (unmoved_warn _ _).counts_bind fun _ => hcount
  · exact hcount

theorem counts_upsert (name vectors metadata ids : Value) :
    Counts (st.upsert name vectors metadata ids ctx) := by
  refine (counts_runUpsert st ctx "upsert" name vectors metadata ids).then fun o => ?_
  split
  · exact ⟨.ok o.ids, rfl⟩
  · exact ⟨.error _, rfl⟩

theorem unmoved_checkFilter (caps : Capabilities) (name : String) (filter : Option Fields) :
    Unmoved (st.checkFilter caps name filter) := by
  unfold checkFilter
  split
  · exact unmoved_ofExcept (.ok ())
  · split
    · exact unmoved_ofExcept _
    · exact unmoved_warn _ _

theorem counts_query (name vector topK filter includeVector : Value) :
    Counts (st.query name vector topK filter includeVector ctx) := by
  rw [query_eq]
  refine (unmoved_ofExcept _).counts_bind fun q =>
    (unmoved_failIfExpired ctx).counts_bind fun _ => Counts.measured fun began => ?_
  refine (unmoved_capabilities st).counts_bind fun caps => (unmoved_ofExcept _).counts_bind fun _ =>
    (unmoved_checkFilter st caps _ _).counts_bind fun _ =>
      (unmoved_byDeadline ctx _).counts_bind fun found => ?_
  exact (unmoved_succeed st _ _ _ _).counts_bind fun _ =>
    (counts_count _ _ _).then fun _ => ⟨.ok _, rfl⟩

end

/-! ## Calls -/

section

variable (st : Store β) (ctx : Option Context) {request : Request}

theorem unmoved_perform (h : request.counts = false) : Unmoved (st.perform ctx request) := by
  cases request with
  | capabilities => exact (unmoved_capabilities st).bind fun _ => unmoved_ofExcept (.ok _)
  | createIndex name dimension metric =>
    exact (unmoved_createIndex st ctx name dimension metric).bind fun _ => unmoved_ofExcept (.ok _)
  | describeIndex name =>
    exact (unmoved_describeIndex st ctx name).bind fun _ => unmoved_ofExcept (.ok _)
  | listIndexes => exact (unmoved_listIndexes st ctx).bind fun _ => unmoved_ofExcept (.ok _)
  | deleteIndex name =>
    exact (unmoved_deleteIndex st ctx name).bind fun _ => unmoved_ofExcept (.ok _)
  | _ => cases h

theorem counts_perform (h : request.counts = true) : Counts (st.perform ctx request) := by
  cases request with
  | upsert name vectors metadata ids =>
    exact (counts_upsert st ctx name vectors metadata ids).then fun _ => ⟨.ok _, rfl⟩
  | upsertWithReport name vectors metadata ids =>
    exact (counts_runUpsert st ctx _ name vectors metadata ids).then fun _ => ⟨.ok _, rfl⟩
  | query name vector topK filter includeVector =>
    exact (counts_query st ctx name vector topK filter includeVector).then fun _ => ⟨.ok _, rfl⟩
  | _ => cases h

/-- What is answered to a call with a sink that may refuse events, and with one that takes
    everything. -/
structure Answered (sink : Sink) (e e' : Call × Except Failure Answer) : Prop where
  call : e.1 = e'.1
  result : e.2 = e'.2 ∨ e.1.request.counts = true ∧
    ∃ f, RefusesCount sink f ∧ e.2 = .error (.fault f)
  fails : e.1.request.counts = true → RefusesCounts sink → ∀ a, e.2 ≠ .ok a

/-- One call. -/
theorem answer_unrefused (st : Store β) (c : Call) (s : Session β) (events : List Event) :
    (∃ events', (st.answer c (s.unrefused events)).2 = (st.answer c s).2.unrefused events') ∧
      (st.answer c s).2.sink = s.sink ∧
      Answered s.sink (c, (st.answer c s).1) (c, (st.answer c (s.unrefused events)).1) := by
  rcases hc : c.request.counts with _ | _
  · obtain ⟨hsink, events', hrun⟩ := unmoved_perform st c.ctx hc (Clocked.atTime c.time s) events
    have h : st.answer c (s.unrefused events) =
        ((st.answer c s).1, (st.answer c s).2.unrefused events') := hrun
    rw [h]
    refine ⟨⟨events', rfl⟩, hsink, rfl, .inl rfl, fun hcounts => ?_⟩
    rw [hc] at hcounts
    cases hcounts
  · obtain ⟨hsink, hsession, hresult, hfails⟩ :=
      counts_perform st c.ctx hc (Clocked.atTime c.time s) events
    exact ⟨hsession, hsink, rfl, hresult.imp_right fun h => ⟨hc, h⟩, fun _ => hfails⟩

/-- Calls leave the sink as it is. -/
theorem sink_serve (st : Store β) (calls : List Call) (s : Session β) :
    (st.serve calls s).2.sink = s.sink := by
  induction calls generalizing s with
  | nil => rfl
  | cons c calls ih => exact (ih _).trans (answer_unrefused st c s s.events).2.1

/-- **Only a refused count makes a difference.**  Any calls are answered with any sink as with
    one that takes everything, and leave the same indexes and the same session but for the events,
    unless the sink refuses a count of a write or a query: then that call fails with the fault of
    the sink, whatever it has done.  With a sink that refuses all counts no write and no query
    succeeds. -/
theorem serve_unrefused (st : Store β) (calls : List Call) (s : Session β)
    (events : List Event) :
    (∃ events', (st.serve calls (s.unrefused events)).2 =
        (st.serve calls s).2.unrefused events') ∧
      (st.serve calls s).2.sink = s.sink ∧
      List.Forall₂ (Answered s.sink) (st.serve calls s).1
        (st.serve calls (s.unrefused events)).1 := by
  induction calls generalizing s events with
  | nil => exact ⟨⟨events, rfl⟩, rfl, .nil⟩
  | cons c calls ih =>
    obtain ⟨⟨events₁, hsession⟩, hsink, hanswered⟩ := answer_unrefused st c s events
    obtain ⟨hsession', hsink', hanswered'⟩ := ih (st.answer c s).2 events₁
    simp only [serve, hsession]
    exact ⟨hsession', hsink'.trans hsink, .cons hanswered (hsink ▸ hanswered')⟩

end

/-- A sink that refuses all counts, and takes everything else. -/
def refusesCounts : Sink := fun _ e =>
  if e.isCounter then some (.driver ⟨.runtime, "counter down", none, none, none⟩) else none

/-- An index is made, and a record is written. -/
def oneWrite : List Call :=
  [⟨.createIndex (.text "docs") (.int 1) (.text "cosine"), none, 0⟩,
    ⟨.upsert (.text "docs") (.list [.list [.float 0.5]]) .null (.list [.text "a"]), none, 0⟩]

/-- How the calls of a log have ended: with ids or without any, or with a failure of some kind and
    message. -/
def endings (log : Log) : List (Except (String × String) (Option (List String))) :=
  log.map fun e => (e.2.map Answer.ids?).mapError fun f => (f.label, f.message)

/-- The write succeeds; with a sink that refuses to count it, it fails, and the record is there. -/
theorem serve_refusesCounts :
    let st : Store Memory.State := ⟨Memory.backend "memory", Config.default⟩
    let run (sink : Sink) := st.serve oneWrite (Session.start [] sink)
    endings (run Session.takesAll).1 = [.ok none, .ok (some ["a"])] ∧
      endings (run refusesCounts).1 = [.ok none, .error ("RuntimeError", "counter down")] ∧
      (run refusesCounts).2.backend.map (fun e => (e.1, e.2.records.map (·.1))) =
        [("docs", ["a"])] := by
  decide +kernel

end Store

end VectorStore
