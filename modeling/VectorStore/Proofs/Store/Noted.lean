/-
  Backends that note their queries.

  * `Backend.recorded` notes each query that it is given, before it is carried out;
  * `run_noted`: so a query is noted once, whatever becomes of it; `run_unnoted`: nothing else is
    noted;
  * `run_query_recorded`: and the notes make no difference to a query.
-/
import VectorStore.Proofs.Store.Sinks

namespace VectorStore

variable {β γ α : Type}

/-- The backend, with the queries noted that it is given. -/
def Backend.recorded (b : Backend β) : Backend (β × List QueryRequest) where
  component := b.component
  capabilities := b.capabilities.onFirst
  createIndex name dimension m ctx := (b.createIndex name dimension m ctx).onFirst
  describeIndex name ctx := (b.describeIndex name ctx).onFirst
  listIndexes ctx := (b.listIndexes ctx).onFirst
  deleteIndex name ctx := (b.deleteIndex name ctx).onFirst
  upsertChunk name c ctx := (b.upsertChunk name c ctx).onFirst
  query q ctx := (Task.modify fun p => (p.1, p.2 ++ [q])).andThen fun _ => (b.query q ctx).onFirst

/-- The session without the notes of its backend. -/
def Session.unrecorded (s : Session (β × γ)) : Session β :=
  ⟨s.clock, s.drawn, s.logs, s.notices, s.events, s.sink, s.backend.1⟩

/-- The session with other notes and another log. -/
def Session.rewritten (notes : γ) (logs : List LogLine) (s : Session (β × γ)) :
    Session (β × γ) :=
  { s with logs, backend := (s.backend.1, notes) }

namespace Store

/-- The store, with the queries noted that its backend is given. -/
def recorded (st : Store β) : Store (β × List QueryRequest) := ⟨st.backend.recorded, st.config⟩

/-! ## Notes -/

/-- A task that shows itself on a backend shows itself in a session. -/
theorem shows_session {inner : β → γ} {view : Session β → Session γ} {t : Task β Failure α}
    {t' : Task γ Failure α} {s : Session β} (hget : ∀ s, (view s).backend = inner s.backend)
    (hput : ∀ b s, view { s with backend := b } = { view s with backend := inner b })
    (h : Task.Shows inner s.backend t t') :
    Task.Shows view s (Session.ofBackend t) (Session.ofBackend t') :=
  h.part Session.part_backend Session.part_backend hget hput

theorem sameClock_rewritten (notes : γ) (logs : List LogLine) :
    Task.SameClock (Session.rewritten (β := β) notes logs) :=
  ⟨fun _ => rfl, fun _ _ => rfl⟩

/-- A task that notes nothing takes no notice of the notes and the log. -/
theorem shows_rewritten (t : Task β Failure α) (notes : γ) (logs : List LogLine)
    (s : Session (β × γ)) :
    Task.Shows (Session.rewritten notes logs) s (Session.ofBackend t.onFirst)
      (Session.ofBackend t.onFirst) := by
  let view (p : β × γ) : β × γ := (p.1, notes)
  have hget (p) : (view p).1 = p.1 := rfl
  have hput (b : β) (p) : view (b, p.2) = (b, (view p).2) := rfl
  have hinner : Task.Shows view s.backend t.onFirst t.onFirst :=
    Task.shows_zoom hget hput t s.backend
  exact shows_session (fun _ => rfl) (fun _ _ => rfl) hinner

/-- A task that notes nothing leaves the notes and the log. -/
theorem run_unnoted (t : Task β Failure α) (d : Option (Task.Deadline Failure))
    (s : Session (β × γ)) :
    (((Session.ofBackend t.onFirst).bounded d).run s).2.backend.2 = s.backend.2 ∧
      (((Session.ofBackend t.onFirst).bounded d).run s).2.logs = s.logs := by
  have hrun := ((shows_rewritten t s.backend.2 s.logs s).bounded
    (sameClock_rewritten s.backend.2 s.logs) d).run (sameClock_rewritten s.backend.2 s.logs)
  have hself : s.rewritten s.backend.2 s.logs = s := rfl
  rw [hself] at hrun
  rw [hrun]
  exact ⟨rfl, rfl⟩

/-! ## Queries -/

/-- A query is noted, whatever becomes of it. -/
theorem run_noted (st : Store β) (q : QueryRequest) (ctx : Option Context)
    (d : Option (Task.Deadline Failure)) (s : Session (β × List QueryRequest)) :
    (((Session.ofBackend (st.recorded.backend.query q ctx)).bounded d).run s).2.backend.2 =
        s.backend.2 ++ [q] ∧
      (((Session.ofBackend (st.recorded.backend.query q ctx)).bounded d).run s).2.logs = s.logs := by
  have hfirst : ((Session.ofBackend (st.recorded.backend.query q ctx)).bounded d).run s =
      ((Session.ofBackend (st.backend.query q ctx).onFirst).bounded d).run
        { s with backend := (s.backend.1, s.backend.2 ++ [q]) } := by
    cases d <;> rfl
  rw [hfirst]
  exact run_unnoted (st.backend.query q ctx) d
    { s with backend := (s.backend.1, s.backend.2 ++ [q]) }

/-! ## Without the notes -/

section

variable (st : Store β) (ctx : Option Context)

theorem unrecorded_observe (component operation : String) (began : Time) (ok : Bool)
    (code : String) (extra : Fields) (s : Session (β × γ)) :
    (Session.observe component operation began ok code ctx extra s).unrecorded =
      Session.observe component operation began ok code ctx extra s.unrecorded := by
  rw [Session.observe, Session.observe]
  have hnow : s.unrecorded.now = s.now := rfl
  rw [hnow]
  rcases Session.bucketFields ctx s.now with f | more
  · rfl
  · dsimp only
    have hsink (event : Event) : s.unrecorded.sink s.unrecorded.events event =
        s.sink s.events event := rfl
    have hclock : s.unrecorded.clock = s.clock := rfl
    rw [hsink, hclock]
    split <;> rfl

theorem shows_measured {operation : String} {extra : Fields}
    {body : Time → Task (Session (β × List QueryRequest)) Failure α}
    {body' : Time → Task (Session β) Failure α}
    (h : ∀ began s, Task.Shows Session.unrecorded s (body began) (body' began))
    (s : Session (β × List QueryRequest)) :
    Task.Shows Session.unrecorded s (st.recorded.measured operation ctx extra body)
      (st.measured operation ctx extra body') := by
  refine .read ((h _ s).recover fun f s' => ?_)
  split
  · exact Task.shows_ofExcept _ s'
  · exact (Task.shows_modify (unrecorded_observe ctx _ _ _ _ _ _) s').andThen fun _ =>
      Task.shows_ofExcept _

theorem shows_succeed (operation : String) (began : Time) (extra : Fields)
    (s : Session (β × List QueryRequest)) :
    Task.Shows Session.unrecorded s (st.recorded.succeed operation began ctx extra)
      (st.succeed operation began ctx extra) :=
  Task.shows_modify (unrecorded_observe ctx _ _ _ _ _ _) s

theorem shows_unrecorded (t : Task β Failure α) (s : Session (β × List QueryRequest)) :
    Task.Shows Session.unrecorded s (Session.ofBackend t.onFirst) (Session.ofBackend t) :=
  shows_session (fun _ => rfl) (fun _ _ => rfl) (Task.shows_fst t s.backend)

theorem shows_capabilities (s : Session (β × List QueryRequest)) :
    Task.Shows Session.unrecorded s st.recorded.capabilities st.capabilities := by
  refine (shows_measured st none (fun began s => ?_) s).recover fun f => Task.shows_ofExcept _
  exact (shows_unrecorded st.backend.capabilities s).andThen fun caps s =>
    (shows_succeed st none "capabilities" began [] s).andThen fun _ => Task.shows_ret caps

theorem shows_failIfExpired (s : Session (β × List QueryRequest)) :
    Task.Shows Session.unrecorded s (failIfExpired ctx) (failIfExpired ctx) := by
  cases ctx with
  | none => exact Task.shows_ret () s
  | some c =>
    refine .read ?_
    have hnow : s.unrecorded.now = s.now := rfl
    rw [hnow]
    split
    · exact Task.shows_ofExcept _ s
    · split
      · exact Task.shows_ofExcept _ s
      · exact Task.shows_ret () s

/-- A task of the backend with a deadline shows itself through a view that keeps the time. -/
theorem shows_byDeadline {ρ : Type} {view : Session ρ → Session γ} (hview : Task.SameClock view)
    {t : Task ρ Failure α} {t' : Task γ Failure α}
    (h : ∀ s, Task.Shows view s (Session.ofBackend t) (Session.ofBackend t')) (s : Session ρ) :
    Task.Shows view s (byDeadline ctx t) (byDeadline ctx t') := by
  have hguarded (d : Option (Task.Deadline Failure)) : Task.Shows view s
      (((Session.ofBackend t).bounded d).recover fun f => .fail (asTimeout f))
      (((Session.ofBackend t').bounded d).recover fun f => .fail (asTimeout f)) :=
    ((h s).bounded hview d).recover fun f => Task.shows_ofExcept _
  cases ctx with
  | none => exact hguarded none
  | some c =>
    refine .read ?_
    have hclock : (view s).clock = s.clock := hview.clock s
    have hnow : (view s).now = s.now := by
      rw [Session.now, Session.wallTime, hclock, ← Session.wallTime, ← Session.now]
    rw [hnow, hclock]
    split
    · exact Task.shows_ofExcept _ s
    · exact hguarded none
    · exact Task.shows_ofExcept _ s
    · exact hguarded _

theorem shows_checkFilter (caps : Capabilities) (name : String) (filter : Option Fields)
    (s : Session (β × List QueryRequest)) :
    Task.Shows Session.unrecorded s (st.recorded.checkFilter caps name filter)
      (st.checkFilter caps name filter) := by
  rw [checkFilter, checkFilter]
  split
  · exact Task.shows_ret () s
  · have hconfig : st.recorded.config = st.config := rfl
    rw [hconfig]
    split
    · exact Task.shows_ofExcept _ s
    · have hwarn (message : String) (s : Session (β × List QueryRequest)) :
          (s.warn logger message).unrecorded = s.unrecorded.warn logger message := rfl
      exact Task.shows_modify (hwarn _) s

theorem shows_answered (q : QueryRequest) (began : Time) (found : List Match)
    (s : Session (β × List QueryRequest)) :
    Task.Shows Session.unrecorded s (st.recorded.answered q ctx began found)
      (st.answered q ctx began found) := by
  refine (shows_succeed st ctx _ began _ s).andThen fun _ s => ?_
  refine Task.Shows.andThen (.read ?_) fun _ => Task.shows_ret _
  have hsink (event : Event) : s.unrecorded.sink s.unrecorded.events event =
      s.sink s.events event := rfl
  have hcomponent : st.recorded.backend.component = st.backend.component := rfl
  dsimp only
  rw [hsink, hcomponent]
  split
  · exact Task.shows_ofExcept _ s
  · have hs (events : List Event) : ({ s with events } : Session _).unrecorded =
        { s.unrecorded with events } := rfl
    rw [← hs]
    exact .write (Task.shows_ret () _)

/-- **Noting queries changes nothing else.** -/
theorem run_query_recorded (name vector topK filter includeVector : Value)
    (s : Session (β × List QueryRequest)) :
    (st.query name vector topK filter includeVector ctx).run s.unrecorded =
      Prod.map id Session.unrecorded
        ((st.recorded.query name vector topK filter includeVector ctx).run s) := by
  have hclock : Task.SameClock (Session.unrecorded (β := β) (γ := List QueryRequest)) :=
    ⟨fun _ => rfl, fun _ _ => rfl⟩
  refine Task.Shows.run ?_ hclock
  rw [query_eq, query_eq]
  refine (Task.shows_ofExcept _ s).andThen fun q s => ?_
  refine (shows_failIfExpired ctx s).andThen fun _ s => shows_measured st ctx (fun began s => ?_) s
  refine (shows_capabilities st s).andThen fun caps s => ?_
  refine (Task.shows_ofExcept _ s).andThen fun _ s => ?_
  refine (shows_checkFilter st caps q.name q.filter s).andThen fun _ s => ?_
  refine (shows_byDeadline ctx hclock (fun s => ?_) s).andThen fun found =>
    shows_answered st ctx q began found
  have hquery := shows_unrecorded (st.backend.query q ctx)
    { s with backend := (s.backend.1, s.backend.2 ++ [q]) }
  exact ⟨hquery.state, hquery.rest⟩

end

end Store

end VectorStore
