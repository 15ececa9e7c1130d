/-
  Operations that keep their deadline.

  Every operation with a deadline is run beside the same operation without it.

  * `Backend.Waits`: what a backend waits for ends at times from zero on;
  * `EndsAlike`: parts of operations that take no time end alike, in sessions that are the same but
    for the events;
  * `punctual_withDeadline`: what is done within a deadline keeps it;
  * `punctual_byDeadline`, `punctual_batched`: so do a task of the backend and a batched write;
  * `punctual_describeIndex` and the theorems after it: so does each operation.
-/
import VectorStore.Proofs.Batch.Punctual
import VectorStore.Proofs.Store.Deadlines
import VectorStore.Proofs.Store.Sinks

namespace VectorStore

variable {β α γ : Type}

/-! ## Sessions -/

instance : LawfulClock (Session β) where
  clock_atTime _ _ := rfl

/-- The sessions are the same but for the events. -/
def Session.Alike (s s' : Session β) : Prop := ∃ events, s' = { s with events }

theorem Session.Alike.refl (s : Session β) : s.Alike s := ⟨s.events, rfl⟩

theorem Session.nonneg_now {s : Session β} (h : 0 ≤ s.clock) : 0 ≤ s.now := by
  have hwhole : 0 ≤ epoch + s.clock.wholeMilliseconds :=
    Int.add_nonneg (by decide) (Time.nonneg_wholeMilliseconds h)
  have hwall : 0 ≤ s.wallTime := by
    rw [wallTime]
    rcases hn : Number.ofInt? (epoch + s.clock.wholeMilliseconds) with _ | x
    · exact Time.nonneg_ofMilliseconds (Number.nonneg_iff.2 (by decide))
    · exact Time.nonneg_ofMilliseconds (Number.nonneg_ofInt? hwhole hn)
  rw [now]
  rcases hn : Number.truncate? s.wallTime.milliseconds with _ | n
  · decide
  · exact Number.nonneg_truncate? (Time.nonneg_milliseconds hwall) hn

/-- Whether the sink takes a count does not depend on what it has taken before. -/
def Sink.Steady (sink : Sink) : Prop :=
  ∀ events events' e, e.isCounter = true → sink events e = sink events' e

/-- When a deadline in milliseconds comes: time is counted from the last whole millisecond. -/
def Session.dueAt (s : Session β) (deadline : Int) : Time :=
  s.clock + Time.ofMilliseconds ((Number.ofInt? (deadline - s.now)).getD 0)

/-- The context without its deadline. -/
def Context.undated (c : Context) : Context := { c with deadline := .null }

/-! ## Backends -/

/-- What the backend waits for, if it is time, ends at times from zero on. -/
structure Backend.Waits (B : Backend β) : Prop where
  createIndex : ∀ name dimension m ctx, (B.createIndex name dimension m ctx).Waits
  describeIndex : ∀ name ctx, (B.describeIndex name ctx).Waits
  listIndexes : ∀ ctx, (B.listIndexes ctx).Waits
  deleteIndex : ∀ name ctx, (B.deleteIndex name ctx).Waits
  upsertChunk : ∀ name c ctx, (B.upsertChunk name c ctx).Waits
  query : ∀ q ctx, (B.query q ctx).Waits

/-- The backend that is told of one context, whatever the context of an operation is. -/
def Backend.told (c : Context) (B : Backend β) : Backend β where
  component := B.component
  capabilities := B.capabilities
  createIndex name dimension m _ := B.createIndex name dimension m (some c)
  describeIndex name _ := B.describeIndex name (some c)
  listIndexes _ := B.listIndexes (some c)
  deleteIndex name _ := B.deleteIndex name (some c)
  upsertChunk name chunk _ := B.upsertChunk name chunk (some c)
  query q _ := B.query q (some c)

namespace Store

/-- The store whose backend is told of one context. -/
def told (c : Context) (st : Store β) : Store β := ⟨st.backend.told c, st.config⟩

/-- Asked what it can do, the backend answers without waiting. -/
def AnswersAtOnce (st : Store β) (s : Session β) : Prop :=
  ∃ r b, Task.AtOnce st.backend.capabilities s.backend r b

open VectorStore.Task (Punctual Quiet)

variable {s : Session β} {c : Context} {deadline : Int} {apart : Prop}

/-- The deadline of an operation that begins now. -/
def deadlineAt (s : Session β) (deadline : Int) : Task.Deadline Failure :=
  ⟨s.dueAt deadline, timedOut⟩

/-! ## Parts that take no time -/

theorem quiet_of_atOnce {σ ε : Type} [Clocked σ] {t : Task σ ε α} {s s' : σ} {r : Except ε α}
    (h : Task.AtOnce t s r s') (hclock : Clocked.clock s' = Clocked.clock s) : t.Quiet s := by
  refine ⟨?_, ?_⟩
  · rw [Task.timeline_advance, h]
    rfl
  · rw [h.run]
    exact hclock

theorem clock_observe (component operation : String) (began : Time) (ok : Bool) (code : String)
    (ctx : Option Context) (extra : Fields) (s : Session β) :
    (Session.observe component operation began ok code ctx extra s).clock = s.clock := by
  obtain ⟨events, h⟩ := observe_eq operation began ctx extra component ok code s
  rw [h]
  rfl

theorem alike_observe {s s' : Session β} (h : s.Alike s') (component operation : String)
    (began : Time) (ok : Bool) (code : String) (ctx ctx' : Option Context) (extra : Fields) :
    (Session.observe component operation began ok code ctx extra s).Alike
      (Session.observe component operation began ok code ctx' extra s') := by
  obtain ⟨events, rfl⟩ := h
  obtain ⟨events₁, h₁⟩ := observe_eq operation began ctx extra component ok code s
  obtain ⟨events₂, h₂⟩ := observe_eq operation began ctx' extra component ok code { s with events }
  rw [h₁, h₂]
  exact ⟨events₂, rfl⟩

variable {st : Store β} {operation : String} {ctx : Option Context} {extra : Fields}

theorem quiet_succeed (began : Time) (s : Session β) :
    (st.succeed operation began ctx extra).Quiet s :=
  Task.quiet_modify (fun s => clock_observe _ _ _ _ _ _ _ s) s

theorem quiet_count (component name : String) (value : Int) (s : Session β) :
    (Session.count component name value).Quiet s := by
  rw [Session.count]
  refine ⟨?_, ?_⟩
  · rw [Task.timeline]
    dsimp only
    split <;> rfl
  · rw [Task.run]
    dsimp only
    split <;> rfl

theorem quiet_failing (component operation : String) (began : Time) (ctx : Option Context)
    (extra : Fields) (f : Failure) (s : Session β) :
    (if f.isCancellation then .fail f
      else (Task.modify (Session.observe component operation began false f.code ctx extra)).andThen
        fun _ => .fail f : Task (Session β) Failure α).Quiet s := by
  split
  · exact Task.quiet_done _ s
  · exact (Task.quiet_modify (fun s => clock_observe _ _ _ _ _ _ _ s) s).andThen
      fun _ s _ => Task.quiet_done _ s

theorem quiet_measured {body : Time → Task (Session β) Failure α} (h : (body s.clock).Quiet s) :
    (st.measured operation ctx extra body).Quiet s := by
  have hrecover := h.recover (quiet_failing st.backend.component operation s.clock ctx extra)
  exact ⟨hrecover.timeline, hrecover.clock⟩

theorem quiet_capabilities (h : st.AnswersAtOnce s) : st.capabilities.Quiet s := by
  obtain ⟨r, b, h⟩ := h
  have hask : (Session.ofBackend st.backend.capabilities).Quiet s :=
    quiet_of_atOnce (Session.atOnce_ofBackend h) rfl
  refine Quiet.recover (quiet_measured ?_) fun f s => Task.quiet_done _ s
  exact hask.andThen fun caps s _ => (quiet_succeed _ s).andThen fun _ s _ => Task.quiet_done _ s

theorem quiet_checkFilter (st : Store β) (caps : Capabilities) (name : String)
    (filter : Option Fields) (s : Session β) : (st.checkFilter caps name filter).Quiet s := by
  have hwarn (message : String) (s : Session β) :
      Clocked.clock (Session.warn logger message s) = Clocked.clock s := rfl
  unfold checkFilter
  split
  · exact Task.quiet_done _ s
  · split
    · exact Task.quiet_done _ s
    · exact Task.quiet_modify (hwarn _) s

theorem quiet_takeRecords (vectors metadata ids : Value) (s : Session β) :
    (takeRecords vectors metadata ids).Quiet s := ⟨rfl, rfl⟩

/-! ## Parts that end alike -/

/-- Without taking time the tasks end alike, where the sink is steady. -/
structure EndsAlike (t t' : Task (Session β) Failure α) : Prop where
  quiet : ∀ s, t.Quiet s
  quiet' : ∀ s, t'.Quiet s
  run : ∀ s s', s.Alike s' → s.sink.Steady → (t.run s).1 = (t'.run s').1 ∧
    (t.run s).2.Alike (t'.run s').2 ∧ (t.run s).2.sink = s.sink

theorem endsAlike_ofExcept (r : Except Failure α) :
    EndsAlike (.ofExcept r : Task (Session β) Failure α) (.ofExcept r) :=
  ⟨Task.quiet_done r, Task.quiet_done r, fun _ _ h _ => ⟨rfl, h, rfl⟩⟩

theorem EndsAlike.bind {t t' : Task (Session β) Failure α} {k k' : α → Task (Session β) Failure γ}
    (h : EndsAlike t t') (hk : ∀ a, EndsAlike (k a) (k' a)) : EndsAlike (t >>= k) (t' >>= k') := by
  refine ⟨fun s => (h.quiet s).andThen fun a s _ => (hk a).quiet s,
    fun s => (h.quiet' s).andThen fun a s _ => (hk a).quiet' s, fun s s' halike hsink => ?_⟩
  obtain ⟨hresult, hstates, hkept⟩ := h.run s s' halike hsink
  rcases hr : t.run s with ⟨f | a, s₁⟩ <;> rcases hr' : t'.run s' with ⟨f' | a', s₁'⟩ <;>
    rw [hr, hr'] at hresult hstates <;> rw [hr] at hkept <;> cases hresult
  · rw [Task.run_bind_error hr, Task.run_bind_error hr']
    exact ⟨rfl, hstates, hkept⟩
  · rw [Task.run_bind_ok hr, Task.run_bind_ok hr']
    obtain ⟨hresult', hstates', hkept'⟩ := (hk a).run s₁ s₁' hstates (hkept ▸ hsink)
    exact ⟨hresult', hstates', hkept'.trans hkept⟩

theorem endsAlike_warn (logger message : String) :
    EndsAlike (.modify (Session.warn logger message) : Task (Session β) Failure Unit)
      (.modify (Session.warn logger message)) := by
  refine ⟨Task.quiet_modify fun _ => rfl, Task.quiet_modify fun _ => rfl, ?_⟩
  rintro s _ ⟨events, rfl⟩ -
  exact ⟨rfl, ⟨events, rfl⟩, rfl⟩

theorem endsAlike_succeed (st : Store β) (operation : String) (began : Time)
    (ctx ctx' : Option Context) (extra : Fields) :
    EndsAlike (st.succeed operation began ctx extra) (st.succeed operation began ctx' extra) := by
  refine ⟨quiet_succeed began, quiet_succeed began, fun s s' h _ => ?_⟩
  have hsink := (unmoved_succeed st operation began ctx extra s s.events).1
  exact ⟨rfl, alike_observe h .., hsink⟩

theorem endsAlike_count (component name : String) (value : Int) :
    EndsAlike (Session.count component name value : Task (Session β) Failure Unit)
      (Session.count component name value) := by
  refine ⟨quiet_count component name value, quiet_count component name value, ?_⟩
  rintro s _ ⟨events, rfl⟩ hsink
  have hsame := hsink events s.events (.counter component name value) rfl
  rw [Session.count, Task.run, Task.run]
  dsimp only
  rw [hsame]
  rcases s.sink s.events (.counter component name value) with _ | f
  · exact ⟨rfl, ⟨_, rfl⟩, rfl⟩
  · exact ⟨rfl, ⟨events, rfl⟩, rfl⟩

/-! ## Parts within a deadline -/

/-- The deadline of the context has not come; the sink is steady where the parts of the operation
    are to end alike. -/
structure Ahead (apart : Prop) (s : Session β) (c : Context) (deadline : Int) : Prop where
  mem : deadline ∈ c.deadline?
  max : deadline < 2 ^ 63
  clock : 0 ≤ s.clock
  lt : s.now < deadline
  sink : apart → s.sink.Steady

theorem now_of_clock {s s₁ : Session β} (h : s₁.clock = s.clock) : s₁.now = s.now := by
  rw [Session.now, Session.wallTime, h, ← Session.wallTime, ← Session.now]

theorem deadlineAt_of_clock {s₁ : Session β} (h : s₁.clock = s.clock) (deadline : Int) :
    deadlineAt s₁ deadline = deadlineAt s deadline := by
  rw [deadlineAt, Session.dueAt, h, now_of_clock h]
  rfl

theorem Ahead.now (h : Ahead apart s c deadline) : 0 ≤ s.now := Session.nonneg_now h.clock

theorem Ahead.of_clock {s₁ : Session β} (h : Ahead apart s c deadline) (hclock : s₁.clock = s.clock)
    (hsink : s₁.sink = s.sink) : Ahead apart s₁ c deadline where
  mem := h.mem
  max := h.max
  clock := hclock ▸ h.clock
  lt := now_of_clock hclock ▸ h.lt
  sink := hsink ▸ h.sink

theorem Ahead.nonneg_dueAt (h : Ahead apart s c deadline) : 0 ≤ s.dueAt deadline := by
  refine Number.nonneg_add h.clock (Time.nonneg_ofMilliseconds ?_)
  have hlt := h.lt
  rcases hx : Number.ofInt? (deadline - s.now) with _ | x
  · exact Number.nonneg_iff.2 rfl
  · exact Number.nonneg_ofInt? (by omega) hx

/-- Before the deadline of the context, a task is given the deadline. -/
theorem run_withDeadline_ahead (h : Ahead apart s c deadline)
    (t : Option (Task.Deadline Failure) → Task (Session β) Failure α) :
    (withDeadline (some c) t).run s =
      ((t (some (deadlineAt s deadline))).recover fun f => .fail (asTimeout f)).run s := by
  obtain ⟨x, hx, hbudget⟩ := budget_of_lt h.mem h.max h.now h.lt
  have hdue : deadlineAt s deadline = ⟨s.clock + Time.ofMilliseconds x, timedOut⟩ := by
    rw [deadlineAt, Session.dueAt, hx]
    rfl
  rw [withDeadline, Task.run, hbudget, hdue]

/-- **What is done within a deadline keeps it.** -/
theorem punctual_withDeadline {steady : Prop} (h : Ahead steady s c deadline)
    {t : Option (Task.Deadline Failure) → Task (Session β) Failure α}
    (ht : Punctual (· = ·) (deadlineAt s deadline) apart (t (some (deadlineAt s deadline)))
      (t none) s) :
    Punctual (· = ·) (deadlineAt s deadline) apart (withDeadline (some c) t)
      (withDeadline (some c.undated) t) s := by
  have hguarded := ht.recover (fun f s => Task.quiet_done (.error (asTimeout f)) s)
    (fun f s => Task.quiet_done (.error (asTimeout f)) s) (fun _ => rfl) (fun _ _ h => h)
    fun f s₁ s₁' hs => ⟨rfl, hs⟩
  exact hguarded.ending id id (run_withDeadline_ahead h t) rfl rfl rfl (fun _ => rfl) (fun _ => rfl)
    fun _ _ _ _ _ _ hs => ⟨rfl, hs⟩

theorem paces_ofBackend {t : Task β Failure α} (ht : t.Waits) (s : Session β) :
    (Session.ofBackend t).Paces s := by
  have hput (b : β) (s : Session β) : Clocked.clock { s with backend := b } = Clocked.clock s := rfl
  exact Task.paces_zoom hput ht s

/-- A task of the backend keeps a deadline. -/
theorem punctual_byDeadline {steady : Prop} (h : Ahead steady s c deadline) {t : Task β Failure α}
    (ht : t.Waits) :
    Punctual (· = ·) (deadlineAt s deadline) apart (byDeadline (some c) t)
      (byDeadline (some c.undated) t) s :=
  punctual_withDeadline h
    (Task.punctual_within apart h.nonneg_dueAt (paces_ofBackend ht s) h.clock)

/-- No two waits of the chunks of a batched write are over at the same moment. -/
def ChunksApart (st : Store β) (c : Context) (n : String) (rs : List Record) (caps : Capabilities)
    (s : Session β) : Prop :=
  Batch.Apart
    (fun chunk => Session.ofBackend (st.backend.upsertChunk n chunk (some c))) rs
    (.int (batchSize st.config caps)) (.int st.config.batchMaxConcurrency) s

/-- A batched write keeps a deadline. -/
theorem punctual_batched {steady : Prop} (hB : st.backend.Waits) (h : Ahead steady s c deadline)
    (n : String) (rs : List Record) (caps : Capabilities) :
    Punctual (· = ·) (deadlineAt s deadline) (st.ChunksApart c n rs caps s)
      (st.batched n rs (some c) caps) ((st.told c).batched n rs (some c.undated) caps) s := by
  have hw (chunk : Batch.Chunk Record) (s : Session β) :
      (Session.ofBackend (st.backend.upsertChunk n chunk (some c))).Paces s :=
    paces_ofBackend (hB.upsertChunk n chunk (some c)) s
  have hwarn (message : String) (s : Session β) :
      Clocked.clock (Session.warn batchLogger message s) = Clocked.clock s := rfl
  have hclock : 0 ≤ Clocked.clock s := h.clock
  have hd : 0 ≤ (deadlineAt s deadline).time := h.nonneg_dueAt
  exact punctual_withDeadline h (Batch.punctual_upsert hd hclock hw hwarn Record.id rs
    (.int (batchSize st.config caps)) (.int st.config.batchMaxConcurrency))

/-! ## Parts of operations -/

/-- What takes no time goes before. -/
theorem punctual_after {t t' : Task (Session β) Failure α} {k k' : α → Task (Session β) Failure γ}
    (ha : Ahead apart s c deadline) (hrun : t.run s = t'.run s) (hq : t'.Quiet s)
    (hsink : (t'.run s).2.sink = s.sink)
    (h : ∀ a s₁, t'.run s = (.ok a, s₁) → Ahead apart s₁ c deadline →
      Punctual Session.Alike (deadlineAt s₁ deadline) apart (k a) (k' a) s₁) :
    Punctual Session.Alike (deadlineAt s deadline) apart (t >>= k) (t' >>= k') s := by
  refine Punctual.after hrun hq Session.Alike.refl fun a s₁ hr => ?_
  have hclock : s₁.clock = s.clock := by
    have := hq.clock
    rw [hr] at this
    exact this
  rw [hr] at hsink
  rw [← deadlineAt_of_clock hclock deadline]
  exact h a s₁ hr (ha.of_clock hclock hsink)

/-- An argument is checked. -/
theorem punctual_ofExcept {r : Except Failure α} {k k' : α → Task (Session β) Failure γ}
    {d : Task.Deadline Failure}
    (h : ∀ a, r = .ok a → Punctual Session.Alike d apart (k a) (k' a) s) :
    Punctual Session.Alike d apart (.ofExcept r >>= k) (.ofExcept r >>= k') s := by
  refine Punctual.after rfl (Task.quiet_done r s) Session.Alike.refl fun a s₁ hr => ?_
  obtain ⟨rfl, rfl⟩ := Prod.mk.inj hr
  exact h a rfl

/-- It is looked whether the deadline has passed: it has not. -/
theorem punctual_failIfExpired (ha : Ahead apart s c deadline)
    {k k' : Unit → Task (Session β) Failure γ} {d : Task.Deadline Failure}
    (h : Punctual Session.Alike d apart (k ()) (k' ()) s) :
    Punctual Session.Alike d apart (failIfExpired (some c) >>= k)
      (failIfExpired (some c.undated) >>= k') s := by
  obtain ⟨x, -, hbudget⟩ := budget_of_lt ha.mem ha.max ha.now ha.lt
  have hin : InTime (some c) s.now := by
    rintro _ ⟨⟩
    exact ⟨_, hbudget, by simp⟩
  have hrun : (failIfExpired (some c)).run s = (failIfExpired (some c.undated)).run s :=
    run_failIfExpired hin
  refine Punctual.after hrun ⟨rfl, rfl⟩ Session.Alike.refl fun _ s₁ hr => ?_
  obtain ⟨-, rfl⟩ := Prod.mk.inj hr
  exact h

theorem punctual_measured {body body' : Time → Task (Session β) Failure α} {ctx' : Option Context}
    (h : Punctual Session.Alike (deadlineAt s deadline) apart (body s.clock) (body' s.clock) s) :
    Punctual Session.Alike (deadlineAt s deadline) apart (st.measured operation ctx extra body)
      ((st.told c).measured operation ctx' extra body') s := by
  have hrecover := h.recover (quiet_failing st.backend.component operation s.clock ctx extra)
    (quiet_failing st.backend.component operation s.clock ctx' extra) (fun s => ?_) (fun _ _ h => h)
    ?_
  · exact ⟨hrecover.clock, hrecover.late, hrecover.inTime⟩
  · exact rfl
  · intro f s₁ s₁' hs
    split
    · exact ⟨rfl, hs⟩
    · exact ⟨rfl, alike_observe hs ..⟩

/-- What takes no time follows. -/
theorem Punctual.thenAlike {t t' : Task (Session β) Failure α}
    {k k' : α → Task (Session β) Failure γ} {d : Task.Deadline Failure}
    (h : Punctual (· = ·) d apart t t' s)
    (hsink : apart → (t.run s).2.sink.Steady)
    (hk : ∀ a, EndsAlike (k a) (k' a)) :
    Punctual Session.Alike d apart (t >>= k) (t' >>= k') s := by
  refine Task.Punctual.andThen h (fun a => (hk a).quiet) (fun a => (hk a).quiet') ?_ ?_
  · rintro s₁ _ rfl
    exact .refl s₁
  · rintro hapart a s₁ _ hr - rfl
    rw [hr] at hsink
    obtain ⟨hresult, hstates, -⟩ := (hk a).run s₁ s₁ (.refl s₁) (hsink hapart)
    exact ⟨hresult, hstates⟩

/-- Something is made of the result. -/
theorem punctual_returning {t t' : Task (Session β) Failure α}
    {k : α → Task (Session β) Failure γ} {d : Task.Deadline Failure}
    (h : Punctual Session.Alike d apart t t' s) (hk : ∀ a, ∃ r, k a = .ofExcept r) :
    Punctual Session.Alike d apart (t >>= k) (t' >>= k) s := by
  choose f hf using hk
  obtain rfl : k = fun a => .ofExcept (f a) := funext hf
  exact Task.Punctual.andThen h (fun a => Task.quiet_done (f a)) (fun a => Task.quiet_done (f a))
    (fun _ _ h => h) fun _ _ _ _ _ _ hs => ⟨rfl, hs⟩

/-- The backend is asked what it can do. -/
theorem punctual_capabilities {k k' : Capabilities → Task (Session β) Failure γ}
    (ha : Ahead apart s c deadline) (hasks : st.AnswersAtOnce s)
    (h : ∀ caps s₁, st.capabilities.run s = (.ok caps, s₁) → Ahead apart s₁ c deadline →
      Punctual Session.Alike (deadlineAt s₁ deadline) apart (k caps) (k' caps) s₁) :
    Punctual Session.Alike (deadlineAt s deadline) apart (st.capabilities >>= k)
      ((st.told c).capabilities >>= k') s :=
  punctual_after ha rfl (quiet_capabilities hasks) (unmoved_capabilities st s s.events).1 h

/-! ## Operations -/

theorem steady_byDeadline (ha : Ahead apart s c deadline) (t : Task β Failure α) :
    apart → ((byDeadline (some c) t).run s).2.sink.Steady := by
  rw [(unmoved_byDeadline (some c) t s s.events).1]
  exact ha.sink

theorem endsAlike_reported (st : Store β) (operation n : String) (rs : List Record)
    (ctx ctx' : Option Context) (began : Time) (outcome : Batch.Outcome) :
    EndsAlike (st.reported operation n rs ctx began outcome)
      (st.reported operation n rs ctx' began outcome) := by
  have hcount : EndsAlike (do
        st.succeed operation began ctx [("index", .text n), ("records", .int rs.length),
          ("chunks", .int outcome.chunks), ("failed", .int outcome.failures.length)]
        Session.count st.backend.component "vectors_upserted" (rs.length - outcome.failures.length)
        return outcome) (do
        st.succeed operation began ctx' [("index", .text n), ("records", .int rs.length),
          ("chunks", .int outcome.chunks), ("failed", .int outcome.failures.length)]
        Session.count st.backend.component "vectors_upserted" (rs.length - outcome.failures.length)
        return outcome) :=
    (endsAlike_succeed ..).bind fun _ => (endsAlike_count ..).bind fun _ =>
      endsAlike_ofExcept (.ok outcome)
  rw [reported, reported]
  dsimp only
  split
  · exact (endsAlike_warn ..).bind fun _ => hcount
  · exact hcount

section

variable (hB : st.backend.Waits) (ha : Ahead apart s c deadline)

include hB ha

theorem punctual_describeIndex (name : Value) :
    Punctual Session.Alike (deadlineAt s deadline) apart (st.describeIndex name (some c))
      ((st.told c).describeIndex name (some c.undated)) s := by
  refine punctual_ofExcept fun n _ => punctual_failIfExpired ha (punctual_measured ?_)
  refine Punctual.thenAlike (punctual_byDeadline ha (hB.describeIndex n (some c)))
    (steady_byDeadline ha _) fun d => ?_
  exact (endsAlike_succeed ..).bind fun _ => endsAlike_ofExcept (.ok d)

theorem punctual_listIndexes :
    Punctual Session.Alike (deadlineAt s deadline) apart (st.listIndexes (some c))
      ((st.told c).listIndexes (some c.undated)) s := by
  refine punctual_failIfExpired ha (punctual_measured ?_)
  refine Punctual.thenAlike (punctual_byDeadline ha (hB.listIndexes (some c)))
    (steady_byDeadline ha _) fun names => ?_
  exact (endsAlike_succeed ..).bind fun _ => endsAlike_ofExcept (.ok names)

theorem punctual_deleteIndex (name : Value) :
    Punctual Session.Alike (deadlineAt s deadline) apart (st.deleteIndex name (some c))
      ((st.told c).deleteIndex name (some c.undated)) s := by
  refine punctual_ofExcept fun n _ => punctual_failIfExpired ha (punctual_measured ?_)
  exact Punctual.thenAlike (punctual_byDeadline ha (hB.deleteIndex n (some c)))
    (steady_byDeadline ha _) fun _ => endsAlike_succeed ..

variable (hasks : st.AnswersAtOnce s)

include hasks

theorem punctual_createIndex (name dimension metric : Value) :
    Punctual Session.Alike (deadlineAt s deadline) apart
      (st.createIndex name dimension metric (some c))
      ((st.told c).createIndex name dimension metric (some c.undated)) s := by
  refine punctual_ofExcept fun n _ => punctual_ofExcept fun d _ => punctual_ofExcept fun m _ =>
    punctual_failIfExpired ha (punctual_measured ?_)
  refine punctual_capabilities ha hasks fun caps s₁ _ ha₁ => punctual_ofExcept fun _ _ => ?_
  exact Punctual.thenAlike (punctual_byDeadline ha₁ (hB.createIndex n d m (some c)))
    (steady_byDeadline ha₁ _) fun _ => endsAlike_succeed ..

theorem punctual_query (name vector topK filter includeVector : Value) :
    Punctual Session.Alike (deadlineAt s deadline) apart
      (st.query name vector topK filter includeVector (some c))
      ((st.told c).query name vector topK filter includeVector (some c.undated)) s := by
  rw [query_eq, query_eq]
  refine punctual_ofExcept fun q _ => punctual_failIfExpired ha (punctual_measured ?_)
  refine punctual_capabilities ha hasks fun caps s₁ _ ha₁ => punctual_ofExcept fun _ _ => ?_
  refine punctual_after ha₁ rfl (quiet_checkFilter st caps q.name q.filter s₁)
    (unmoved_checkFilter st caps q.name q.filter s₁ s₁.events).1 fun _ s₂ _ ha₂ => ?_
  refine Punctual.thenAlike (punctual_byDeadline ha₂ (hB.query q (some c)))
    (steady_byDeadline ha₂ _) fun found => ?_
  exact (endsAlike_succeed ..).bind fun _ => (endsAlike_count ..).bind fun _ =>
    endsAlike_ofExcept (.ok _)

/-- No two waits of what a write writes are over at the same moment. -/
def WritesApart (st : Store β) (c : Context) (name vectors metadata ids : Value) (s : Session β) :
    Prop :=
  ∀ n rs s₁ caps s₂, requireText "name" name = .ok n →
    (takeRecords vectors metadata ids).run s = (.ok rs, s₁) →
    st.capabilities.run s₁ = (.ok caps, s₂) → st.ChunksApart c n rs caps s₂

theorem punctual_runUpsert (operation : String) {name vectors metadata ids : Value}
    (hapart : apart → st.WritesApart c name vectors metadata ids s) :
    Punctual Session.Alike (deadlineAt s deadline) apart
      (st.runUpsert operation name vectors metadata ids (some c))
      ((st.told c).runUpsert operation name vectors metadata ids (some c.undated)) s := by
  rw [runUpsert_eq, runUpsert_eq]
  refine punctual_ofExcept fun n hn => ?_
  refine punctual_after ha rfl (quiet_takeRecords vectors metadata ids s) rfl fun rs s₁ hr₁ ha₁ =>
    punctual_failIfExpired ha₁ (punctual_measured ?_)
  have hasks₁ : st.AnswersAtOnce s₁ := by
    rw [run_takeRecords] at hr₁
    obtain ⟨-, rfl⟩ := Prod.mk.inj hr₁
    exact hasks
  refine punctual_capabilities ha₁ hasks₁ fun caps s₂ hr₂ ha₂ => ?_
  refine Punctual.thenAlike ((punctual_batched hB ha₂ n rs caps).mono
    fun h => hapart h n rs s₁ caps s₂ hn hr₁ hr₂) ?_ fun outcome => endsAlike_reported ..
  rw [(unmoved_batched st n rs (some c) caps s₂ s₂.events).1]
  exact ha₂.sink

theorem punctual_upsert {name vectors metadata ids : Value}
    (hapart : apart → st.WritesApart c name vectors metadata ids s) :
    Punctual Session.Alike (deadlineAt s deadline) apart
      (st.upsert name vectors metadata ids (some c))
      ((st.told c).upsert name vectors metadata ids (some c.undated)) s := by
  refine punctual_returning (punctual_runUpsert hB ha hasks "upsert" hapart) fun o => ?_
  split
  · exact ⟨.ok o.ids, rfl⟩
  · exact ⟨.error _, rfl⟩

end

end Store

end VectorStore
