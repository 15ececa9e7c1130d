/-
  How operations of a store run.

  An operation checks its arguments and its deadline, has the backend do its part, and is
  measured.  Measuring changes nothing but the notes of the session (`Session.cleared`).

  * `InTime`: the context leaves an operation time; then its deadline is passed by without a
    trace (`run_failIfExpired`, `run_withDeadline`), else the operation refuses
    (`refuses_withDeadline`);
  * `Refuses`: an operation fails and leaves the backend as it was; so does everything that
    begins with it (`Refuses.bind`, `Refuses.measured`);
  * `run_byDeadline`: a task of the backend that ends at once, within its deadline.
-/
import VectorStore.Proofs.Store.Refusals
import VectorStore.Proofs.Task.AtOnce
import VectorStore.Proofs.Task.Erasure

namespace VectorStore

/-! ## Tasks in sequence -/

namespace Task

variable {σ ε α γ : Type} [Clocked σ] {t : Task σ ε α} {s s' : σ}

theorem run_bind_ok {a : α} (h : t.run s = (.ok a, s')) (f : α → Task σ ε γ) :
    (t >>= f).run s = (f a).run s' := by
  show (t.andThen f).run s = _
  rw [run_andThen, h]

theorem run_bind_error {e : ε} (h : t.run s = (.error e, s')) (f : α → Task σ ε γ) :
    (t >>= f).run s = (.error e, s') := by
  show (t.andThen f).run s = _
  rw [run_andThen, h]

theorem run_bind_ofExcept (r : Except ε α) (f : α → Task σ ε γ) (s : σ) :
    (ofExcept r >>= f).run s = match r with
      | .ok a => (f a).run s
      | .error e => (.error e, s) := by
  cases r <;> rfl

end Task

/-! ## Sessions -/

namespace Session

variable {β ε α : Type} {s s' : Session β}

theorem cleared_observe (component operation : String) (began : Time) (ok : Bool) (code : String)
    (ctx : Option Context) (extra : Fields) (s : Session β) :
    (observe component operation began ok code ctx extra s).cleared = s.cleared := by
  rw [observe]
  split
  · rfl
  · dsimp only
    split <;> rfl

theorem backend_of_cleared (h : s'.cleared = s.cleared) : s'.backend = s.backend := by
  injection h

theorem now_of_cleared (h : s'.cleared = s.cleared) : s'.now = s.now := by
  injection h with hc
  rw [now, wallTime, hc, ← wallTime, ← now]

theorem now_start (b : β) (sink : Sink) : (Session.start b sink).now = epoch := by
  have hstart : (Session.start b sink).now = (Session.start () takesAll).now := rfl
  rw [hstart]
  decide +kernel

theorem clock_of_cleared (h : s'.cleared = s.cleared) : s'.clock = s.clock := by
  injection h

theorem sink_of_cleared (h : s'.cleared = s.cleared) : s'.sink = s.sink := by
  injection h

theorem part_backend : Task.Part Session.backend fun (b : β) s => { s with backend := b } :=
  ⟨fun _ => rfl, fun _ _ => rfl, fun _ _ _ => rfl⟩

/-- A task of the backend that ends at once does so in a session. -/
theorem atOnce_ofBackend {t : Task β ε α} {r : Except ε α} {b' : β} :
    ∀ {s : Session β}, Task.AtOnce t s.backend r b' →
      Task.AtOnce (ofBackend t) s r { s with backend := b' } := by
  induction t with
  | done r =>
    intro s h
    cases h
    rfl
  | read next ih => exact fun h => ih _ h
  | write b next ih => exact fun {s} h => ih (s := { s with backend := b }) h
  | wait u abandon next => exact fun h => nomatch h

end Session

namespace Store

variable {β α γ : Type} {s s' : Session β}

/-! ## Refusals -/

/-- The task fails as a whole, and leaves the backend as it was. -/
def Refuses (t : Task (Session β) Failure α) (s : Session β) : Prop :=
  ∃ f s', t.run s = (.error f, s') ∧ f.Whole ∧ s'.backend = s.backend

theorem Refuses.bind {t : Task (Session β) Failure α} (h : Refuses t s)
    (k : α → Task (Session β) Failure γ) : Refuses (t >>= k) s := by
  obtain ⟨f, s', hrun, hf, hb⟩ := h
  exact ⟨f, s', Task.run_bind_error hrun k, hf, hb⟩

/-- What follows a part that leaves the backend as it was may refuse. -/
theorem Refuses.after {t : Task (Session β) Failure α} {a : α} (ht : t.run s = (.ok a, s'))
    (hb : s'.backend = s.backend) {k : α → Task (Session β) Failure γ} (h : Refuses (k a) s') :
    Refuses (t >>= k) s := by
  obtain ⟨f, s'', hrun, hf, hb'⟩ := h
  exact ⟨f, s'', (Task.run_bind_ok ht k).trans hrun, hf, hb'.trans hb⟩

theorem refuses_ofExcept {f : Failure} (hf : f.Whole) (s : Session β) :
    Refuses (.ofExcept (.error f) : Task (Session β) Failure α) s :=
  ⟨f, s, rfl, hf, rfl⟩

/-! ## Deadlines -/

/-- The context leaves an operation time that begins now. -/
def InTime (ctx : Option Context) (now : Int) : Prop :=
  ∀ c ∈ ctx, ∃ b, c.remaining now >>= Budget.ofMilliseconds = .ok b ∧ b ≠ .spent

theorem inTime_none (now : Int) : InTime none now := nofun

theorem run_failIfExpired {ctx : Option Context} (h : InTime ctx s.now) :
    (failIfExpired ctx).run s = (.ok (), s) := by
  cases ctx with
  | none => rfl
  | some c =>
    obtain ⟨b, hb, hne⟩ := h c rfl
    rcases hr : c.remaining s.now with f | v <;> rw [hr] at hb
    · cases hb
    rw [failIfExpired, Task.run, hr]
    dsimp only
    split
    · cases hb
      exact absurd rfl hne
    · rfl

/-- Whether the deadline has passed or not, nothing changes. -/
theorem failIfExpired_cases (ctx : Option Context) (s : Session β) :
    (failIfExpired ctx).run s = (.ok (), s) ∨ Refuses (failIfExpired ctx) s := by
  cases ctx with
  | none => exact .inl rfl
  | some c =>
    rw [Refuses, failIfExpired, Task.run]
    rcases c.remaining s.now with f | v
    · exact .inr ⟨_, s, rfl, Failure.whole_fault f, rfl⟩
    · dsimp only
      split
      · exact .inr ⟨_, s, rfl, Failure.whole_error (by decide), rfl⟩
      · exact .inl rfl

theorem whole_asTimeout {f : Failure} (h : f.Whole) : (asTimeout f).Whole := by
  unfold asTimeout
  split
  · split
    · exact Failure.whole_error (by decide)
    · exact h
  · exact h

/-- In time, an operation runs with some deadline or none. -/
theorem run_withDeadline {ctx : Option Context} (h : InTime ctx s.now)
    (t : Option (Task.Deadline Failure) → Task (Session β) Failure α) :
    ∃ d, (withDeadline ctx t).run s = (((t d).run s).1.mapError asTimeout, ((t d).run s).2) := by
  have hguarded : ∀ d, ((t d).recover fun f => .fail (asTimeout f)).run s =
      (((t d).run s).1.mapError asTimeout, ((t d).run s).2) := fun d => by
    rw [Task.run_recover]
    rcases (t d).run s with ⟨_ | _, _⟩ <;> rfl
  cases ctx with
  | none => exact ⟨none, hguarded none⟩
  | some c =>
    obtain ⟨b, hb, hne⟩ := h c rfl
    rw [withDeadline, Task.run, hb]
    cases b with
    | unlimited => exact ⟨none, hguarded none⟩
    | spent => exact absurd rfl hne
    | left span => exact ⟨_, hguarded _⟩

/-- Out of time, an operation refuses. -/
theorem refuses_withDeadline {ctx : Option Context} (h : ¬InTime ctx s.now)
    (t : Option (Task.Deadline Failure) → Task (Session β) Failure α) :
    Refuses (withDeadline ctx t) s := by
  cases ctx with
  | none => exact absurd (inTime_none _) h
  | some c =>
    rw [Refuses, withDeadline, Task.run]
    rcases hb : c.remaining s.now >>= Budget.ofMilliseconds with f | b
    · exact ⟨_, s, rfl, Failure.whole_fault f, rfl⟩
    cases b with
    | spent => exact ⟨_, s, rfl, Failure.whole_error (by decide), rfl⟩
    | _ => exact absurd (fun c' hc => by cases hc; exact ⟨_, hb, by simp⟩) h

/-- A task of the backend that ends at once, in time. -/
theorem run_byDeadline {ctx : Option Context} (h : InTime ctx s.now) {t : Task β Failure α}
    {r : Except Failure α} {b' : β} (ht : Task.AtOnce t s.backend r b') :
    (byDeadline ctx t).run s = (r.mapError asTimeout, { s with backend := b' }) := by
  obtain ⟨d, hd⟩ := run_withDeadline h fun d => (Session.ofBackend t).bounded d
  rw [byDeadline, hd, ((Session.atOnce_ofBackend ht).bounded d).run]

/-! ## Measuring -/

variable {st : Store β} {operation : String} {ctx : Option Context} {extra : Fields}
  {body : Time → Task (Session β) Failure α}

theorem run_measured_ok {a : α} (h : (body s.clock).run s = (.ok a, s')) :
    (st.measured operation ctx extra body).run s = (.ok a, s') := by
  rw [measured, Task.run, Task.run_recover, h]

theorem run_measured_error {f : Failure} (h : (body s.clock).run s = (.error f, s')) :
    ∃ s'', (st.measured operation ctx extra body).run s = (.error f, s'') ∧
      s''.cleared = s'.cleared := by
  rw [measured, Task.run, Task.run_recover, h]
  dsimp only
  split
  · exact ⟨s', rfl, rfl⟩
  · exact ⟨_, rfl, Session.cleared_observe ..⟩

theorem Refuses.measured (h : Refuses (body s.clock) s) :
    Refuses (st.measured operation ctx extra body) s := by
  obtain ⟨f, s', hrun, hf, hb⟩ := h
  obtain ⟨s'', hrun', hc⟩ := run_measured_error hrun
  exact ⟨f, s'', hrun', hf, (Session.backend_of_cleared hc).trans hb⟩

theorem run_succeed (began : Time) (s : Session β) :
    ∃ s', (st.succeed operation began ctx extra).run s = (.ok (), s') ∧ s'.cleared = s.cleared :=
  ⟨_, rfl, Session.cleared_observe ..⟩

/-- Asking a backend that answers at once what it can do. -/
theorem run_capabilities {caps : Capabilities}
    (h : Task.AtOnce st.backend.capabilities s.backend (.ok caps) s.backend) :
    ∃ s', st.capabilities.run s = (.ok caps, s') ∧ s'.cleared = s.cleared := by
  have hb : (Session.ofBackend st.backend.capabilities).run s = (.ok caps, s) :=
    (Session.atOnce_ofBackend h).run
  have hsucceed : ∃ s', (st.succeed "capabilities" s.clock none []).run s = (.ok (), s') ∧
      s'.cleared = s.cleared := run_succeed ..
  obtain ⟨s', hs, hc⟩ := hsucceed
  refine ⟨s', ?_, hc⟩
  have hm : (st.measured "capabilities" none [] fun began => do
      let caps ← Session.ofBackend st.backend.capabilities
      st.succeed "capabilities" began none []
      return caps).run s = (.ok caps, s') :=
    run_measured_ok ((Task.run_bind_ok hb _).trans (Task.run_bind_ok hs _))
  rw [capabilities, Task.run_recover, hm]

/-! ## Writes -/

/-- A batched write of records into an index. -/
def batched (st : Store β) (n : String) (rs : List Record) (ctx : Option Context)
    (caps : Capabilities) : Task (Session β) Failure Batch.Outcome :=
  withDeadline ctx fun deadline =>
    Batch.upsert Record.id (fun c => Session.ofBackend (st.backend.upsertChunk n c ctx))
      (Session.warn batchLogger) deadline rs (.int (batchSize st.config caps))
      (.int st.config.batchMaxConcurrency)

/-- What is noted of a batched write that has ended. -/
def reported (st : Store β) (operation n : String) (rs : List Record) (ctx : Option Context)
    (began : Time) (outcome : Batch.Outcome) : Task (Session β) Failure Batch.Outcome := do
  let failed := outcome.failures.length
  if failed ≠ 0 then
    .modify (Session.warn logger
      (s!"upsert into {Text.quoted n}: backend rejected {Number.natText failed} of " ++
        s!"{Number.natText rs.length} record(s)"))
  st.succeed operation began ctx [("index", .text n), ("records", .int rs.length),
    ("chunks", .int outcome.chunks), ("failed", .int failed)]
  Session.count st.backend.component "vectors_upserted" (rs.length - failed)
  return outcome

/-- A write whose arguments are checked. -/
def writing (st : Store β) (operation n : String) (rs : List Record) (ctx : Option Context)
    (began : Time) : Task (Session β) Failure Batch.Outcome := do
  let caps ← st.capabilities
  let outcome ← st.batched n rs ctx caps
  st.reported operation n rs ctx began outcome

theorem runUpsert_eq (st : Store β) (operation : String) (name vectors metadata ids : Value)
    (ctx : Option Context) :
    st.runUpsert operation name vectors metadata ids ctx = (do
      let n ← .ofExcept (requireText "name" name)
      let rs ← takeRecords vectors metadata ids
      failIfExpired ctx
      st.measured operation ctx [("index", .text n)] (st.writing operation n rs ctx)) := rfl

/-- The session with the ids of a write drawn. -/
def drawnFor (s : Session β) (vectors metadata ids : Value) : Session β :=
  { s with drawn := (Record.buildRecords s.drawn vectors metadata ids).2 }

theorem run_takeRecords (s : Session β) (vectors metadata ids : Value) :
    (takeRecords vectors metadata ids).run s =
      ((Record.buildRecords s.drawn vectors metadata ids).1,
        drawnFor s vectors metadata ids) := by
  rw [takeRecords, Task.run]
  rfl

/-- A count is taken, unless the sink refuses it. -/
theorem run_count (component name : String) (value : Int) (s : Session β) :
    (∃ s', (Session.count component name value).run s = (.ok (), s') ∧ s'.cleared = s.cleared) ∨
      ∃ f, (Session.count component name value).run s = (.error (.fault f), s) ∧
        ∃ events event, s.sink events event = some f := by
  rw [Session.count, Task.run]
  dsimp only
  rcases h : s.sink s.events (.counter component name value) with _ | f
  · exact .inl ⟨_, rfl, rfl⟩
  · exact .inr ⟨f, rfl, _, _, h⟩

/-- A sink that takes all counts. -/
theorem run_count_taken (h : ∀ events e, e.isCounter = true → s.sink events e = none)
    (component name : String) (value : Int) :
    ∃ s', (Session.count component name value).run s = (.ok (), s') ∧ s'.cleared = s.cleared := by
  rw [Session.count, Task.run]
  dsimp only
  rw [h _ _ rfl]
  exact ⟨_, rfl, rfl⟩

/-- The end of a write of which nothing was refused. -/
theorem run_reported {outcome : Batch.Outcome} (ho : outcome.failures = []) (st : Store β)
    (operation n : String) (rs : List Record) (ctx : Option Context) (began : Time)
    (s : Session β) :
    ∃ s', s'.cleared = s.cleared ∧
      ((st.reported operation n rs ctx began outcome).run s = (.ok outcome, s') ∨
        ∃ f, (st.reported operation n rs ctx began outcome).run s = (.error (.fault f), s') ∧
          ∃ events event, s.sink events event = some f) := by
  let extra : Fields := [("index", .text n), ("records", .int rs.length),
    ("chunks", .int outcome.chunks), ("failed", .int outcome.failures.length)]
  obtain ⟨s₁, hs, hc⟩ : ∃ s', (st.succeed operation began ctx extra).run s = (.ok (), s') ∧
    s'.cleared = s.cleared := run_succeed ..
  have htail : (st.reported operation n rs ctx began outcome).run s =
      (Session.count st.backend.component "vectors_upserted"
        (rs.length - outcome.failures.length) >>= fun _ => pure outcome).run s₁ := by
    rw [reported]
    simp only [ho, List.length_nil, ne_eq, not_true_eq_false, if_false]
    exact Task.run_bind_ok (by simpa only [extra, ho, List.length_nil] using hs) _
  rw [htail]
  rcases run_count st.backend.component "vectors_upserted"
    (rs.length - outcome.failures.length : Int) s₁ with ⟨s', h, hc'⟩ | ⟨f, h, events, event, hf⟩
  · exact ⟨s', hc'.trans hc, .inl (Task.run_bind_ok h _)⟩
  · rw [Session.sink_of_cleared hc] at hf
    exact ⟨s₁, hc, .inr ⟨f, Task.run_bind_error h _, events, event, hf⟩⟩

end Store

end VectorStore
