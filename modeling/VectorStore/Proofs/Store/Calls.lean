/-
  Calls of a store.

  A call is a request with its context, made at some time (`Call`); a store answers one call
  after another, and the log says what it answered to each (`serve`).

  An operation either refuses or succeeds in a certain way (`Ends`).  What it does before it
  comes to the backend only adds refusals: the check of an argument (`ends_ofExcept`), the look
  at the deadline (`ends_failIfExpired`), the question what the backend can do
  (`ends_capabilities`) and the measurement (`Ends.measured`).
-/
import VectorStore.Proofs.Store.Runs

namespace VectorStore

/-- What is asked of a store. -/
inductive Request where
  | capabilities
  | createIndex (name dimension metric : Value)
  | upsert (name vectors metadata ids : Value)
  | upsertWithReport (name vectors metadata ids : Value)
  | query (name vector topK filter includeVector : Value)
  | describeIndex (name : Value)
  | listIndexes
  | deleteIndex (name : Value)

/-- What a store answers. -/
inductive Answer where
  | done
  | capabilities (caps : Capabilities)
  | ids (ids : List String)
  | outcome (o : Batch.Outcome)
  | found (results : List Match)
  | shape (d : Descriptor)
  | names (names : List String)

/-- The name of the index that a request is about. -/
def Request.index? : Request → Option Value
  | createIndex name .. | upsert name .. | upsertWithReport name .. | query name ..
  | describeIndex name | deleteIndex name => some name
  | capabilities | listIndexes => none

/-- Whether a request only asks for something. -/
def Request.asks : Request → Bool
  | capabilities | query .. | describeIndex _ | listIndexes => true
  | _ => false

/-- The arguments of a write: the index, the vectors, the metadata and the ids. -/
def Request.written? : Request → Option (Value × Value × Value × Value)
  | upsert name vectors metadata ids | upsertWithReport name vectors metadata ids =>
    some (name, vectors, metadata, ids)
  | _ => none

/-- The ids that a write returns. -/
def Answer.ids? : Answer → Option (List String)
  | .ids written => some written
  | .outcome o => some o.ids
  | _ => none

/-- A request with its context. -/
structure Call where
  request : Request
  ctx : Option Context := none
  /-- when the call is made -/
  time : Time := 0

/-- Calls with what was answered to them, in their order. -/
abbrev Log := List (Call × Except Failure Answer)

namespace Store

variable {β α γ : Type}

/-- What a store does on a request. -/
def perform (st : Store β) (ctx : Option Context) :
    Request → Task (Session β) Failure Answer
  | .capabilities => do
    return .capabilities (← st.capabilities)
  | .createIndex name dimension metric => do
    st.createIndex name dimension metric ctx
    return .done
  | .upsert name vectors metadata ids => do
    return .ids (← st.upsert name vectors metadata ids ctx)
  | .upsertWithReport name vectors metadata ids => do
    return .outcome (← st.upsertWithReport name vectors metadata ids ctx)
  | .query name vector topK filter includeVector => do
    return .found (← st.query name vector topK filter includeVector ctx)
  | .describeIndex name => do
    return .shape (← st.describeIndex name ctx)
  | .listIndexes => do
    return .names (← st.listIndexes ctx)
  | .deleteIndex name => do
    st.deleteIndex name ctx
    return .done

/-- What is answered to a call, and the session afterwards. -/
def answer (st : Store β) (c : Call) (s : Session β) : Except Failure Answer × Session β :=
  (st.perform c.ctx c.request).run (Clocked.atTime c.time s)

/-- The log of calls that are made one after another, and the session afterwards. -/
def serve (st : Store β) : List Call → Session β → Log × Session β
  | [], s => ([], s)
  | c :: calls, s =>
    let r := st.answer c s
    let rest := serve st calls r.2
    ((c, r.1) :: rest.1, rest.2)

/-- A write answers with the ids that it returns, or fails with the failure it ends with. -/
theorem perform_write (st : Store β) {request : Request} {name vectors metadata ids : Value}
    (hw : request.written? = some (name, vectors, metadata, ids)) (ctx : Option Context) :
    ∃ operation, ∀ s s' : Session β,
      (∀ o, (st.runUpsert operation name vectors metadata ids ctx).run s = (.ok o, s') →
        o.failures = [] → ∃ a, a.ids? = some o.ids ∧ (st.perform ctx request).run s = (.ok a, s')) ∧
      ∀ f, (st.runUpsert operation name vectors metadata ids ctx).run s = (.error f, s') →
        (st.perform ctx request).run s = (.error f, s') := by
  cases request with
  | upsert name vectors metadata ids =>
    cases hw
    refine ⟨"upsert", fun s s' => ⟨fun o h ho => ⟨.ids o.ids, rfl, ?_⟩, fun f h => ?_⟩⟩
    · have hu : (st.upsert name vectors metadata ids ctx).run s = (.ok o.ids, s') := by
        rw [upsert, Task.run_bind_ok h, ho]
        rfl
      exact Task.run_bind_ok hu _
    · have hu : (st.upsert name vectors metadata ids ctx).run s = (.error f, s') :=
        Task.run_bind_error h _
      exact Task.run_bind_error hu _
  | upsertWithReport name vectors metadata ids =>
    cases hw
    exact ⟨"upsert_with_report", fun s s' => ⟨fun o h _ => ⟨.outcome o, rfl, Task.run_bind_ok h _⟩,
      fun f h => Task.run_bind_error h _⟩⟩
  | _ => cases hw

/-! ## Operations that refuse or succeed -/

variable {s : Session β} {Q : α → β → Prop} {R : γ → β → Prop}

/-- The task refuses, or succeeds as `Q` says of its result and of the backend. -/
def Ends (t : Task (Session β) Failure α) (s : Session β) (Q : α → β → Prop) : Prop :=
  Refuses t s ∨ ∃ a s', t.run s = (.ok a, s') ∧ Q a s'.backend

theorem ends_ret {a : α} (h : Q a s.backend) : Ends (pure a : Task (Session β) Failure α) s Q :=
  .inr ⟨a, s, rfl, h⟩

theorem Ends.mono {Q' : α → β → Prop} {t : Task (Session β) Failure α} (h : Ends t s Q)
    (hQ : ∀ a b, Q a b → Q' a b) : Ends t s Q' :=
  h.imp_right fun ⟨a, s', hrun, hq⟩ => ⟨a, s', hrun, hQ a _ hq⟩

/-- A part that cannot fail follows. -/
theorem Ends.then {t : Task (Session β) Failure α} (h : Ends t s Q)
    {k : α → Task (Session β) Failure γ}
    (hk : ∀ a s', Q a s'.backend → ∃ c s'', (k a).run s' = (.ok c, s'') ∧ R c s''.backend) :
    Ends (t >>= k) s R := by
  rcases h with h | ⟨a, s', hrun, hq⟩
  · exact .inl (h.bind k)
  · obtain ⟨c, s'', hrun', hr⟩ := hk a s' hq
    exact .inr ⟨c, s'', (Task.run_bind_ok hrun k).trans hrun', hr⟩

theorem Ends.map {t : Task (Session β) Failure α} {f : α → γ}
    (h : Ends t s fun a b => R (f a) b) : Ends (t >>= fun a => pure (f a)) s R :=
  h.then fun _ _ hr => ⟨_, _, rfl, hr⟩

/-- A part that leaves the backend as it was goes before. -/
theorem Ends.after {t : Task (Session β) Failure α} {a : α} {s' : Session β}
    (ht : t.run s = (.ok a, s')) (hb : s'.backend = s.backend)
    {k : α → Task (Session β) Failure γ} (h : Ends (k a) s' R) : Ends (t >>= k) s R := by
  rcases h with h | ⟨c, s'', hrun, hr⟩
  · exact .inl (Refuses.after ht hb h)
  · exact .inr ⟨c, s'', (Task.run_bind_ok ht k).trans hrun, hr⟩

/-- The same of a part that may refuse. -/
theorem Ends.afterReading {t : Task (Session β) Failure α} {P : α → Prop}
    (h : Ends t s fun a b => P a ∧ b = s.backend) {k : α → Task (Session β) Failure γ}
    (hk : ∀ a s', P a → s'.backend = s.backend → Ends (k a) s' R) : Ends (t >>= k) s R := by
  rcases h with h | ⟨a, s', hrun, hp, hb⟩
  · exact .inl (h.bind k)
  · exact .after hrun hb (hk a s' hp hb)

theorem ends_ofExcept {r : Except Failure α} (hr : FailsWhole r)
    {k : α → Task (Session β) Failure γ} (hk : ∀ a, r = .ok a → Ends (k a) s R) :
    Ends (.ofExcept r >>= k) s R := by
  rcases r with f | a
  · exact .inl ((refuses_ofExcept (hr f rfl) s).bind k)
  · exact hk a rfl

theorem ends_failIfExpired {ctx : Option Context} {k : Unit → Task (Session β) Failure γ}
    (hk : Ends (k ()) s R) : Ends (failIfExpired ctx >>= k) s R := by
  rcases failIfExpired_cases ctx s with h | h
  · exact .after h rfl hk
  · exact .inl (h.bind k)

theorem ends_count {component name : String} {value : Int}
    {k : Unit → Task (Session β) Failure γ}
    (hk : ∀ s' : Session β, s'.backend = s.backend → Ends (k ()) s' R) :
    Ends (Session.count component name value >>= k) s R := by
  rcases run_count component name value s with ⟨s', h, hc⟩ | ⟨f, h, -⟩
  · exact .after h (Session.backend_of_cleared hc) (hk s' (Session.backend_of_cleared hc))
  · exact .inl ⟨_, _, Task.run_bind_error h k, Failure.whole_fault f, rfl⟩

variable {st : Store β} {operation : String} {ctx : Option Context} {extra : Fields}

theorem ends_succeed {began : Time} {k : Unit → Task (Session β) Failure γ}
    (hk : ∀ s' : Session β, s'.backend = s.backend → Ends (k ()) s' R) :
    Ends (st.succeed operation began ctx extra >>= k) s R := by
  obtain ⟨s', h, hc⟩ : ∃ s', (st.succeed operation began ctx extra).run s = (.ok (), s') ∧
    s'.cleared = s.cleared := run_succeed ..
  exact .after h (Session.backend_of_cleared hc) (hk s' (Session.backend_of_cleared hc))

theorem ends_capabilities (st : Store β) {caps : Capabilities}
    (hcaps : Task.AtOnce st.backend.capabilities s.backend (.ok caps) s.backend)
    {k : Capabilities → Task (Session β) Failure γ}
    (hk : ∀ s' : Session β, s'.backend = s.backend → Ends (k caps) s' R) :
    Ends (st.capabilities >>= k) s R := by
  obtain ⟨s', h, hc⟩ := run_capabilities hcaps
  exact .after h (Session.backend_of_cleared hc) (hk s' (Session.backend_of_cleared hc))

theorem Ends.measured {body : Time → Task (Session β) Failure α} (h : Ends (body s.clock) s Q) :
    Ends (st.measured operation ctx extra body) s Q := by
  rcases h with h | ⟨a, s', hrun, hq⟩
  · exact .inl h.measured
  · exact .inr ⟨a, s', run_measured_ok hrun, hq⟩

/-- A task of the backend that ends at once, and changes nothing if it fails. -/
theorem ends_byDeadline {t : Task β Failure α} {r : Except Failure α} {b : β}
    (ht : Task.AtOnce t s.backend r b) (hr : FailsWhole r)
    (hfail : ∀ f, r = .error f → b = s.backend) (hok : ∀ a, r = .ok a → Q a b) :
    Ends (byDeadline ctx t) s Q := by
  by_cases htime : InTime ctx s.now
  · have hrun := run_byDeadline htime ht
    rcases r with f | a
    · exact .inl ⟨asTimeout f, _, hrun, whole_asTimeout (hr f rfl), hfail f rfl⟩
    · exact .inr ⟨a, _, hrun, hok a rfl⟩
  · exact .inl (refuses_withDeadline htime _)

end Store

end VectorStore
