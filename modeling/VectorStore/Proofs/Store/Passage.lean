/-
  What becomes of a query.

  A query passes to the backend in time, when it is known what the backend can do, within the
  limits, and with a filter that need not be refused (`Passes`).

  * `run_query_passed`: then the backend carries it out, and nothing else changes but the log and
    the events;
  * `run_query_stopped`: else it fails, and the backend is left as it is;
  * `admits_of_changed`: so what changes the backend has passed.
-/
import VectorStore.Proofs.Store.Arguments
import VectorStore.Proofs.Store.Deadlines
import VectorStore.Proofs.Store.Sinks

namespace VectorStore

variable {β α : Type}

/-- The session with more in its log, and with other events. -/
def Session.noting (lines : List LogLine) (events : List Event) (s : Session β) : Session β :=
  { s with logs := s.logs ++ lines, events }

namespace Store

variable {st : Store β} {s : Session β} {ctx : Option Context} {caps : Capabilities}
  {name vector topK filter includeVector : Value} {q : QueryRequest}

/-! ## Parts of an operation -/

/-- What the backend answers when it is asked what it can do. -/
def asked (st : Store β) (s : Session β) : Except Failure Capabilities × Session β :=
  (Session.ofBackend st.backend.capabilities).run s

theorem noting_nil (events : List Event) (s : Session β) :
    s.noting [] events = { s with events } := by
  rw [Session.noting, List.append_nil]

/-- Measuring changes nothing but the events. -/
theorem run_measured (st : Store β) (operation : String) (ctx : Option Context) (extra : Fields)
    (body : Time → Task (Session β) Failure α) (s : Session β) :
    ∃ events, (st.measured operation ctx extra body).run s =
      (((body s.clock).run s).1, { ((body s.clock).run s).2 with events }) := by
  rw [measured, Task.run, Task.run_recover]
  rcases (body s.clock).run s with ⟨f | a, s'⟩
  · exact run_failing s.clock f s'
  · exact ⟨s'.events, rfl⟩

theorem run_succeed_events (st : Store β) (operation : String) (began : Time)
    (ctx : Option Context) (extra : Fields) (s : Session β) :
    ∃ events, (st.succeed operation began ctx extra).run s = (.ok (), { s with events }) :=
  (observe_eq operation began ctx extra st.backend.component true "OK" s).imp fun _ h =>
    congrArg (Prod.mk (Except.ok ())) h

theorem run_count_events (component name : String) (value : Int) (s : Session β) :
    ∃ r events, (Session.count component name value).run s = (r, { s with events }) := by
  rw [Session.count, Task.run]
  dsimp only
  rcases s.sink s.events (.counter component name value) with _ | f
  · exact ⟨.ok (), _, rfl⟩
  · exact ⟨.error (.fault f), s.events, rfl⟩

theorem run_asked (st : Store β) (s : Session β) : ∃ events, st.capabilities.run s =
    ((st.asked s).1.mapError capabilitiesFailure, { (st.asked s).2 with events }) := by
  rw [capabilities, Task.run_recover]
  obtain ⟨events, hm⟩ := run_measured st "capabilities" none [] (fun began => do
    let caps ← Session.ofBackend st.backend.capabilities
    st.succeed "capabilities" began none []
    return caps) s
  rw [hm]
  rcases h : (Session.ofBackend st.backend.capabilities).run s with ⟨f | caps, s'⟩
  · rw [Task.run_bind_error h, asked, h]
    exact ⟨events, rfl⟩
  · obtain ⟨events', hs⟩ := run_succeed_events st "capabilities" s.clock none [] s'
    rw [Task.run_bind_ok h, Task.run_bind_ok hs, asked, h]
    exact ⟨events, rfl⟩

/-- The line that says that a filter is not enforced. -/
def unenforced (caps : Capabilities) (name : String) : LogLine :=
  ⟨logger, "WARNING",
    s!"{caps.server} does not enforce metadata filters; results for {Text.quoted name} " ++
      "are unfiltered"⟩

/-- What is warned of before a backend is given a query. -/
def warned (caps : Capabilities) (q : QueryRequest) : List LogLine :=
  if q.filter.isNone || caps.enforcesFilters then [] else [unenforced caps q.name]

theorem run_checkFilter (h : Enforced st.config caps q.filter) (s : Session β) :
    (st.checkFilter caps q.name q.filter).run s = (.ok (), s.noting (warned caps q) s.events) := by
  rw [checkFilter, warned]
  split
  · rw [noting_nil]
    rfl
  · next hf =>
    rw [if_neg]
    · rfl
    · intro hstrict
      simp only [Bool.or_eq_true, not_or, Bool.not_eq_true] at hf
      exact h ⟨by simpa using hf.1, by simpa using hstrict, hf.2⟩

theorem run_checkFilter_refused (h : ¬Enforced st.config caps q.filter) (s : Session β) :
    ∃ f, (st.checkFilter caps q.name q.filter).run s = (.error f, s) := by
  simp only [Enforced, not_not] at h
  obtain ⟨hf, hstrict, hcaps⟩ := h
  have hsome := Option.isSome_iff_ne_none.1 hf
  rw [checkFilter, if_neg (by simp [Option.isNone_iff_eq_none, hsome, hcaps]),
    if_pos (by simp [hstrict])]
  exact ⟨_, rfl⟩

/-- What follows the answer of the backend changes nothing but the events. -/
theorem run_answered_cases (st : Store β) (q : QueryRequest) (ctx : Option Context) (began : Time)
    (found : List Match) (s : Session β) :
    ∃ r events, (st.answered q ctx began found).run s = (r, { s with events }) := by
  obtain ⟨events, hsucceed⟩ := run_succeed_events st "query" began ctx (aboutRequest q ++
    [("matches", .int (topMatches q.topK found).length)]) s
  obtain ⟨r, events', hcount⟩ := run_count_events st.backend.component "queries" 1
    { s with events }
  rw [answered, Task.run_bind_ok hsucceed]
  rcases r with f | u
  · exact ⟨_, _, Task.run_bind_error hcount _⟩
  · exact ⟨_, _, Task.run_bind_ok hcount _⟩

/-! ## Queries -/

/-- A query passes the gate with what the backend says that it can do. -/
structure Passes (st : Store β) (s : Session β) (ctx : Option Context) (q : QueryRequest)
    (caps : Capabilities) : Prop where
  inTime : LeavesTime ctx s.now
  asked : (st.asked s).1 = .ok caps
  limits : checkTopK st.config caps q.topK = .ok ()
  enforced : Enforced st.config caps q.filter
  stillInTime : LeavesTime ctx (st.asked s).2.now

/-- What passes is carried out by the backend, with a warning if its filter is not enforced. -/
theorem run_query_passed (hq : requestOf name vector topK filter includeVector = .ok q)
    (hctx : ∀ c ∈ ctx, c.Dated) (hnow : 0 ≤ s.now) (hthen : 0 ≤ (st.asked s).2.now)
    (h : Passes st s ctx q caps) :
    ∃ d events r events',
      (st.query name vector topK filter includeVector ctx).run s =
        (r, { (((Session.ofBackend (st.backend.query q ctx)).bounded d).run
          ((st.asked s).2.noting (warned caps q) events)).2 with events := events' }) := by
  obtain ⟨events, hasked⟩ := run_asked st s
  rw [h.asked] at hasked
  let s₁ := (st.asked s).2.noting (warned caps q) events
  obtain ⟨d, hd⟩ := run_withDeadline (s := s₁) (inTime_of_leavesTime hctx hthen h.stillInTime)
    fun d => (Session.ofBackend (st.backend.query q ctx)).bounded d
  obtain ⟨r, events₁, hquerying⟩ : ∃ r events₁, (st.querying q ctx s.clock).run s =
      (r, { (((Session.ofBackend (st.backend.query q ctx)).bounded d).run s₁).2 with
        events := events₁ }) := by
    rw [querying, Task.run_bind_ok hasked, Task.run_bind_ofExcept, h.limits]
    dsimp only
    rw [Task.run_bind_ok (run_checkFilter h.enforced _)]
    rcases hr : ((Session.ofBackend (st.backend.query q ctx)).bounded d).run s₁ with ⟨f | found, s₂⟩
    · rw [hr] at hd
      exact ⟨_, _, Task.run_bind_error hd _⟩
    · rw [hr] at hd
      obtain ⟨r, events₁, hanswered⟩ := run_answered_cases st q ctx s.clock found s₂
      exact ⟨r, events₁, (Task.run_bind_ok hd _).trans hanswered⟩
  obtain ⟨events₂, hmeasured⟩ := run_measured st "query" ctx (aboutRequest q) (st.querying q ctx) s
  rw [hquerying] at hmeasured
  refine ⟨d, events, r, events₂, ?_⟩
  rw [query_eq, hq, Task.run_bind_ofExcept]
  dsimp only
  rw [Task.run_bind_ok (run_failIfExpired (inTime_of_leavesTime hctx hnow h.inTime))]
  exact hmeasured

/-- What does not pass fails, before or after the backend was asked.  There may have been a warning
    then, if all was in order but for the deadline, which passed in the meantime. -/
theorem run_query_stopped (hq : requestOf name vector topK filter includeVector = .ok q)
    (hctx : ∀ c ∈ ctx, c.Dated) (hnow : 0 ≤ s.now) (h : ¬∃ caps, Passes st s ctx q caps) :
    ∃ f s' lines events, (st.query name vector topK filter includeVector ctx).run s =
        (.error f, s'.noting lines events) ∧ (s' = s ∨ s' = (st.asked s).2) ∧
      ((lines = [] ∧ ¬(LeavesTime ctx s.now ∧ ∃ caps, (st.asked s).1 = .ok caps ∧
          Admits st.config caps name vector topK filter includeVector)) ∨
        LeavesTime ctx s.now ∧ ∃ caps, (st.asked s).1 = .ok caps ∧
          Admits st.config caps name vector topK filter includeVector ∧
          lines = warned caps q) := by
  rw [query_eq, hq, Task.run_bind_ofExcept]
  simp only [admits_iff hq]
  by_cases ht : LeavesTime ctx s.now
  swap
  · refine ⟨expired, s, [], s.events, ?_, .inl rfl, .inl ⟨rfl, fun h => ht h.1⟩⟩
    rw [Task.run_bind_error (run_failIfExpired_late ht), noting_nil]
  rw [Task.run_bind_ok (run_failIfExpired (inTime_of_leavesTime hctx hnow ht))]
  obtain ⟨events₁, hasked⟩ := run_asked st s
  -- the query has failed where it is measured
  suffices hquerying : ∃ f lines events, (st.querying q ctx s.clock).run s =
      (.error f, (st.asked s).2.noting lines events) ∧
      ((lines = [] ∧ ∀ caps, (st.asked s).1 = .ok caps →
          ¬(checkTopK st.config caps q.topK = .ok () ∧ Enforced st.config caps q.filter)) ∨
        ∃ caps, (st.asked s).1 = .ok caps ∧ (checkTopK st.config caps q.topK = .ok () ∧
          Enforced st.config caps q.filter) ∧ lines = warned caps q) by
    obtain ⟨f, lines, events, hrun, hlines⟩ := hquerying
    obtain ⟨events₂, hm⟩ := run_measured st "query" ctx (aboutRequest q) (st.querying q ctx) s
    rw [hrun] at hm
    refine ⟨f, (st.asked s).2, lines, events₂, hm, .inr rfl, hlines.imp ?_ fun h => ⟨ht, h⟩⟩
    exact fun ⟨hnone, hnot⟩ => ⟨hnone, fun ⟨_, caps, hcaps, hadmits⟩ => hnot caps hcaps hadmits⟩
  rw [querying]
  rcases hcaps : (st.asked s).1 with f | caps <;> rw [hcaps] at hasked
  · refine ⟨capabilitiesFailure f, [], events₁, ?_, .inl ⟨rfl, nofun⟩⟩
    rw [Task.run_bind_error hasked, noting_nil]
  rw [Task.run_bind_ok hasked, Task.run_bind_ofExcept]
  rcases hlimits : checkTopK st.config caps q.topK with f | u
  · refine ⟨f, [], events₁, ?_, .inl ⟨rfl, ?_⟩⟩
    · rw [noting_nil]
    · rintro _ ⟨⟩ ⟨hwithin, -⟩
      rw [hlimits] at hwithin
      cases hwithin
  dsimp only
  by_cases henforced : Enforced st.config caps q.filter
  swap
  · obtain ⟨f, hf⟩ := run_checkFilter_refused henforced { (st.asked s).2 with events := events₁ }
    refine ⟨f, [], events₁, ?_, .inl ⟨rfl, ?_⟩⟩
    · rw [Task.run_bind_error hf, noting_nil]
    · rintro _ ⟨⟩ ⟨-, hto⟩
      exact henforced hto
  have hlate : ¬LeavesTime ctx (st.asked s).2.now := fun hstill =>
    h ⟨caps, ht, hcaps, hlimits, henforced, hstill⟩
  refine ⟨timedOut, warned caps q, events₁, ?_, .inr ⟨caps, rfl, ⟨hlimits, henforced⟩, rfl⟩⟩
  rw [Task.run_bind_ok (run_checkFilter henforced _)]
  have hlate' : ¬LeavesTime ctx ((st.asked s).2.noting (warned caps q) events₁).now := hlate
  exact Task.run_bind_error (run_withDeadline_late hlate' _) _

/-- A query that changes the backend has passed the gate, and it is the backend that changed
    something. -/
theorem admits_of_changed {st : Store β} {caps : Capabilities}
    (hasked : st.asked s = (.ok caps, s)) (hctx : ∀ c ∈ ctx, c.Dated) (hnow : 0 ≤ s.now)
    (h : ((st.query name vector topK filter includeVector ctx).run s).2.backend ≠ s.backend) :
    LeavesTime ctx s.now ∧ Admits st.config caps name vector topK filter includeVector ∧
      ∃ q, requestOf name vector topK filter includeVector = .ok q ∧
        ∃ d s', (((Session.ofBackend (st.backend.query q ctx)).bounded d).run s').2.backend ≠
          s'.backend := by
  rcases hq : requestOf name vector topK filter includeVector with f | q
  · rw [query_eq, hq] at h
    exact absurd rfl h
  by_cases hpass : ∃ caps, Passes st s ctx q caps
  · obtain ⟨caps', hpass⟩ := hpass
    obtain rfl : caps = caps' := by simpa [hasked] using hpass.asked
    obtain ⟨d, events, r, events', hrun⟩ :=
      run_query_passed hq hctx hnow (by rw [hasked]; exact hnow) hpass
    rw [hrun, hasked] at h
    exact ⟨hpass.inTime, (admits_iff hq).2 ⟨hpass.limits, hpass.enforced⟩, q, rfl, d,
      s.noting (warned caps q) events, h⟩
  · obtain ⟨f, s', lines, events, hrun, hs', -⟩ := run_query_stopped hq hctx hnow hpass
    rw [hasked, or_self] at hs'
    rw [hrun, hs'] at h
    exact absurd rfl h

end Store

end VectorStore
