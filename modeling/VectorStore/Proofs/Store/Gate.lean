/-
  The gate of a query.

  Of a query it is seen which queries the backend was given (`Backend.recorded`) and what was warned
  of, for the service of Vectorize also how many calls were made to it (`Client.counted`).

  * `Gated` says which, and when;
  * `query_gate`: so it is for every query.
-/
import VectorStore.Proofs.Store.Noted
import VectorStore.Proofs.Store.Passage
import VectorStore.Vectorize.Store

namespace VectorStore

variable {β S α : Type}

/-! ## Calls to Vectorize -/

/-- A call to the service that is counted. -/
def Vectorize.counted (t : Task S Failure α) : Task (S × Nat) Failure α :=
  (Task.modify fun p => (p.1, p.2 + 1)).andThen fun _ => t.onFirst

/-- The client, with its calls to the service counted. -/
def Vectorize.Client.counted (client : Client S) : Client (S × Nat) where
  create name dimension metric := Vectorize.counted (client.create name dimension metric)
  config name := Vectorize.counted (client.config name)
  info name := Vectorize.counted (client.info name)
  names := Vectorize.counted client.names
  delete name := Vectorize.counted (client.delete name)
  upsert name lines := Vectorize.counted (client.upsert name lines)
  search q := Vectorize.counted (client.search q)

namespace Store

variable {ctx : Option Context} {name vector topK filter includeVector : Value} {q : QueryRequest}

/-- A query for more vectors than the service returns is refused before any call. -/
theorem run_checkValues {f : Failure} (h : Vectorize.checkValues q = .error f)
    (client : Vectorize.Client S) (ctx : Option Context) (d : Option (Task.Deadline Failure))
    (s : Session S) :
    ((Session.ofBackend ((Vectorize.backend client).query q ctx)).bounded d).run s =
      (.error f, s) := by
  have hsearch : Task.AtOnce ((Vectorize.backend client).query q ctx) s.backend (.error f)
      s.backend := by
    show Task.AtOnce (Vectorize.search client q) s.backend (.error f) s.backend
    rw [Vectorize.search, h]
    rfl
  exact ((Session.atOnce_ofBackend hsearch).bounded d).run

/-- What it takes for a query to reach the service: to pass the gate, and to ask for no more
    vectors than the service returns. -/
theorem admits_of_counted (client : Vectorize.Client S) (config : Config) (s : Session (S × Nat))
    (hctx : ∀ c ∈ ctx, c.Dated) (hnow : 0 ≤ s.now)
    (h : ((Store.query ⟨Vectorize.backend client.counted, config⟩ name vector topK filter
      includeVector ctx).run s).2.backend ≠ s.backend) :
    LeavesTime ctx s.now ∧
      Admits config Vectorize.capabilities name vector topK filter includeVector ∧
      (includeVector = .bool true → ∀ k : Int, topK = .int k → k ≤ 20) := by
  have hasked : asked ⟨Vectorize.backend client.counted, config⟩ s =
      (.ok Vectorize.capabilities, s) := rfl
  obtain ⟨ht, hadmits, q, hq, d, s', hchanged⟩ := admits_of_changed hasked hctx hnow h
  refine ⟨ht, hadmits, ?_⟩
  rintro rfl k rfl
  by_contra hk
  obtain ⟨-, -, htopK, -, hflag⟩ := requestOf_eq_ok.1 hq
  obtain ⟨hk', -⟩ := requirePositive_ok htopK
  injection hk' with hk'
  obtain ⟨f, hf⟩ : ∃ f, Vectorize.checkValues q = .error f := by
    have hincluded : q.includeVector = true := by simpa [requireBool] using hflag.symm
    have hmany : Vectorize.maxTopKWithValues < q.topK := by
      rw [Vectorize.maxTopKWithValues]
      omega
    rw [Vectorize.checkValues, if_pos (by simp [hincluded, hmany])]
    exact ⟨_, rfl⟩
  exact hchanged (congrArg (fun r => r.2.backend) (run_checkValues hf client.counted ctx d s'))

/-! ## The gate -/

/-- What is seen of a query at the gate: the queries that the backend was given, and what was
    warned of. -/
structure Gated (st : Store β) (s : Session (β × List QueryRequest)) (ctx : Option Context)
    (name vector topK filter includeVector : Value)
    (outcome : Except Failure (List Match) × Session (β × List QueryRequest))
    (calls : List QueryRequest) (warnings : List LogLine) : Prop where
  noted : outcome.2.backend.2 = s.backend.2 ++ calls
  logged : outcome.2.logs = s.logs ++ warnings
  once : calls.length ≤ 1
  request : ∀ q ∈ calls, requestOf name vector topK filter includeVector = .ok q
  /-- the backend is given the query if and only if it may be -/
  given_iff : calls ≠ [] ↔ LeavesTime ctx s.now ∧ (∃ caps, (st.recorded.asked s).1 = .ok caps ∧
    Admits st.config caps name vector topK filter includeVector) ∧
    LeavesTime ctx (st.recorded.asked s).2.now
  warning : warnings = [] ∨ ∃ caps n, (st.recorded.asked s).1 = .ok caps ∧ name = .text n ∧
    warnings = [unenforced caps n]
  /-- there is a warning if and only if the query may be given to a backend that does not enforce
      its filter, but for a deadline that passes while the backend is asked what it can do -/
  warned_iff : warnings ≠ [] ↔ LeavesTime ctx s.now ∧ HasEntries filter ∧
    ∃ caps, (st.recorded.asked s).1 = .ok caps ∧ caps.enforcesFilters = false ∧
      Admits st.config caps name vector topK filter includeVector
  fails : calls = [] → ∃ f, outcome.1 = .error f

section

variable {st : Store β} {s : Session (β × List QueryRequest)} {caps : Capabilities}

theorem passes_iff (hq : requestOf name vector topK filter includeVector = .ok q) :
    Passes st.recorded s ctx q caps ↔ LeavesTime ctx s.now ∧
      ((st.recorded.asked s).1 = .ok caps ∧
        Admits st.config caps name vector topK filter includeVector) ∧
      LeavesTime ctx (st.recorded.asked s).2.now := by
  rw [admits_iff hq]
  constructor
  · rintro ⟨ht, hcaps, hlimits, henforced, hstill⟩
    exact ⟨ht, ⟨hcaps, hlimits, henforced⟩, hstill⟩
  · rintro ⟨ht, ⟨hcaps, hlimits, henforced⟩, hstill⟩
    exact ⟨ht, hcaps, hlimits, henforced, hstill⟩

theorem warned_cases (hq : requestOf name vector topK filter includeVector = .ok q) :
    warned caps q = [] ∨ ∃ n, name = .text n ∧ warned caps q = [unenforced caps n] := by
  rw [warned]
  split
  · exact .inl rfl
  · exact .inr ⟨q.name, (requireText_ok (requestOf_eq_ok.1 hq).1).1, rfl⟩

theorem warned_ne_nil_iff (hq : requestOf name vector topK filter includeVector = .ok q) :
    warned caps q ≠ [] ↔ HasEntries filter ∧ caps.enforcesFilters = false := by
  obtain ⟨-, -, -, hfilter, -⟩ := requestOf_eq_ok.1 hq
  rw [hasEntries_iff hfilter, warned]
  cases q.filter <;> cases caps.enforcesFilters <;> simp

/-- Asking the backend what it can do leaves the notes and the log. -/
theorem asked_unnoted (st : Store β) (s : Session (β × List QueryRequest)) :
    (st.recorded.asked s).2.backend.2 = s.backend.2 ∧ (st.recorded.asked s).2.logs = s.logs :=
  run_unnoted st.backend.capabilities none s

/-- If the deadline does not pass while the backend is asked what it can do, there is a warning
    just where a query is given to it with a filter that it does not enforce. -/
theorem Gated.warned_iff_given
    {outcome : Except Failure (List Match) × Session (β × List QueryRequest)}
    {calls : List QueryRequest} {warnings : List LogLine}
    (h : Gated st s ctx name vector topK filter includeVector outcome calls warnings)
    (hmeanwhile : LeavesTime ctx s.now → LeavesTime ctx (st.recorded.asked s).2.now) :
    warnings ≠ [] ↔ calls ≠ [] ∧ HasEntries filter ∧
      ∃ caps, (st.recorded.asked s).1 = .ok caps ∧ caps.enforcesFilters = false := by
  rw [h.warned_iff, h.given_iff]
  constructor
  · rintro ⟨ht, hentries, caps, hcaps, hnot, hadmits⟩
    exact ⟨⟨ht, ⟨caps, hcaps, hadmits⟩, hmeanwhile ht⟩, hentries, caps, hcaps, hnot⟩
  · rintro ⟨⟨ht, ⟨caps, hcaps, hadmits⟩, -⟩, hentries, caps', hcaps', hnot⟩
    rw [hcaps] at hcaps'
    cases hcaps'
    exact ⟨ht, hentries, caps, hcaps, hnot, hadmits⟩

/-- Arguments that make no request. -/
theorem gated_refused {f : Failure}
    (hq : requestOf name vector topK filter includeVector = .error f) :
    Gated st s ctx name vector topK filter includeVector
      ((st.recorded.query name vector topK filter includeVector ctx).run s) [] [] := by
  have hrun : (st.recorded.query name vector topK filter includeVector ctx).run s =
      (.error f, s) := by
    rw [query_eq, hq]
    rfl
  rw [hrun]
  have hnever (caps : Capabilities) :
      ¬Admits st.config caps name vector topK filter includeVector := fun hadmits => by
    obtain ⟨q, hq'⟩ := exists_requestOf_iff.2 hadmits.toInOrder
    rw [hq] at hq'
    cases hq'
  refine ⟨by simp, by simp, by simp, nofun, ?_, .inl rfl, ?_, fun _ => ⟨f, rfl⟩⟩
  · simp only [ne_eq, not_true_eq_false, false_iff]
    exact fun ⟨_, ⟨caps, _, hadmits⟩, _⟩ => hnever caps hadmits
  · simp only [ne_eq, not_true_eq_false, false_iff]
    exact fun ⟨_, _, caps, _, _, hadmits⟩ => hnever caps hadmits

/-- A query that passes. -/
theorem gated_passed (hq : requestOf name vector topK filter includeVector = .ok q)
    (hctx : ∀ c ∈ ctx, c.Dated) (hnow : 0 ≤ s.now) (hthen : 0 ≤ (st.recorded.asked s).2.now)
    (hpass : Passes st.recorded s ctx q caps) :
    Gated st s ctx name vector topK filter includeVector
      ((st.recorded.query name vector topK filter includeVector ctx).run s) [q]
      (warned caps q) := by
  obtain ⟨d, events, r, events', hrun⟩ := run_query_passed hq hctx hnow hthen hpass
  obtain ⟨hcalls, hlogs⟩ := run_noted st q ctx d
    ((st.recorded.asked s).2.noting (warned caps q) events)
  obtain ⟨hcalls', hlogs'⟩ := asked_unnoted st s
  obtain ⟨ht, ⟨hcaps, hadmits⟩, hstill⟩ := (passes_iff hq).1 hpass
  rw [hrun]
  refine ⟨?_, ?_, by simp, by simpa using hq, ?_, ?_, ?_, by simp⟩
  · rw [← hcalls']
    exact hcalls
  · rw [← hlogs']
    exact hlogs
  · simp only [ne_eq, List.cons_ne_nil, not_false_eq_true, true_iff]
    exact ⟨ht, ⟨caps, hcaps, hadmits⟩, hstill⟩
  · exact (warned_cases hq).imp_right fun ⟨n, hn, hwarned⟩ => ⟨caps, n, hcaps, hn, hwarned⟩
  · rw [warned_ne_nil_iff hq]
    constructor
    · rintro ⟨hentries, hnot⟩
      exact ⟨ht, hentries, caps, hcaps, hnot, hadmits⟩
    · rintro ⟨-, hentries, caps', hcaps', hnot, -⟩
      rw [hcaps] at hcaps'
      cases hcaps'
      exact ⟨hentries, hnot⟩

/-- A query that does not pass. -/
theorem gated_stopped (hq : requestOf name vector topK filter includeVector = .ok q)
    (hctx : ∀ c ∈ ctx, c.Dated) (hnow : 0 ≤ s.now)
    (hstop : ¬∃ caps, Passes st.recorded s ctx q caps) :
    ∃ warnings, Gated st s ctx name vector topK filter includeVector
      ((st.recorded.query name vector topK filter includeVector ctx).run s) [] warnings := by
  obtain ⟨f, s₁, lines, events, hrun, hs₁, hlines⟩ := run_query_stopped hq hctx hnow hstop
  have hnotes : s₁.backend.2 = s.backend.2 ∧ s₁.logs = s.logs := by
    rcases hs₁ with rfl | rfl
    · exact ⟨rfl, rfl⟩
    · exact asked_unnoted st s
  rw [hrun]
  refine ⟨lines, ?_, ?_, by simp, nofun, ?_, ?_, ?_, fun _ => ⟨f, rfl⟩⟩
  · rw [List.append_nil]
    exact hnotes.1
  · rw [← hnotes.2]
    rfl
  · simp only [ne_eq, not_true_eq_false, false_iff]
    rintro ⟨ht, ⟨caps, hcaps⟩, hstill⟩
    exact hstop ⟨caps, (passes_iff hq).2 ⟨ht, hcaps, hstill⟩⟩
  · rcases hlines with ⟨hlines, -⟩ | ⟨-, caps, hcaps, -, rfl⟩
    · exact .inl hlines
    · exact (warned_cases hq).imp_right fun ⟨n, hn, hwarned⟩ => ⟨caps, n, hcaps, hn, hwarned⟩
  · rcases hlines with ⟨rfl, hnot⟩ | ⟨ht, caps, hcaps, hadmits, rfl⟩
    · simp only [ne_eq, not_true_eq_false, false_iff]
      exact fun ⟨ht, _, caps, hcaps, _, hadmits⟩ => hnot ⟨ht, caps, hcaps, hadmits⟩
    · rw [warned_ne_nil_iff hq]
      constructor
      · rintro ⟨hentries, hnot⟩
        exact ⟨ht, hentries, caps, hcaps, hnot, hadmits⟩
      · rintro ⟨-, hentries, caps', hcaps', hnot, -⟩
        rw [hcaps] at hcaps'
        cases hcaps'
        exact ⟨hentries, hnot⟩

end

/-- A store that enforces no filters, and finds nothing. -/
def unfiltered : Store Unit :=
  ⟨{ Backend.bare "unfiltered" with
      capabilities := .ret { server := "unfiltered", enforcesFilters := false }
      query := fun _ _ => .ret [] }, Config.default⟩

/-- A service that does nothing. -/
def idleClient : Vectorize.Client Unit :=
  ⟨fun _ _ _ => .ret (), fun _ => .ret ⟨.null, .null⟩, fun _ => .ret ⟨.null, .null⟩, .ret [],
    fun _ => .ret (), fun _ _ => .ret (), fun _ => .ret []⟩

/-- A store that takes a second to say that it enforces no filters. -/
def hesitant : Store Unit :=
  ⟨{ Backend.bare "hesitant" with
      capabilities := (Task.sleep 1).andThen fun _ =>
        .ret { server := "hesitant", enforcesFilters := false }
      query := fun _ _ => .ret [] }, Config.default⟩

end Store

end VectorStore
