/-
  Queries.

  A query checks its arguments (`requestOf`), then looks at its deadline, and only then the
  request goes to the backend (`querying`), after a look at what the backend can do
  (`query_eq`).
-/
import VectorStore.Proofs.Store.Runs

namespace VectorStore.Store

variable {β : Type} {st : Store β} {s s' : Session β} {ctx : Option Context}
  {name vector topK filter includeVector : Value} {q : QueryRequest}

/-- The request that the arguments of a query make, if they are in order. -/
def requestOf (name vector topK filter includeVector : Value) : Except Failure QueryRequest := do
  let name ← requireText "name" name
  let xs ← Record.vectorOf "vector" vector
  let k ← requirePositive "top_k" topK
  let filter ← requireFilter filter
  let includeVector ← requireBool "include_vector" includeVector
  return ⟨name, xs, k, filter, includeVector⟩

/-- What metrics say of a request. -/
def aboutRequest (q : QueryRequest) : Fields := [("index", .text q.name), ("top_k", .int q.topK)]

/-- What is noted of the matches that a backend has found. -/
def answered (st : Store β) (q : QueryRequest) (ctx : Option Context) (began : Time)
    (found : List Match) : Task (Session β) Failure (List Match) := do
  let results := topMatches q.topK found
  st.succeed "query" began ctx (aboutRequest q ++ [("matches", .int results.length)])
  Session.count st.backend.component "queries" 1
  return results

/-- A query whose arguments are checked. -/
def querying (st : Store β) (q : QueryRequest) (ctx : Option Context) (began : Time) :
    Task (Session β) Failure (List Match) := do
  let caps ← st.capabilities
  .ofExcept (checkTopK st.config caps q.topK)
  st.checkFilter caps q.name q.filter
  let found ← byDeadline ctx (st.backend.query q ctx)
  st.answered q ctx began found

theorem query_eq (st : Store β) (name vector topK filter includeVector : Value)
    (ctx : Option Context) :
    st.query name vector topK filter includeVector ctx = (do
      let q ← .ofExcept (requestOf name vector topK filter includeVector)
      failIfExpired ctx
      st.measured "query" ctx (aboutRequest q) (st.querying q ctx)) := by
  unfold query requestOf
  rcases requireText "name" name with f | n
  · rfl
  rcases Record.vectorOf "vector" vector with f | xs
  · rfl
  rcases requirePositive "top_k" topK with f | k
  · rfl
  rcases requireFilter filter with f | fields
  · rfl
  rcases requireBool "include_vector" includeVector with f | b <;> rfl

/-- A count that is a positive integer. -/
theorem requirePositive_int {k : Nat} (hk : 0 < k) (name : String) :
    requirePositive name (.int k) = .ok k := by
  rw [requirePositive, Batch.positive?, if_pos (by omega), Int.toNat_natCast]

/-- The request of arguments that are in order. -/
theorem requestOf_ok (hn : Text.allBlank q.name = false)
    (hv : Record.vectorOf "vector" vector = .ok q.vector) (hk : 0 < q.topK)
    (hf : requireFilter filter = .ok q.filter) :
    requestOf (.text q.name) vector (.int q.topK) filter (.bool q.includeVector) = .ok q := by
  rw [requestOf, requireText_text hn, hv, requirePositive_int hk, hf]
  rfl

/-- Where the arguments are in order and the deadline has not passed, a query ends as what goes
    to the backend does. -/
theorem run_query_ok (hq : requestOf name vector topK filter includeVector = .ok q)
    (ht : InTime ctx s.now) {results : List Match}
    (h : (st.querying q ctx s.clock).run s = (.ok results, s')) :
    (st.query name vector topK filter includeVector ctx).run s = (.ok results, s') := by
  rw [query_eq, hq, Task.run_bind_ofExcept]
  dsimp only
  rw [Task.run_bind_ok (run_failIfExpired ht)]
  exact run_measured_ok h

/-- The end of a query, with a sink that takes all counts. -/
theorem run_answered (h : ∀ events e, e.isCounter = true → s.sink events e = none)
    (st : Store β) (q : QueryRequest) (ctx : Option Context) (began : Time) (found : List Match) :
    ∃ s', (st.answered q ctx began found).run s = (.ok (topMatches q.topK found), s') ∧
      s'.cleared = s.cleared := by
  obtain ⟨s₁, hsucceed, hc₁⟩ : ∃ s₁, (st.succeed "query" began ctx (aboutRequest q ++
    [("matches", .int (topMatches q.topK found).length)])).run s = (.ok (), s₁) ∧
    s₁.cleared = s.cleared := run_succeed ..
  have hsink : s₁.sink = s.sink := Session.sink_of_cleared hc₁
  obtain ⟨s₂, hcount, hc₂⟩ := run_count_taken (s := s₁) (hsink ▸ h) st.backend.component "queries" 1
  refine ⟨s₂, ?_, hc₂.trans hc₁⟩
  exact (Task.run_bind_ok hsucceed _).trans (Task.run_bind_ok hcount _)

end VectorStore.Store
