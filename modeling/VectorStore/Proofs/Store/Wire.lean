/-
  Requests from outside as calls.

  A request from outside stands for a call of the store: each argument is the supplied one, and a
  default stands in for one that is left out (`direct`).  The handler makes this call and replies
  with how it ended (`run_handle`).

  A metric is an argument apart: where a document that stands for "nothing given" is supplied, the
  handler takes the default (`run_handle_blank`).
-/
import VectorStore.Memory.Store
import VectorStore.Proofs.Store.Calls
import VectorStore.Store.Wire

namespace VectorStore.Wire

variable {β : Type}

/-! ## Calls that requests stand for -/

/-- The argument of the given name, or a default if there is none. -/
def given (args : Fields) (name : String) (fallback : Value) : Value :=
  (Fields.get? args name).getD fallback

/-- The call that an operation with its arguments stands for, if there is such an operation and no
    argument is missing. -/
def direct (operation : String) (args : Fields) : Option Request :=
  match operation with
  | "vector.capabilities" => some .capabilities
  | "vector.create_index" => do
    return .createIndex (← Fields.get? args "name") (← Fields.get? args "dimension")
      (given args "metric" (.text "cosine"))
  | "vector.upsert" => do
    return .upsertWithReport (← Fields.get? args "name") (← Fields.get? args "vectors")
      (given args "metadata" .null) (given args "ids" .null)
  | "vector.query" => do
    return .query (← Fields.get? args "name") (← Fields.get? args "vector")
      (given args "top_k" (.int 10)) (given args "filter" .null)
      (given args "include_vector" (.bool false))
  | "vector.describe_index" => do return .describeIndex (← Fields.get? args "name")
  | "vector.list_indexes" => some .listIndexes
  | "vector.delete_index" => do return .deleteIndex (← Fields.get? args "name")
  | _ => none

/-- The context of a request. -/
def contextOf (ctx : Fields) : Context where
  requestId := Fields.orNull ctx "request_id"
  deadline := Fields.orNull ctx "deadline_ms"
  traceparent := Fields.orNull ctx "traceparent"
  attrs := (Fields.orNull ctx "attrs").orElse (.object [])

/-- What a reply says of an answer. -/
def valueOf (request : Request) : Answer → Value
  | .done => named "name" (request.index?.getD .null)
  | .capabilities caps => caps.toValue
  | .ids ids => .list (ids.map .text)
  | .outcome o => outcomeValue o
  | .found results => named "matches" (.list (results.map Match.toValue))
  | .shape d => d.toValue
  | .names names => named "indexes" (.list (names.map .text))

/-- The reply to how a call ended.  Only a cancellation goes past it. -/
def replyTo (request : Request) : Except Failure Answer → Except Failure Reply
  | .ok a => .ok (.success (valueOf request a))
  | .error f => if f.isCancellation then .error f else .ok (.failure f)

/-! ## Arguments -/

theorem isNull_orElse (v : Value) : (v.orElse (.object [])).isNull = false := by
  rw [Value.orElse]
  split
  · rfl
  · next h =>
    cases v with
    | null => exact absurd rfl h
    | _ => rfl

theorem ofRequest_object (ctx : Fields) :
    Context.ofRequest (.object ctx) = .ok (contextOf ctx) := by
  cases ctx with
  | nil => rfl
  | cons f ctx =>
    show Except.ok (Context.ofFields (Fields.put (f :: ctx) "attrs"
      ((Fields.orNull (f :: ctx) "attrs").orElse (.object [])))) = _
    have hother (name : String) (h : name ≠ "attrs") (v : Value) :
        Fields.orNull (Fields.put (f :: ctx) "attrs" v) name = Fields.orNull (f :: ctx) name := by
      rw [Fields.orNull, Fields.get?_put_of_ne _ _ h, Fields.orNull]
    have hself (v : Value) : Fields.orNull (Fields.put (f :: ctx) "attrs" v) "attrs" = v := by
      rw [Fields.orNull, Fields.get?_put_self, Option.getD_some]
    rw [Context.ofFields, contextOf, hother _ (by decide), hother _ (by decide),
      hother _ (by decide), hself, isNull_orElse]
    rfl

/-- No argument is supplied as null, nor a metric that stands for "nothing given". -/
structure Supplied (operation : String) (args : Fields) : Prop where
  notNull : ∀ name v, Fields.get? args name = some v → v.isNull = false
  metric : operation = "vector.create_index" →
    ∀ v, Fields.get? args "metric" = some v → v.isVoid = false

variable {operation : String} {args : Fields} {request : Request}

theorem required_of_supplied (h : Supplied operation args) {name : String} {v : Value}
    (hv : Fields.get? args name = some v) : required args name = .ok v := by
  have hnull := h.notNull name v hv
  rw [required, hv]
  cases v with
  | null => cases hnull
  | _ => rfl

theorem metric_of_supplied (h : Supplied "vector.create_index" args) :
    (Fields.orNull args "metric").orElse (.text "cosine") =
      given args "metric" (.text "cosine") := by
  rw [Fields.orNull, given]
  rcases hv : Fields.get? args "metric" with _ | v
  · rfl
  · rw [Option.getD_some, Option.getD_some, Value.orElse, h.metric rfl v hv]
    rfl

/-- What is made of a result at last may be made of it at once. -/
theorem answered {γ : Type} {t : Task (Session β) Failure γ} {f : γ → Answer}
    {k : γ → Task (Session β) Failure Value} (hk : ∀ a, k a = .ret (valueOf request (f a))) :
    t >>= k = (t >>= fun a => pure (f a)).andThen fun a => .ret (valueOf request a) := by
  obtain rfl : k = fun a => .ret (valueOf request (f a)) := funext hk
  exact (Task.andThen_assoc t (fun a => .ret (f a)) fun a => .ret (valueOf request a)).symm

theorem ofExcept_ok {α γ : Type} (a : α) (k : α → Task (Session β) Failure γ) :
    (Task.ofExcept (.ok a) >>= k) = k a := rfl

/-- **The handler makes the call that the request stands for.** -/
theorem call_eq (st : Store β) (ctx : Context) (h : Supplied operation args)
    (hr : direct operation args = some request) :
    call st operation args ctx =
      (st.perform (some ctx) request).andThen fun a => .ret (valueOf request a) := by
  unfold direct at hr
  split at hr <;> simp only [Option.bind_eq_bind, Option.bind_eq_some_iff, Option.pure_def,
    Option.some.injEq, reduceCtorEq] at hr
  · subst hr
    exact answered fun _ => rfl
  · obtain ⟨name, hname, dimension, hdimension, rfl⟩ := hr
    simp only [call, required_of_supplied h hname, required_of_supplied h hdimension,
      metric_of_supplied h, ofExcept_ok]
    exact answered fun _ => rfl
  · obtain ⟨name, hname, vectors, hvectors, rfl⟩ := hr
    simp only [call, required_of_supplied h hname, required_of_supplied h hvectors, ofExcept_ok]
    exact answered fun _ => rfl
  · obtain ⟨name, hname, vector, hvector, rfl⟩ := hr
    simp only [call, required_of_supplied h hname, required_of_supplied h hvector, ofExcept_ok]
    exact answered fun _ => rfl
  · obtain ⟨name, hname, rfl⟩ := hr
    simp only [call, required_of_supplied h hname, ofExcept_ok]
    exact answered fun _ => rfl
  · subst hr
    exact answered fun _ => rfl
  · obtain ⟨name, hname, rfl⟩ := hr
    simp only [call, required_of_supplied h hname, ofExcept_ok]
    exact answered fun _ => rfl

/-! ## Requests as objects -/

/-- The parts of a request with an operation, a context and arguments. -/
structure Envelope (envelope : Fields) (operation : String) (ctx args : Fields) : Prop where
  operation : Fields.get? envelope "op" = some (.text operation)
  context : Fields.get? envelope "ctx" = some (.object ctx)
  arguments : Fields.get? envelope "args" = some (.object args)

variable {envelope ctx : Fields}

theorem parts_of_envelope (h : Envelope envelope operation ctx args) :
    parts (.object envelope) = .ok (operation, contextOf ctx, args) := by
  have hargs : (Value.object args).orElse (.object []) = .object args := by
    cases args <;> rfl
  rw [parts]
  simp only [Fields.orNull, h.operation, h.context, h.arguments, Option.getD_some,
    ofRequest_object, hargs]
  rfl

/-- **The handler is a faithful front**: it replies with how the call ends that the request stands
    for, and leaves the session as the call does. -/
theorem run_handle (st : Store β) (henvelope : Envelope envelope operation ctx args)
    (hr : direct operation args = some request) (h : Supplied operation args) (s : Session β) :
    (handle st (.object envelope)).run s =
      let r := (st.perform (some (contextOf ctx)) request).run s
      (replyTo request r.1, r.2) := by
  rw [handle, parts_of_envelope henvelope]
  show Task.run ((Task.attempt (call st operation args (contextOf ctx))).andThen _) s = _
  rw [call_eq st (contextOf ctx) h hr, Task.run_andThen, Task.run_attempt, Task.run_andThen]
  rcases (st.perform (some (contextOf ctx)) request).run s with ⟨f | a, s'⟩
  · show Task.run (if f.isCancellation then Task.fail f else Task.ret (Reply.failure f)) s' = _
    dsimp only [replyTo]
    split <;> rfl
  · rfl

/-! ## A small request -/

/-- The store in memory with the settings that are the default. -/
def small : Store Memory.State := ⟨Memory.backend "memory", .default⟩

/-- The session at its beginning, without an index. -/
def fresh : Session Memory.State := Session.start [] Session.takesAll

/-- The arguments of an index of one dimension, with a metric. -/
def docsWith (metric : Value) : Fields :=
  [("name", .text "docs"), ("dimension", .int 1), ("metric", metric)]

/-- The request to create it. -/
def creating (metric : Value) : Fields :=
  [("op", .text "vector.create_index"), ("ctx", .object []), ("args", .object (docsWith metric))]

theorem notNull_docsWith {metric : Value} (h : metric.isNull = false) (name : String) (v : Value)
    (hv : Fields.get? (docsWith metric) name = some v) : v.isNull = false := by
  simp only [docsWith, Fields.get?] at hv
  split at hv
  · cases hv
    rfl
  · split at hv
    · cases hv
      rfl
    · split at hv
      · cases hv
        exact h
      · cases hv

theorem run_handle_cosine :
    let request : Request := .createIndex (.text "docs") (.int 1) (.text "cosine")
    let r := (small.perform (some (contextOf [])) request).run fresh
    Envelope (creating (.text "cosine")) "vector.create_index" [] (docsWith (.text "cosine")) ∧
      direct "vector.create_index" (docsWith (.text "cosine")) = some request ∧
      Supplied "vector.create_index" (docsWith (.text "cosine")) ∧
      (handle small (.object (creating (.text "cosine")))).run fresh =
        (replyTo request r.1, r.2) := by
  have henvelope : Envelope (creating (.text "cosine")) "vector.create_index" []
      (docsWith (.text "cosine")) := ⟨rfl, rfl, rfl⟩
  have hsupplied : Supplied "vector.create_index" (docsWith (.text "cosine")) := by
    refine ⟨fun name v => notNull_docsWith rfl name v, fun _ v hv => ?_⟩
    cases hv
    rfl
  exact ⟨henvelope, rfl, hsupplied, run_handle small henvelope rfl hsupplied fresh⟩

/-- A blank metric is refused by the store, and taken for the default by the handler. -/
theorem run_handle_blank :
    let request : Request := .createIndex (.text "docs") (.int 1) (.text "")
    let r := (small.perform (some (contextOf [])) request).run fresh
    Envelope (creating (.text "")) "vector.create_index" [] (docsWith (.text "")) ∧
      direct "vector.create_index" (docsWith (.text "")) = some request ∧
      (∀ name v, Fields.get? (docsWith (.text "")) name = some v → v.isNull = false) ∧
      r.1 = .error (Metric.refusal (.text "")) ∧
      ((handle small (.object (creating (.text "")))).run fresh).1 =
        .ok (.success (named "name" (.text "docs"))) ∧
      (handle small (.object (creating (.text "")))).run fresh ≠ (replyTo request r.1, r.2) := by
  refine ⟨⟨rfl, rfl, rfl⟩, rfl, fun name v => notNull_docsWith rfl name v, rfl, rfl, fun h => ?_⟩
  cases congrArg Prod.fst h

end VectorStore.Wire
