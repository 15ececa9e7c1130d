/-
  What a store upholds.

  A backend upholds an invariant if each of its tasks does, whatever the frame allows to happen
  while it waits (`Backend.Keeps`).  Then so does every operation of a store over it, whatever its
  arguments, in time or late (`Upholds`): what it does around the tasks of the backend leaves the
  backend alone.

  * `upholds_byDeadline`, `upholds_batched`: a task of the backend within a deadline, and a batched
    write, of which the writers keep what all of them keep;
  * `upholds_perform`: every request.
-/
import VectorStore.Proofs.Batch.Keeping
import VectorStore.Proofs.Store.Calls

namespace VectorStore

open VectorStore.Task (Frame Leaves)

/-- The backend upholds what the frame says, and its queries find what is said of them. -/
structure Backend.Keeps (B : Backend β) (F : Frame β)
    (answers : QueryRequest → β → List Match → Prop) : Prop where
  stays : ∀ b, F.inv b → F.drift b b
  capabilities : ∀ b, F.inv b → B.capabilities.Keeps F (Leaves F.inv fun _ b => F.inv b) b
  createIndex : ∀ name dimension m ctx b, F.inv b →
    (B.createIndex name dimension m ctx).Keeps F (Leaves F.inv fun _ b => F.inv b) b
  describeIndex : ∀ name ctx b, F.inv b →
    (B.describeIndex name ctx).Keeps F (Leaves F.inv fun _ b => F.inv b) b
  listIndexes : ∀ ctx b, F.inv b → (B.listIndexes ctx).Keeps F (Leaves F.inv fun _ b => F.inv b) b
  deleteIndex : ∀ name ctx b, F.inv b →
    (B.deleteIndex name ctx).Keeps F (Leaves F.inv fun _ b => F.inv b) b
  /-- the writers of chunks together keep something of which the invariant follows -/
  upsertChunk : ∀ b₀, F.inv b₀ → ∃ same : β → Prop, same b₀ ∧ (∀ b, same b → F.inv b) ∧
    ∀ name c ctx b, same b →
      (B.upsertChunk name c ctx).Keeps (.shared same) (Leaves same fun _ b => same b) b
  query : ∀ q ctx b, F.inv b →
    (B.query q ctx).Keeps F (Leaves F.inv fun found b => F.inv b ∧ answers q b found) b

namespace Store

variable {β α γ : Type} {inv : β → Prop} {s : Session β} {P : α → β → Prop} {Q : γ → β → Prop}

/-- However the task ends, it leaves the backend as said; and so is its result, if it has one. -/
def Upholds (inv : β → Prop) (t : Task (Session β) Failure α) (s : Session β)
    (result : α → β → Prop) : Prop :=
  inv (t.run s).2.backend ∧ ∀ a, (t.run s).1 = .ok a → result a (t.run s).2.backend

/-! ## Parts of operations -/

theorem Upholds.bind {t : Task (Session β) Failure α} {k : α → Task (Session β) Failure γ}
    (h : Upholds inv t s P)
    (hk : ∀ a s', inv s'.backend → P a s'.backend → Upholds inv (k a) s' Q) :
    Upholds inv (t >>= k) s Q := by
  obtain ⟨hinv, hresult⟩ := h
  rcases hrun : t.run s with ⟨f | a, s'⟩ <;> rw [hrun] at hinv hresult
  · rw [Upholds, Task.run_bind_error hrun]
    exact ⟨hinv, nofun⟩
  · rw [Upholds, Task.run_bind_ok hrun]
    exact hk a s' hinv (hresult a rfl)

theorem upholds_pure {a : α} (h : inv s.backend) (ha : P a s.backend) :
    Upholds inv (pure a) s P := by
  refine ⟨h, ?_⟩
  rintro _ ⟨⟩
  exact ha

/-- An argument is checked. -/
theorem upholds_ofExcept {r : Except Failure α} {k : α → Task (Session β) Failure γ}
    (h : inv s.backend) (hk : ∀ a, r = .ok a → Upholds inv (k a) s Q) :
    Upholds inv (.ofExcept r >>= k) s Q := by
  cases r with
  | error f => exact ⟨h, nofun⟩
  | ok a => exact hk a rfl

/-- A part that leaves the backend alone. -/
theorem Upholds.after {t : Task (Session β) Failure α} {k : α → Task (Session β) Failure γ}
    (h : inv s.backend) (ht : (t.run s).2.backend = s.backend)
    (hk : ∀ a s', inv s'.backend → s'.backend = s.backend → Upholds inv (k a) s' Q) :
    Upholds inv (t >>= k) s Q := by
  have hsame : Upholds inv t s fun _ b => b = s.backend := ⟨ht ▸ h, fun _ _ => ht⟩
  exact hsame.bind hk

theorem backend_failIfExpired (ctx : Option Context) (s : Session β) :
    ((failIfExpired ctx).run s).2.backend = s.backend := by
  rcases failIfExpired_cases ctx s with h | ⟨f, s', h, -, hb⟩
  · rw [h]
  · rw [h]
    exact hb

theorem backend_count (component name : String) (value : Int) (s : Session β) :
    ((Session.count component name value).run s).2.backend = s.backend := by
  rcases run_count component name value s with ⟨s', h, hc⟩ | ⟨f, h, -⟩
  · rw [h]
    exact Session.backend_of_cleared hc
  · rw [h]

/-- A part that leaves the backend alone ends the operation. -/
theorem upholds_quiet {t : Task (Session β) Failure α} (h : inv s.backend)
    (ht : (t.run s).2.backend = s.backend) : Upholds inv t s fun _ _ => True :=
  ⟨ht ▸ h, fun _ _ => trivial⟩

variable {st : Store β} {operation : String} {ctx : Option Context} {extra : Fields}

theorem backend_checkFilter (st : Store β) (caps : Capabilities) (name : String)
    (filter : Option Fields) (s : Session β) :
    ((st.checkFilter caps name filter).run s).2.backend = s.backend := by
  unfold checkFilter
  split
  · rfl
  · split <;> rfl

theorem backend_succeed (began : Time) (s : Session β) :
    ((st.succeed operation began ctx extra).run s).2.backend = s.backend :=
  Session.backend_of_cleared (Session.cleared_observe ..)

theorem Upholds.measured {body : Time → Task (Session β) Failure α}
    (h : Upholds inv (body s.clock) s P) :
    Upholds inv (st.measured operation ctx extra body) s P := by
  obtain ⟨hinv, hresult⟩ := h
  rcases hrun : (body s.clock).run s with ⟨f | a, s'⟩ <;> rw [hrun] at hinv hresult
  · obtain ⟨s'', hmeasured, hc⟩ : ∃ s'', (st.measured operation ctx extra body).run s =
        (.error f, s'') ∧ s''.cleared = s'.cleared := run_measured_error hrun
    rw [Upholds, hmeasured]
    exact ⟨Session.backend_of_cleared hc ▸ hinv, nofun⟩
  · rw [Upholds, run_measured_ok hrun]
    exact ⟨hinv, hresult⟩

/-- A failure in the place of another. -/
theorem Upholds.recover {t : Task (Session β) Failure α} (h : Upholds inv t s P)
    (leaves : Failure → Failure) : Upholds inv (t.recover fun f => .fail (leaves f)) s P := by
  obtain ⟨hinv, hresult⟩ := h
  rw [Upholds, Task.run_recover]
  rcases hrun : t.run s with ⟨f | a, s'⟩ <;> rw [hrun] at hinv hresult
  · exact ⟨hinv, nofun⟩
  · exact ⟨hinv, hresult⟩

/-- What is done with some deadline or none is done in time, or not at all. -/
theorem upholds_withDeadline {t : Option (Task.Deadline Failure) → Task (Session β) Failure α}
    (hs : inv s.backend) (h : ∀ d, Upholds inv (t d) s P) :
    Upholds inv (withDeadline ctx t) s P := by
  by_cases htime : InTime ctx s.now
  · obtain ⟨d, hd⟩ := run_withDeadline htime t
    obtain ⟨hinv, hresult⟩ := h d
    rw [Upholds, hd]
    refine ⟨hinv, fun a ha => hresult a ?_⟩
    rcases hr : ((t d).run s).1 with f | a' <;> rw [hr] at ha
    · cases ha
    · exact ha
  · obtain ⟨f, s', hrun, -, hb⟩ := refuses_withDeadline htime t
    rw [Upholds, hrun]
    exact ⟨hb ▸ hs, nofun⟩

/-! ## Tasks of the backend -/

section

variable {F : Frame β} {answers : QueryRequest → β → List Match → Prop}

/-- The frame of a session whose backend has the given one. -/
def inSession (F : Frame β) : Frame (Session β) where
  drift s s' := F.drift s.backend s'.backend
  inv s := F.inv s.backend

theorem keeps_ofBackend {t : Task β Failure α} {post : β → Except Failure α → Prop}
    (h : t.Keeps F post s.backend) :
    (Session.ofBackend t).Keeps (inSession F) (fun s r => post s.backend r) s := by
  let rest (_ : Session β) : Prop := True
  have hdrift (s s' : Session β) (_ : rest s) (_ : F.inv s.backend)
      (h : F.drift s.backend s'.backend) : rest s' ∧ F.drift s.backend s'.backend := ⟨trivial, h⟩
  exact Task.Keeps.zoom Session.part_backend (fun _ _ _ => trivial) (fun _ _ hs => hs) hdrift
    (fun _ _ _ hr => hr) trivial h

/-- A task of the backend, within any deadline. -/
theorem upholds_bounded (hstays : ∀ b, F.inv b → F.drift b b) {t : Task β Failure α}
    (h : t.Keeps F (Leaves F.inv fun a b => F.inv b ∧ P a b) s.backend)
    (d : Option (Task.Deadline Failure)) :
    Upholds F.inv ((Session.ofBackend t).bounded d) s P := by
  have hbounded : ((Session.ofBackend t).bounded d).Keeps (inSession F)
      (fun s r => Leaves F.inv (fun a b => F.inv b ∧ P a b) s.backend r) s :=
    (keeps_ofBackend h).bounded (fun _ _ _ hs => hs) fun s hs => hstays s.backend hs
  have hend := hbounded.run (fun s hs => hstays s.backend hs) fun time s hs => hstays s.backend hs
  rcases hrun : ((Session.ofBackend t).bounded d).run s with ⟨f | a, s'⟩ <;> rw [hrun] at hend
  · rw [Upholds, hrun]
    exact ⟨hend, nofun⟩
  · rw [Upholds, hrun]
    refine ⟨hend.1, ?_⟩
    rintro _ ⟨⟩
    exact hend.2

theorem upholds_byDeadline (hstays : ∀ b, F.inv b → F.drift b b) (hs : F.inv s.backend)
    {t : Task β Failure α} (h : t.Keeps F (Leaves F.inv fun a b => F.inv b ∧ P a b) s.backend) :
    Upholds F.inv (byDeadline ctx t) s P :=
  upholds_withDeadline hs (upholds_bounded hstays h)

theorem leaves_of_keeps {t : Task β Failure α} {b : β}
    (h : t.Keeps F (Leaves F.inv fun _ b => F.inv b) b) :
    t.Keeps F (Leaves F.inv fun _ b => F.inv b ∧ True) b :=
  h.leaves (fun _ hb => hb) fun _ _ hb => ⟨hb, trivial⟩

variable (hB : st.backend.Keeps F answers)

include hB

theorem upholds_capabilities (hs : F.inv s.backend) :
    Upholds F.inv st.capabilities s fun _ _ => True := by
  refine Upholds.recover (Upholds.measured ?_) _
  refine Upholds.bind (upholds_bounded hB.stays (leaves_of_keeps (hB.capabilities _ hs)) none) ?_
  intro caps s hs _
  exact Upholds.after hs (backend_succeed ..) fun _ s hs _ => upholds_pure hs trivial

/-- A batched write upholds what all its writers keep. -/
theorem upholds_batched (hs : F.inv s.backend) (n : String) (rs : List Record)
    (caps : Capabilities) : Upholds F.inv (st.batched n rs ctx caps) s fun _ _ => True := by
  obtain ⟨same, hstart, hinv, hchunk⟩ := hB.upsertChunk s.backend hs
  refine upholds_withDeadline hs fun d => ⟨hinv _ ?_, fun _ _ => trivial⟩
  let kept (s : Session β) : Prop := same s.backend
  have hwriter (c : Batch.Chunk Record) (s : Session β) (hs : kept s) :
      (Session.ofBackend (st.backend.upsertChunk n c ctx)).Keeps (.shared kept)
        (fun s _ => kept s) s := by
    refine (keeps_ofBackend (hchunk n c ctx s.backend hs)).mono fun s r hr => ?_
    cases r <;> exact hr
  have hclock (time : Time) (s : Session β) (hs : kept s) : kept (Clocked.atTime time s) := hs
  have hwarn (message : String) (s : Session β) (hs : kept s) :
      kept (Session.warn batchLogger message s) := hs
  exact Batch.run_upsert_keeping hclock hwriter hwarn _ _ _ _ hstart

/-! ## Operations -/

omit hB in
theorem upholds_reported (hs : F.inv s.backend) (n : String) (rs : List Record) (began : Time)
    (outcome : Batch.Outcome) :
    Upholds F.inv (st.reported operation n rs ctx began outcome) s fun _ _ => True := by
  have hend (s : Session β) (hs : F.inv s.backend) : Upholds F.inv (do
      st.succeed operation began ctx [("index", .text n), ("records", .int rs.length),
        ("chunks", .int outcome.chunks), ("failed", .int outcome.failures.length)]
      Session.count st.backend.component "vectors_upserted" (rs.length - outcome.failures.length)
      return outcome) s fun _ _ => True :=
    Upholds.after hs (backend_succeed ..) fun _ s hs _ =>
      Upholds.after hs (backend_count ..) fun _ s hs _ => upholds_pure hs trivial
  unfold reported
  dsimp only
  split
  · exact Upholds.after hs rfl fun _ s hs _ => hend s hs
  · exact hend s hs

theorem upholds_runUpsert (hs : F.inv s.backend) (name vectors metadata ids : Value) :
    Upholds F.inv (st.runUpsert operation name vectors metadata ids ctx) s fun _ _ => True := by
  rw [runUpsert_eq]
  refine upholds_ofExcept hs fun n _ => ?_
  refine Upholds.after hs (by rw [run_takeRecords]; rfl) fun rs s hs _ => ?_
  refine Upholds.after hs (backend_failIfExpired ctx s) fun _ s hs _ => Upholds.measured ?_
  refine Upholds.bind (upholds_capabilities hB hs) fun caps s hs _ => ?_
  refine Upholds.bind (upholds_batched hB hs n rs caps) fun outcome s hs _ => ?_
  exact upholds_reported hs n rs _ outcome

theorem upholds_createIndex (hs : F.inv s.backend) (name dimension metric : Value) :
    Upholds F.inv (st.createIndex name dimension metric ctx) s fun _ _ => True := by
  refine upholds_ofExcept hs fun n _ => upholds_ofExcept hs fun d _ => ?_
  refine upholds_ofExcept hs fun m _ => ?_
  refine Upholds.after hs (backend_failIfExpired ctx s) fun _ s hs _ => Upholds.measured ?_
  refine Upholds.bind (upholds_capabilities hB hs) fun caps s hs _ => ?_
  refine upholds_ofExcept hs fun _ _ => ?_
  refine Upholds.bind (upholds_byDeadline hB.stays hs
    (leaves_of_keeps (hB.createIndex n d m ctx _ hs))) fun _ s hs _ => ?_
  exact upholds_quiet hs (backend_succeed ..)

theorem upholds_describeIndex (hs : F.inv s.backend) (name : Value) :
    Upholds F.inv (st.describeIndex name ctx) s fun _ _ => True := by
  refine upholds_ofExcept hs fun n _ => ?_
  refine Upholds.after hs (backend_failIfExpired ctx s) fun _ s hs _ => Upholds.measured ?_
  refine Upholds.bind (upholds_byDeadline hB.stays hs
    (leaves_of_keeps (hB.describeIndex n ctx _ hs))) fun d s hs _ => ?_
  exact Upholds.after hs (backend_succeed ..) fun _ s hs _ => upholds_pure hs trivial

theorem upholds_listIndexes (hs : F.inv s.backend) :
    Upholds F.inv (st.listIndexes ctx) s fun _ _ => True := by
  refine Upholds.after hs (backend_failIfExpired ctx s) fun _ s hs _ => Upholds.measured ?_
  refine Upholds.bind (upholds_byDeadline hB.stays hs
    (leaves_of_keeps (hB.listIndexes ctx _ hs))) fun names s hs _ => ?_
  exact Upholds.after hs (backend_succeed ..) fun _ s hs _ => upholds_pure hs trivial

theorem upholds_deleteIndex (hs : F.inv s.backend) (name : Value) :
    Upholds F.inv (st.deleteIndex name ctx) s fun _ _ => True := by
  refine upholds_ofExcept hs fun n _ => ?_
  refine Upholds.after hs (backend_failIfExpired ctx s) fun _ s hs _ => Upholds.measured ?_
  refine Upholds.bind (upholds_byDeadline hB.stays hs
    (leaves_of_keeps (hB.deleteIndex n ctx _ hs))) fun _ s hs _ => ?_
  exact upholds_quiet hs (backend_succeed ..)

/-- The results are the best that the backend found in the index. -/
def Found (answers : QueryRequest → β → List Match → Prop) (name : Value) (results : List Match)
    (b : β) : Prop :=
  ∃ q found, name = .text q.name ∧ answers q b found ∧ results = topMatches q.topK found

theorem upholds_query (hs : F.inv s.backend) (name vector topK filter includeVector : Value) :
    Upholds F.inv (st.query name vector topK filter includeVector ctx) s (Found answers name) := by
  refine upholds_ofExcept hs fun n hn => upholds_ofExcept hs fun xs _ => ?_
  refine upholds_ofExcept hs fun k _ => upholds_ofExcept hs fun fields _ => ?_
  refine upholds_ofExcept hs fun withVectors _ => ?_
  refine Upholds.after hs (backend_failIfExpired ctx s) fun _ s hs _ => Upholds.measured ?_
  refine Upholds.bind (upholds_capabilities hB hs) fun caps s hs _ => ?_
  refine upholds_ofExcept hs fun _ _ => ?_
  refine Upholds.after hs (backend_checkFilter st caps n fields s) fun _ s hs _ => ?_
  let q : QueryRequest := ⟨n, xs, k, fields, withVectors⟩
  refine Upholds.bind (upholds_byDeadline hB.stays hs (hB.query q ctx _ hs)) ?_
  intro found s hs hfound
  have hbest : Found answers name (topMatches k found) s.backend :=
    ⟨q, found, (requireText_ok hn).1, hfound, rfl⟩
  refine Upholds.after hs (backend_succeed ..) fun _ s₁ hs₁ hb₁ => ?_
  refine Upholds.after hs₁ (backend_count ..) fun _ s₂ hs₂ hb₂ => ?_
  exact upholds_pure hs₂ (hb₂.trans hb₁ ▸ hbest)

/-- What is said of an answer: results are the best of what the backend found. -/
def Answers (answers : QueryRequest → β → List Match → Prop) (request : Request) (a : Answer)
    (b : β) : Prop :=
  ∀ results, a = .found results → ∃ name ∈ request.index?, Found answers name results b

omit hB in
theorem Upholds.answer {t : Task (Session β) Failure γ} {R : γ → β → Prop}
    (h : Upholds inv t s R) {a : γ → Answer} {request : Request}
    (ha : ∀ x b, R x b → Answers answers request (a x) b) :
    Upholds inv (t >>= fun x => pure (a x)) s (Answers answers request) :=
  h.bind fun x _ hs hx => upholds_pure hs (ha x _ hx)

/-- **Every request upholds what the backend does**, and a query is answered from what the backend
    found. -/
theorem upholds_perform (hs : F.inv s.backend) (request : Request) :
    Upholds F.inv (st.perform ctx request) s (Answers answers request) := by
  cases request with
  | capabilities => exact (upholds_capabilities hB hs).answer fun _ _ _ => nofun
  | createIndex name dimension metric =>
    exact (upholds_createIndex hB hs name dimension metric).answer fun _ _ _ => nofun
  | upsert name vectors metadata ids =>
    have hupsert : Upholds F.inv (st.upsert name vectors metadata ids ctx) s fun _ _ => True := by
      refine (upholds_runUpsert hB hs name vectors metadata ids).bind fun outcome s hs _ => ?_
      split
      · exact upholds_pure hs trivial
      · exact ⟨hs, nofun⟩
    exact hupsert.answer fun _ _ _ => nofun
  | upsertWithReport name vectors metadata ids =>
    exact (upholds_runUpsert hB hs name vectors metadata ids).answer fun _ _ _ => nofun
  | query name vector topK filter includeVector =>
    refine (upholds_query hB hs name vector topK filter includeVector).answer fun results b hb => ?_
    rintro _ ⟨⟩
    exact ⟨name, rfl, hb⟩
  | describeIndex name => exact (upholds_describeIndex hB hs name).answer fun _ _ _ => nofun
  | listIndexes => exact (upholds_listIndexes hB hs).answer fun _ _ _ => nofun
  | deleteIndex name => exact (upholds_deleteIndex hB hs name).answer fun _ _ _ => nofun

end

end Store

end VectorStore
