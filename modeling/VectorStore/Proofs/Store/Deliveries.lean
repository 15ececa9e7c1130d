/-
  What a write sends.

  Of a write it is seen what is noted of the service (`Note`).

  * `Batch.Call.sends`: a call whose writers keep the ledger has every chunk called for once, and
    answers with the ids of all records, unless a call failed;
  * `Store.upsert_sends`: so does a write, whatever the settings.
-/
import VectorStore.Proofs.Batch.Answers
import VectorStore.Proofs.Batch.InTurn
import VectorStore.Proofs.Store.Ledger
import VectorStore.Proofs.Store.Noted
import VectorStore.Proofs.Store.Passage

namespace VectorStore

variable {β κ : Type} {notes : β → List (Note κ)} {gate : β → Turnstile}
  {call? : Batch.Chunk Record → Option κ} {n : String} {rs : List Record} {size : Nat}

/-- **A call whose writers make the calls for which their chunks stand** makes each of them once,
    and answers with the ids of all records, unless a call failed. -/
theorem Batch.Call.sends (call : Batch.Call (Session β) Record)
    {write : Chunk Record → Task β Failure Reported}
    (hcall : ∀ c, call.write c = Session.ofBackend (write c))
    (hwarn : ∀ message s, (call.warn message s).backend = s.backend)
    (hgate : (gate call.state.backend).returned = (gate call.state.backend).drawn)
    (hw : ∀ c, Sends notes gate (call? c) (write c))
    (hcalls : ∀ c ∈ call.chunks, (call? c).isSome) :
    ∃ s, (upsert call.idOf call.write call.warn none call.records (.int call.size)
        (.int call.limit)).run call.state = (call.answer, s) ∧
      (.failed ∈ notes s.backend ∨
        (notes s.backend).Perm (notes call.state.backend ++ Note.calls call? call.chunks) ∧
          call.answer = .ok ⟨call.records.map call.idOf, [], call.chunks.length⟩) := by
  let before := notes call.state.backend
  have hwrite : ∀ c s, (call.write c).Obeys (ledger notes gate call? before).toRules
      (fun s g r => (ledger notes gate call? before).ends c r s g) s
      ((ledger notes gate call? before).begins c) := by
    intro c s
    rw [hcall]
    let hold (g : Debt κ × Ticket) := g
    have hready (s : Session β) g : (ledger notes gate call? before).ready s (hold g) ↔
        (desk notes gate).ready s.backend g := Iff.rfl
    exact Task.Obeys.zoom Session.part_backend (fun _ _ _ _ h => h) hready (fun _ _ _ h => h)
      (hw c s.backend)
  have hstart : Booked notes gate call? before call.state [] 0 :=
    ⟨.inr ⟨by simp [before, Note.calls, Note.dues, History.begun], by simp,
        fun _ _ hr => (by cases hr)⟩,
      Turnstile.orderly_zero hgate⟩
  obtain ⟨s, hrun, hbooked, hin⟩ := call.run_conducted (K := ledger notes gate call? before) hwrite
    (fun message s h hb => ⟨by rw [hwarn]; exact hb.balanced, by rw [hwarn]; exact hb.orderly⟩)
    hstart
  refine ⟨s, hrun, hbooked.balanced.imp_right fun hb => ?_⟩
  let report : Chunk Record → Reported := fun _ => []
  have hended : ∀ c r, .ended c r ∈ call.history → r = .ok (report c) := fun c r hr =>
    hb.written c r hr (hcalls c (Batch.Call.mem_chunks_of_ended hr))
  have hbegun := Batch.Call.begun_of_unfailed hin fun c f hf => by
    cases hended c _ hf
  refine ⟨?_, ?_⟩
  · have hadd := hb.notes_add
    rw [hbegun] at hadd
    exact Multiset.coe_eq_coe.1 (by simpa [Note.dues] using hadd)
  · have ha := Batch.Call.answer_of_reports hin hended
    rw [Batch.placeAll_nothing] at ha
    exact ha

namespace Store

variable {st : Store β} {s : Session β} {vectors metadata ids : Value} {caps : Capabilities}

/-- With a sink that takes everything, a write is reported whatever was refused. -/
theorem run_reported_taken (h : s.sink = Session.takesAll) (st : Store β) (operation n : String)
    (rs : List Record) (ctx : Option Context) (began : Time) (o : Batch.Outcome) :
    ∃ s', (st.reported operation n rs ctx began o).run s = (.ok o, s') ∧
      s'.backend = s.backend := by
  have hrest (s : Session β) (h : s.sink = Session.takesAll) (extra : Fields) (value : Int) :
      ∃ s', (do
        st.succeed operation began ctx extra
        Session.count st.backend.component "vectors_upserted" value
        return o : Task (Session β) Failure Batch.Outcome).run s = (.ok o, s') ∧
          s'.backend = s.backend := by
    obtain ⟨events, hs⟩ := run_succeed_events st operation began ctx extra s
    obtain ⟨s', hc, hcleared⟩ := run_count_taken (s := { s with events })
      (fun events e _ => congrFun (congrFun h events) e) st.backend.component "vectors_upserted" value
    refine ⟨s', (Task.run_bind_ok hs _).trans (Task.run_bind_ok hc _), ?_⟩
    exact (Session.backend_of_cleared hcleared)
  rw [reported]
  dsimp only
  split
  · exact hrest (Session.warn logger _ s) h _ _
  · exact hrest s h _ _

variable (st s) in
/-- With a sink that takes everything, a write leaves what its batches leave, returns the ids if
    nothing was refused, and fails if they fail. -/
theorem run_upsert_taken (h : s.sink = Session.takesAll) (hn : Text.allBlank n = false)
    (hrs : (Record.buildRecords s.drawn vectors metadata ids).1 = .ok rs)
    (hcaps : st.backend.capabilities = .ret caps) :
    ∃ events, let s' := { drawnFor s vectors metadata ids with events }
      let batches := Batch.upsert Record.id
        (fun c => Session.ofBackend (st.backend.upsertChunk n c none)) (Session.warn batchLogger)
        none rs (.int (batchSize st.config caps)) (.int st.config.batchMaxConcurrency)
      let written := batches.run s'
      ((st.upsert (.text n) vectors metadata ids none).run s).2.backend = written.2.backend ∧
        (∀ o, written.1 = .ok o → o.failures = [] →
          ((st.upsert (.text n) vectors metadata ids none).run s).1 = .ok o.ids) ∧
        ∀ f, written.1 = .error f →
          ((st.upsert (.text n) vectors metadata ids none).run s).1 = .error (asTimeout f) := by
  obtain ⟨events, hasked⟩ := run_asked st (drawnFor s vectors metadata ids)
  have hanswer : st.asked (drawnFor s vectors metadata ids) =
      (.ok caps, drawnFor s vectors metadata ids) := by
    rw [asked, hcaps]
    rfl
  rw [hanswer] at hasked
  refine ⟨events, ?_⟩
  intro s' batches written
  have hbatched : (st.batched n rs none caps).run s' =
      (written.1.mapError asTimeout, written.2) := by
    have hb : st.batched n rs none caps = batches.recover fun f => .fail (asTimeout f) := rfl
    have hrun : batches.run s' = written := rfl
    rw [hb, Task.run_recover, hrun]
    rcases written with ⟨_ | _, _⟩ <;> rfl
  have hsink : written.2.sink = Session.takesAll := by
    have hkept := (unmoved_batched st n rs none caps s' []).1
    rw [hbatched] at hkept
    exact hkept.trans h
  have hwriting (began : Time) : ∃ s₁, s₁.backend = written.2.backend ∧
      (st.writing "upsert" n rs none began).run (drawnFor s vectors metadata ids) =
        (written.1.mapError asTimeout, s₁) := by
    rw [writing, Task.run_bind_ok hasked]
    rcases hr : written.1 with f | o <;> rw [hr] at hbatched
    · exact ⟨written.2, rfl, Task.run_bind_error hbatched _⟩
    · obtain ⟨s₁, hreported, hb⟩ := run_reported_taken hsink st "upsert" n rs none began o
      exact ⟨s₁, hb, (Task.run_bind_ok hbatched _).trans hreported⟩
  obtain ⟨s₁, hb, hrun⟩ : ∃ s₁, s₁.backend = written.2.backend ∧
      (st.runUpsert "upsert" (.text n) vectors metadata ids none).run s =
        (written.1.mapError asTimeout, s₁) := by
    obtain ⟨s₁, hb, hw⟩ := hwriting (drawnFor s vectors metadata ids).clock
    obtain ⟨events, hm⟩ := run_measured st "upsert" none [("index", .text n)]
      (st.writing "upsert" n rs none) (drawnFor s vectors metadata ids)
    have htake : (takeRecords vectors metadata ids).run s =
        (.ok rs, drawnFor s vectors metadata ids) := by
      rw [run_takeRecords, hrs]
    rw [hw] at hm
    refine ⟨{ s₁ with events }, hb, ?_⟩
    rw [runUpsert_eq, requireText_text hn "name", Task.run_bind_ofExcept]
    exact (Task.run_bind_ok htake _).trans ((Task.run_bind_ok
      (run_failIfExpired (inTime_none _)) _).trans hm)
  rw [upsert]
  rcases hr : written.1 with f | o <;> rw [hr] at hrun
  · rw [Task.run_bind_error hrun]
    exact ⟨hb, fun _ ho => (by cases ho), fun f' hf' => by cases hf'; rfl⟩
  · rw [Task.run_bind_ok hrun]
    split
    · refine ⟨hb, fun o' ho _ => ?_, fun _ hf => (by cases hf)⟩
      cases ho
      rfl
    · next hne =>
      refine ⟨hb, fun o' ho hnil => ?_, fun _ hf => (by cases hf)⟩
      cases ho
      rw [hnil] at hne
      exact absurd rfl hne

/-- **A write makes the calls for which its chunks stand**, each of them once, and returns the ids
    of all records, unless a call failed or the count of the records is refused. -/
theorem upsert_sends (hn : Text.allBlank n = false)
    (hrs : (Record.buildRecords s.drawn vectors metadata ids).1 = .ok rs)
    (hcaps : st.backend.capabilities = .ret caps) (hsize : batchSize st.config caps = (size : Int))
    (hpos : 0 < size) (hlimit : 0 < st.config.batchMaxConcurrency)
    (hgate : (gate s.backend).returned = (gate s.backend).drawn)
    (hw : ∀ c, Sends notes gate (call? c) (st.backend.upsertChunk n c none))
    (hcalls : ∀ c ∈ Batch.chunks size rs, (call? c).isSome) :
    let outcome := (st.upsert (.text n) vectors metadata ids none).run s
    .failed ∉ notes outcome.2.backend →
      (notes outcome.2.backend).Perm
          (notes s.backend ++ Note.calls call? (Batch.chunks size rs)) ∧
        ((∀ events e, e.isCounter = true → s.sink events e = none) →
          outcome.1 = .ok (rs.map Record.id)) := by
  intro outcome hfailed
  -- what is sent does not depend on the sink
  have hcounted : Counted s.sink outcome
      ((st.upsert (.text n) vectors metadata ids none).run (s.unrefused s.events)) :=
    counts_upsert st none (.text n) vectors metadata ids s s.events
  obtain ⟨events, hsession⟩ := hcounted.session
  have hbackend : outcome.2.backend = ((st.upsert (.text n) vectors metadata ids none).run
      (s.unrefused s.events)).2.backend := by rw [hsession]; rfl
  obtain ⟨events', hb, hok, -⟩ := run_upsert_taken st (s.unrefused s.events) rfl hn hrs hcaps
  let call : Batch.Call (Session β) Record :=
    { idOf := Record.id
      write := fun c => Session.ofBackend (st.backend.upsertChunk n c none)
      warn := Session.warn batchLogger
      records := rs
      size
      limit := st.config.batchMaxConcurrency
      state := { drawnFor (s.unrefused s.events) vectors metadata ids with events := events' }
      size_pos := hpos
      limit_pos := hlimit }
  obtain ⟨s₁, hrun, hsent⟩ := call.sends (fun _ => rfl) (fun _ _ => rfl) hgate hw hcalls
  rw [hsize, hrun] at hb hok
  rw [hbackend, hb] at hfailed
  obtain ⟨hperm, hanswer⟩ := hsent.resolve_left hfailed
  refine ⟨?_, fun hcount => ?_⟩
  · rw [hbackend, hb]
    exact hperm
  · have hresult := hok _ hanswer rfl
    refine (hcounted.result.resolve_right ?_).trans hresult
    rintro ⟨f, ⟨events, component, name, value, hrefused⟩, -⟩
    rw [hcount _ _ rfl] at hrefused
    cases hrefused

end Store

end VectorStore
