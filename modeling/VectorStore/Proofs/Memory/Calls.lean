/-
  What calls do to the store in memory.

  `Effect` lists what a request may do to the indexes: nothing, if it fails as a whole or only
  asks; an index comes or goes; records are inserted, all of them or those before a chunk.
  `effect_perform` shows that no request does anything else.
-/
import VectorStore.Proofs.Memory.Writes
import VectorStore.Proofs.Store.Calls

namespace VectorStore.Memory

open Batch Fields
open VectorStore.Task (AtOnce)

variable {server n : String} {config : Config} {s : Session State} {ctx : Option Context}
  {state : State} {name : String}

/-! ## Failures of the backend -/

theorem failsWhole_create (state : State) (name : String) (d : Nat) (m : Metric) :
    FailsWhole (create state name d m) := by
  unfold create
  split
  · exact failsWhole_error nofun
  · exact failsWhole_ok _

theorem failsWhole_delete (state : State) (name : String) : FailsWhole (delete state name) :=
  (failsWhole_find state name).bind fun _ => failsWhole_ok _

theorem failsWhole_describe (state : State) (name : String) : FailsWhole (describe state name) :=
  (failsWhole_find state name).bind fun _ => failsWhole_ok _

theorem failsWhole_matchCondition (doc : Value) (c : Filter.Condition) :
    FailsWhole (matchCondition doc c) := by
  unfold matchCondition
  split
  · exact (failsWhole_fault _).bind fun _ => failsWhole_ok _
  · exact (failsWhole_fault _).bind fun _ => failsWhole_ok _
  · refine (failsWhole_fault _).bind fun stored => (failsWhole_fault _).bind fun text => ?_
    split
    · split
      · exact failsWhole_ok _
      · exact (failsWhole_fault _).bind fun _ => failsWhole_ok _
    · split
      · exact failsWhole_ok _
      · exact (failsWhole_fault _).bind fun _ => failsWhole_ok _
    · exact (failsWhole_fault _).bind fun _ => failsWhole_ok _
    · exact (failsWhole_fault _).bind fun _ => failsWhole_ok _
    · split
      · exact failsWhole_ok _
      · exact (failsWhole_refusal _).bind fun _ => (failsWhole_fault _).bind fun _ =>
          failsWhole_ok _
    · refine (failsWhole_fault _).bind fun left => (failsWhole_fault _).bind fun right => ?_
      split
      · exact failsWhole_ok _
      · exact failsWhole_ok _

theorem failsWhole_foreignFilter (v : Value) : FailsWhole (foreignFilter v) := by
  unfold foreignFilter
  split
  · exact failsWhole_ok _
  · exact failsWhole_error (Failure.whole_fault _)

mutual

theorem failsWhole_matchFilter (doc : Value) : ∀ f, FailsWhole (matchFilter doc f)
  | .entries parts => by
    rw [matchFilter]
    exact failsWhole_matchAll doc parts
  | .group .and children => by
    rw [matchFilter]
    exact failsWhole_matchAll doc children
  | .group .or children => by
    rw [matchFilter]
    exact failsWhole_matchAny doc children
  | .leaf c => by
    rw [matchFilter]
    exact failsWhole_matchCondition doc c
  | .refused r => by
    rw [matchFilter]
    exact failsWhole_error r.whole_failure
  | .foreign v => by
    rw [matchFilter]
    exact failsWhole_foreignFilter v

theorem failsWhole_matchAll (doc : Value) : ∀ fs, FailsWhole (matchAll doc fs)
  | [] => by
    rw [matchAll]
    exact failsWhole_ok _
  | f :: fs => by
    rw [matchAll]
    refine (failsWhole_matchFilter doc f).bind fun b => ?_
    split
    · exact failsWhole_matchAll doc fs
    · exact failsWhole_ok _

theorem failsWhole_matchAny (doc : Value) : ∀ fs, FailsWhole (matchAny doc fs)
  | [] => by
    rw [matchAny]
    exact failsWhole_ok _
  | f :: fs => by
    rw [matchAny]
    refine (failsWhole_matchFilter doc f).bind fun b => ?_
    split
    · exact failsWhole_ok _
    · exact failsWhole_matchAny doc fs

end

theorem failsWhole_matchOf (q : QueryRequest) (m : Metric) (filter : Option Filter) (r : Record) :
    FailsWhole (matchOf q m filter r) := by
  have hscore (meets : Bool) : FailsWhole (if meets then do
      let s ← (score m q.vector r.vector).mapError .fault
      return some ⟨r.id, s, r.metadata, if q.includeVector then some r.vector else none⟩
    else return none : Except Failure (Option Match)) := by
    split
    · exact (failsWhole_fault _).bind fun _ => failsWhole_ok _
    · exact failsWhole_ok _
  unfold matchOf
  cases filter with
  | none => exact hscore true
  | some f => exact (failsWhole_matchFilter _ f).bind hscore

theorem failsWhole_filterMapM {α β : Type} {f : α → Except Failure (Option β)}
    (h : ∀ a, FailsWhole (f a)) (xs : List α) : FailsWhole (xs.filterMapM f) := by
  induction xs with
  | nil => exact failsWhole_ok _
  | cons x xs ih =>
    rw [List.filterMapM_cons]
    refine (h x).bind fun y => ?_
    cases y with
    | none => exact ih
    | some y => exact ih.bind fun _ => failsWhole_ok _

/-- Where everything can be copied matches are what they were. -/
theorem mapM_copied (found : List Match) : found.mapM (copied .ok) = .ok found := by
  induction found with
  | nil => rfl
  | cons m found ih =>
    rw [List.mapM_cons, ih]
    rfl

theorem failsWhole_search (state : State) (q : QueryRequest) : FailsWhole (search .ok state q) := by
  refine (failsWhole_find state q.name).bind fun i => ?_
  dsimp only
  split_ifs
  · exact failsWhole_error (Failure.whole_showing nofun)
  · refine (failsWhole_filterMapM (fun _ => failsWhole_matchOf _ _ _ _) _).bind fun found => ?_
    rw [mapM_copied]
    exact failsWhole_ok _

/-! ## Tasks of the backend -/

theorem atOnce_change {f : State → Except Failure State} (state : State) :
    AtOnce (change f) state ((f state).map fun _ => ()) ((f state).toOption.getD state) := by
  show Task.advance (.read _) _ = _
  rw [Task.advance]
  rcases f state with e | state' <;> rfl

theorem atOnce_answer {α : Type} (f : State → Except Failure α) (state : State) :
    AtOnce (answer f) state (f state) state := rfl

theorem ends_change {f : State → Except Failure State} (hf : FailsWhole (f s.backend)) :
    Store.Ends (Store.byDeadline ctx (change f)) s fun _ b => f s.backend = .ok b := by
  refine Store.ends_byDeadline (atOnce_change s.backend) (hf.map _) (fun e he => ?_) fun _ ha => ?_
  · rcases h : f s.backend with e' | state' <;> rw [h] at he
    · rfl
    · cases he
  · rcases h : f s.backend with e' | state' <;> rw [h] at ha
    · cases ha
    · rfl

theorem ends_answer {α : Type} {f : State → Except Failure α} (hf : FailsWhole (f s.backend)) :
    Store.Ends (Store.byDeadline ctx (answer f)) s fun a b => f s.backend = .ok a ∧ b = s.backend :=
  Store.ends_byDeadline (atOnce_answer f s.backend) hf (fun _ _ => rfl) fun _ ha => ⟨ha, rfl⟩

/-! ## Operations -/

variable {γ : Type} {R : γ → State → Prop} {nameArg dimension metric : Value}

theorem ends_capabilities {k : Capabilities → Task (Session State) Failure γ}
    (hk : ∀ s' : Session State, s'.backend = s.backend →
      Store.Ends (k (capabilities server)) s' R) :
    Store.Ends ((store server config).capabilities >>= k) s R :=
  Store.ends_capabilities (store server config) rfl hk

theorem ends_createIndex :
    Store.Ends ((store server config).createIndex nameArg dimension metric ctx) s fun _ b =>
      ∃ (n : String) (d : Nat) (m : Metric), nameArg = .text n ∧ Text.allBlank n = false ∧
        dimension = .int d ∧ 0 < d ∧ metric = .text m.name ∧ create s.backend n d m = .ok b := by
  refine Store.ends_ofExcept (Store.failsWhole_requireText _ _) fun n hn => ?_
  refine Store.ends_ofExcept (Store.failsWhole_requirePositive _ _) fun d hd => ?_
  refine Store.ends_ofExcept (Store.failsWhole_metric _) fun m hm => ?_
  refine Store.ends_failIfExpired (Store.Ends.measured ?_)
  refine ends_capabilities fun s₁ hs₁ => ?_
  refine Store.ends_ofExcept (Store.failsWhole_checkIndex _ _ _) fun _ _ => ?_
  refine (ends_change (failsWhole_create _ _ _ _)).then fun _ s₂ hcreate => ?_
  obtain ⟨hname, hblank⟩ := Store.requireText_ok hn
  obtain ⟨hdim, hpos⟩ := Store.requirePositive_ok hd
  rw [hs₁] at hcreate
  refine ⟨(), _, rfl, n, d, m, hname, hblank, hdim, hpos, Store.metric_ok hm, ?_⟩
  rw [hcreate, Session.backend_of_cleared (Session.cleared_observe ..)]

theorem ends_deleteIndex :
    Store.Ends ((store server config).deleteIndex nameArg ctx) s fun _ b =>
      ∃ n, nameArg = .text n ∧ delete s.backend n = .ok b := by
  refine Store.ends_ofExcept (Store.failsWhole_requireText _ _) fun n hn => ?_
  refine Store.ends_failIfExpired (Store.Ends.measured ?_)
  refine (ends_change (failsWhole_delete _ _)).then fun _ s₁ hdelete => ?_
  refine ⟨(), _, rfl, n, (Store.requireText_ok hn).1, ?_⟩
  rw [hdelete, Session.backend_of_cleared (Session.cleared_observe ..)]

theorem ends_describeIndex :
    Store.Ends ((store server config).describeIndex nameArg ctx) s fun _ b => b = s.backend := by
  refine Store.ends_ofExcept (Store.failsWhole_requireText _ _) fun n hn => ?_
  refine Store.ends_failIfExpired (Store.Ends.measured ?_)
  refine (ends_answer (failsWhole_describe _ _)).afterReading fun d s₁ _ hs₁ => ?_
  exact Store.ends_succeed fun s₂ hs₂ => Store.ends_ret (hs₂.trans hs₁)

theorem ends_listIndexes :
    Store.Ends ((store server config).listIndexes ctx) s fun _ b => b = s.backend := by
  refine Store.ends_failIfExpired (Store.Ends.measured ?_)
  refine (ends_answer (f := fun state => .ok (state.map (·.1)))
    (failsWhole_ok _)).afterReading fun names s₁ _ hs₁ => ?_
  exact Store.ends_succeed fun s₂ hs₂ => Store.ends_ret (hs₂.trans hs₁)

theorem checkFilter_store (name : String) (filter : Option Fields) :
    (store server config).checkFilter (capabilities server) name filter = .ret () := by
  unfold Store.checkFilter
  rw [capabilities, Bool.or_true]
  rfl

theorem ends_query {vector topK filter includeVector : Value} :
    Store.Ends ((store server config).query nameArg vector topK filter includeVector ctx) s
      fun _ b => b = s.backend := by
  refine Store.ends_ofExcept (Store.failsWhole_requireText _ _) fun n hn => ?_
  refine Store.ends_ofExcept (Record.failsWhole_vectorOf _ _) fun xs _ => ?_
  refine Store.ends_ofExcept (Store.failsWhole_requirePositive _ _) fun k _ => ?_
  refine Store.ends_ofExcept (Store.failsWhole_requireFilter _) fun filter _ => ?_
  refine Store.ends_ofExcept (Store.failsWhole_requireBool _ _) fun includeVector _ => ?_
  refine Store.ends_failIfExpired (Store.Ends.measured ?_)
  refine ends_capabilities fun s₁ hs₁ => ?_
  refine Store.ends_ofExcept (Store.failsWhole_checkTopK _ _ _) fun _ _ => ?_
  rw [checkFilter_store]
  refine .after rfl rfl ?_
  refine (ends_answer (failsWhole_search _ _)).afterReading fun found s₂ _ hs₂ => ?_
  refine Store.ends_succeed fun s₃ hs₃ => Store.ends_count fun s₄ hs₄ => ?_
  exact Store.ends_ret (hs₄.trans (hs₃.trans (hs₂.trans hs₁)))

/-! ## Calls -/

/-- What a request does to the indexes, and how it ends. -/
inductive Effect (config : Config) (request : Request) (ctx : Option Context)
    (s : Session State) : Except Failure Answer → State → Prop
  /-- it fails as a whole -/
  | refused {f : Failure} : f.Whole → Effect config request ctx s (.error f) s.backend
  /-- it only asks -/
  | asked {a : Answer} : request.asks = true → Effect config request ctx s (.ok a) s.backend
  | created {n : String} {d : Nat} {m : Metric} :
      request = .createIndex (.text n) (.int d) (.text m.name) → Text.allBlank n = false → 0 < d →
      get? s.backend n = none →
      Effect config request ctx s (.ok .done) (put s.backend n ⟨d, m, []⟩)
  | deleted {n : String} : request = .deleteIndex (.text n) →
      Effect config request ctx s (.ok .done) (erase s.backend n)
  /-- all records are inserted; the sink may refuse to count them -/
  | inserted {name vectors metadata ids : Value} {n : String} {i : Index} {rs : List Record}
      {r : Except Failure Answer} : request.written? = some (name, vectors, metadata, ids) →
      Accepted config s name vectors metadata ids ctx n i rs → i.Fits rs →
      ((∃ a : Answer, a.ids? = some (rs.map Record.id) ∧ r = .ok a) ∨
        ∃ f, r = .error (.fault f) ∧ ∃ events event, s.sink events event = some f) →
      Effect config request ctx s r (put s.backend n (i.insert rs))
  /-- the records before a chunk are inserted -/
  | stopped {name vectors metadata ids : Value} {n : String} {i : Index} {rs : List Record}
      {bad : Chunk Record} {f : Failure} :
      request.written? = some (name, vectors, metadata, ids) →
      Accepted config s name vectors metadata ids ctx n i rs →
      bad ∈ chunks config.batchSize rs → 0 < bad.offset → i.Fits (rs.take bad.offset) →
      Effect config request ctx s
        (.error (failedAt bad f ((rs.take bad.offset).map Record.id)))
        (put s.backend n (i.insert (rs.take bad.offset)))

variable {request : Request}

theorem effect_of_refuses {t : Task (Session State) Failure Answer} (h : Store.Refuses t s) :
    Effect config request ctx s (t.run s).1 (t.run s).2.backend := by
  obtain ⟨f, s', hrun, hf, hb⟩ := h
  rw [hrun, hb]
  exact .refused hf

theorem effect_of_ends {t : Task (Session State) Failure Answer}
    (h : Store.Ends t s fun a b => Effect config request ctx s (.ok a) b) :
    Effect config request ctx s (t.run s).1 (t.run s).2.backend := by
  rcases h with h | ⟨a, s', hrun, he⟩
  · exact effect_of_refuses h
  · rw [hrun]
    exact he

/-- A request that writes. -/
theorem effect_write {name vectors metadata ids : Value}
    (hw : request.written? = some (name, vectors, metadata, ids)) (server : String)
    (config : Config) (ctx : Option Context) (s : Session State) :
    Effect config request ctx s (((store server config).perform ctx request).run s).1
      (((store server config).perform ctx request).run s).2.backend := by
  obtain ⟨operation, hperform⟩ := Store.perform_write (store server config) hw ctx
  by_cases hex : ∃ n i rs, Accepted config s name vectors metadata ids ctx n i rs
  · obtain ⟨n, i, rs, ha⟩ := hex
    by_cases hfits : i.Fits rs
    · obtain ⟨s', hb, h | ⟨f, h, hsink⟩⟩ := run_runUpsert_fit ha hfits server operation
      · obtain ⟨a, hids, hrun⟩ := (hperform s s').1 _ h rfl
        rw [hrun, hb]
        exact .inserted hw ha hfits (.inl ⟨a, hids, rfl⟩)
      · rw [(hperform s s').2 _ h, hb]
        exact .inserted hw ha hfits (.inr ⟨f, rfl, hsink⟩)
    · obtain ⟨bad, f, s', hmem, -, htake, hwhole, hb, h⟩ :=
        run_runUpsert_misfit ha hfits server operation
      rw [(hperform s s').2 _ h, hb]
      rcases Nat.eq_zero_or_pos bad.offset with hzero | hpos
      · -- nothing was written before the first chunk
        have hput : put s.backend n (i.insert []) = s.backend := put_of_get? ha.index
        rw [hzero, List.take_zero, hput]
        exact .refused hwhole
      · exact .stopped hw ha hmem hpos htake
  · have hnone : ∀ n i rs, ¬Accepted config s name vectors metadata ids ctx n i rs :=
      fun n i rs ha => hex ⟨n, i, rs, ha⟩
    obtain ⟨f, s', hrun, hf, hb⟩ := refuses_runUpsert hnone server operation
    rw [(hperform s s').2 f hrun, hb]
    exact .refused hf

/-- **What requests do**, each of them from whatever session. -/
theorem effect_perform (server : String) (config : Config) (request : Request)
    (ctx : Option Context) (s : Session State) :
    Effect config request ctx s (((store server config).perform ctx request).run s).1
      (((store server config).perform ctx request).run s).2.backend := by
  cases request with
  | capabilities =>
    have h : Store.Ends (store server config).capabilities s fun _ b => b = s.backend := by
      obtain ⟨s', hrun, hc⟩ : ∃ s', (store server config).capabilities.run s =
        (.ok (capabilities server), s') ∧ s'.cleared = s.cleared := Store.run_capabilities rfl
      exact .inr ⟨_, s', hrun, Session.backend_of_cleared hc⟩
    exact effect_of_ends (Store.Ends.map (h.mono fun _ b hb => hb ▸ .asked rfl))
  | createIndex name dimension metric =>
    refine effect_of_ends (Store.Ends.map (f := fun _ => Answer.done) ?_)
    refine ends_createIndex.mono fun _ b h => ?_
    obtain ⟨n, d, m, rfl, hblank, rfl, hd, rfl, hb⟩ := h
    unfold create at hb
    split at hb
    · cases hb
    · next hhas =>
      cases hb
      exact .created rfl hblank hd (Option.not_isSome_iff_eq_none.1 hhas)
  | upsert => exact effect_write rfl server config ctx s
  | upsertWithReport => exact effect_write rfl server config ctx s
  | query =>
    exact effect_of_ends (Store.Ends.map (ends_query.mono fun _ b hb => hb ▸ .asked rfl))
  | describeIndex =>
    exact effect_of_ends (Store.Ends.map (ends_describeIndex.mono fun _ b hb => hb ▸ .asked rfl))
  | listIndexes =>
    exact effect_of_ends (Store.Ends.map (ends_listIndexes.mono fun _ b hb => hb ▸ .asked rfl))
  | deleteIndex name =>
    refine effect_of_ends (Store.Ends.map (f := fun _ => Answer.done) ?_)
    refine ends_deleteIndex.mono fun _ b h => ?_
    obtain ⟨n, rfl, hb⟩ := h
    rw [delete] at hb
    rcases hfind : find s.backend n with f | i <;> rw [hfind] at hb <;> cases hb
    exact .deleted rfl

end VectorStore.Memory
