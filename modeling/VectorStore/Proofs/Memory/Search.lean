/-
  Queries of the store in memory.

  `query_topK`: a query answers with the best of the records that meet its filter, in one order:
  a higher score comes first, of equal scores the record that was written first
  (`Store.Precedes`).  Filtering, scoring and sorting are those of the backend (`search_eq`); that
  the store sorts and cuts once more makes no difference (`Store.topMatches_topMatches`).
-/
import VectorStore.Proofs.Memory.Inserts
import VectorStore.Proofs.Memory.Invariant
import VectorStore.Proofs.Store.Ranking
import VectorStore.Proofs.Store.Sinks

namespace VectorStore

/-- A record as a match of some score. -/
def Record.toMatch (includeVector : Bool) (score : Float) (r : Record) : Match :=
  ⟨r.id, score, r.metadata, if includeVector then some r.vector else none⟩

/-- Filtering by a test that may fail, where it does not. -/
theorem filterMapM_eq_ok {α β ε : Type} {f : α → Except ε (Option β)} {p : α → Bool} {g : α → β}
    {xs : List α} (h : ∀ x ∈ xs, f x = .ok (if p x then some (g x) else none)) :
    xs.filterMapM f = .ok ((xs.filter p).map g) := by
  induction xs with
  | nil => rfl
  | cons x xs ih =>
    rw [List.filterMapM_cons, h x (List.mem_cons_self ..),
      ih fun y hy => h y (List.mem_cons_of_mem x hy)]
    rcases hp : p x with _ | _
    · simp [hp, bind, Except.bind]
    · simp [hp, bind, Except.bind, pure, Except.pure]

namespace Memory

open Fields

variable {server n : String} {config : Config} {s : Session State} {state : State} {i : Index}
  {ctx : Option Context} {q : QueryRequest} {meets : Record → Bool} {scoreOf : Record → Float}

/-! ## Search -/

/-- Whether a record meets a filter, if there is one. -/
def evaluate (filter : Option Fields) (r : Record) : Except Failure Bool :=
  match filter with
  | none => .ok true
  | some fields => matchFilter (.object r.metadata) (.ofValue (.object fields))

/-- The records of an index that meet a test, in the order in which they were first written. -/
def Index.matching (i : Index) (meets : Record → Bool) : List Record :=
  (i.records.map Prod.snd).filter meets

/-- Evaluation and scoring go through on the records of an index. -/
structure Evaluates (i : Index) (q : QueryRequest) (meets : Record → Bool)
    (scoreOf : Record → Float) : Prop where
  evaluate_eq : ∀ e ∈ i.records, evaluate q.filter e.2 = .ok (meets e.2)
  score_eq : ∀ r ∈ i.matching meets, score i.metric q.vector r.vector = .ok (scoreOf r)
  number : ∀ r ∈ i.matching meets, (scoreOf r == scoreOf r) = true

theorem matchOf_eq {m : Metric} {r : Record} (hm : evaluate q.filter r = .ok (meets r))
    (hs : meets r = true → score m q.vector r.vector = .ok (scoreOf r)) :
    matchOf q m (q.filter.map fun fields => .ofValue (.object fields)) r =
      .ok (if meets r then some (r.toMatch q.includeVector (scoreOf r)) else none) := by
  have hmatch : matchOf q m (q.filter.map fun fields => .ofValue (.object fields)) r =
      (do
        if ← evaluate q.filter r then
          let s ← (score m q.vector r.vector).mapError .fault
          return some (r.toMatch q.includeVector s)
        else return none) := by
    unfold matchOf evaluate
    cases q.filter <;> rfl
  rw [hmatch, hm]
  rcases hmeets : meets r with _ | _
  · rfl
  · show ((score m q.vector r.vector).mapError Failure.fault >>= _) = _
    rw [hs hmeets]
    rfl

/-- **Search finds the best of the records that meet the filter.** -/
theorem search_eq (hi : get? state q.name = some i) (hlen : q.vector.length = i.dimension)
    (h : Evaluates i q meets scoreOf) :
    search .ok state q = .ok (Store.topMatches q.topK
      ((i.matching meets).map fun r => r.toMatch q.includeVector (scoreOf r))) := by
  have hfound : (i.records.filterMapM fun e =>
      matchOf q i.metric (q.filter.map fun fields => .ofValue (.object fields)) e.2) =
      .ok ((i.records.filter fun e => meets e.2).map fun e =>
        e.2.toMatch q.includeVector (scoreOf e.2)) :=
    filterMapM_eq_ok fun e he => matchOf_eq (h.evaluate_eq e he) fun hmeets =>
      h.score_eq e.2 (List.mem_filter.2 ⟨List.mem_map_of_mem he, hmeets⟩)
  have hmatching : (i.records.filter fun e => meets e.2).map (fun e =>
      e.2.toMatch q.includeVector (scoreOf e.2)) =
      (i.matching meets).map fun r => r.toMatch q.includeVector (scoreOf r) := by
    rw [Index.matching, List.filter_map, List.map_map]
    rfl
  rw [search, find_of_get? hi]
  show (if q.vector.length ≠ i.dimension then _ else _) = _
  rw [if_neg (not_not.2 hlen)]
  show ((i.records.filterMapM _) >>= _) = _
  rw [hfound, hmatching]
  exact mapM_copied _

/-- Records in descending order of their scores are matches in descending order. -/
theorem topMatches_map {rs : List Record} (h : ∀ r ∈ rs, (scoreOf r == scoreOf r) = true)
    (includeVector : Bool) (k : ℕ) :
    Store.topMatches k (rs.map fun r => r.toMatch includeVector (scoreOf r)) =
      ((Store.sortDescending (fun a b => decide (scoreOf b < scoreOf a)) rs).take k).map
        fun r => r.toMatch includeVector (scoreOf r) := by
  have hranked : (rs.map fun r => r.toMatch includeVector (scoreOf r)).all Store.isRanked := by
    rw [List.all_map]
    exact List.all_eq_true.2 h
  rw [Store.topMatches, Store.ranked_eq hranked, List.map_take]
  exact congrArg (List.take k) (List.map_mergeSort
    (f := fun r : Record => r.toMatch includeVector (scoreOf r)) fun _ _ _ _ => rfl).symm

/-! ## Queries -/

/-- What the backend answers in time is ranked once more. -/
theorem run_querying (hsink : ∀ events e, e.isCounter = true → s.sink events e = none)
    (ht : Store.InTime ctx s.now) (hmax : ∀ m ∈ config.maxTopK, q.topK ≤ m) {found : List Match}
    (hfound : search .ok s.backend q = .ok found) (server : String) (began : Time) :
    ∃ s', ((store server config).querying q ctx began).run s =
        (.ok (Store.topMatches q.topK found), s') ∧ s'.cleared = s.cleared := by
  have hlimit : Store.checkTopK (store server config).config (capabilities server) q.topK =
      .ok () := by
    show Store.checkTopK config _ _ = _
    rw [Store.checkTopK, Store.topKLimit, capabilities]
    rcases hm : config.maxTopK with _ | m
    · rfl
    · exact if_neg (by have := hmax m hm; omega)
  obtain ⟨s₁, hcaps, hc₁⟩ : ∃ s₁, (store server config).capabilities.run s =
    (.ok (capabilities server), s₁) ∧ s₁.cleared = s.cleared := Store.run_capabilities rfl
  have hsearch : (Store.byDeadline ctx ((store server config).backend.query q ctx)).run s₁ =
      (.ok found, s₁) :=
    run_answer (Session.now_of_cleared hc₁ ▸ ht) (Session.backend_of_cleared hc₁ ▸ hfound)
  obtain ⟨s₂, hanswered, hc₂⟩ := Store.run_answered (Session.sink_of_cleared hc₁ ▸ hsink)
    (store server config) q ctx began found
  refine ⟨s₂, ?_, hc₂.trans hc₁⟩
  rw [Store.querying, Task.run_bind_ok hcaps, hlimit, checkFilter_store]
  exact (Task.run_bind_ok hsearch _).trans hanswered

/-- **A query answers with the best records that meet its filter.**  After any calls, for an
    index, a vector of its dimension, a number of results within the limit and a filter that is
    evaluated on its records, whose scores are numbers: the records that meet the filter, in the
    order in which they were first written, stand in one order by their scores, from which the
    answer takes the first.  None that is left out has a higher score than one that is taken;
    no id comes twice, and each match has the metadata of its record and, if asked for, its
    vector. -/
theorem query_topK (server : String) (config : Config) (sink : Sink) (calls : List Call)
    (time : Time) (hs : s = ((store server config).serve calls (Session.start [] sink)).2)
    (hsink : ∀ events e, e.isCounter = true → sink events e = none)
    (hi : get? s.backend q.name = some i) {vector filter : Value}
    (hv : Record.vectorOf "vector" vector = .ok q.vector) (hlen : q.vector.length = i.dimension)
    (hk : 0 < q.topK) (hmax : ∀ m ∈ config.maxTopK, q.topK ≤ m)
    (hf : Store.requireFilter filter = .ok q.filter)
    (ht : Store.InTime ctx (Clocked.atTime time s : Session State).now)
    (he : Evaluates i q meets scoreOf) :
    let matching := i.matching meets
    ∃ (order : List (Record × ℕ)) (results : List Match) (s' : Session State),
      (store server config).answer ⟨.query (.text q.name) vector (.int q.topK) filter
        (.bool q.includeVector), ctx, time⟩ s = (.ok (.found results), s') ∧
      s'.backend = s.backend ∧
      order.Perm matching.zipIdx ∧ order.Pairwise (Store.Precedes scoreOf) ∧
      results = (order.take q.topK).map (fun e => e.1.toMatch q.includeVector (scoreOf e.1)) ∧
      results.length = min q.topK matching.length ∧
      (∀ a ∈ order.take q.topK, ∀ b ∈ order.drop q.topK, ¬scoreOf a.1 < scoreOf b.1) ∧
      (results.map Match.id).Nodup ∧
      ∀ m ∈ results, ∃ r, get? i.records m.id = some r ∧ meets r = true ∧
        m = r.toMatch q.includeVector (scoreOf r) := by
  intro matching
  have hsound : Sound _ s.backend :=
    hs ▸ sound_serve server config calls (s := Session.start [] sink) sound_nil
  have hsink' : s.sink = sink := hs ▸ Store.sink_serve _ calls (Session.start [] sink)
  have hindex := hsound.index q.name i (mem_of_get? hi)
  have hmem : ∀ r ∈ matching, get? i.records r.id = some r ∧ meets r = true := fun r hr => by
    obtain ⟨hr, hmeets⟩ := List.mem_filter.1 hr
    obtain ⟨⟨id, _⟩, he, rfl⟩ := List.mem_map.1 hr
    rw [(hindex.placed id _ he).1]
    exact ⟨get?_of_mem hindex.distinct he, hmeets⟩
  have hids : (matching.map Record.id).Nodup := by
    have hkeys : (i.records.map Prod.snd).map Record.id = keys i.records := by
      rw [List.map_map]
      exact List.map_congr_left fun e he => (hindex.placed e.1 e.2 he).1
    exact (hkeys ▸ hindex.distinct).sublist (List.filter_sublist.map _)
  -- the answer
  obtain ⟨order, hperm, hpairwise, hsort⟩ := Store.sortDescending_positions he.number
  let toMatch (e : Record × ℕ) : Match := e.1.toMatch q.includeVector (scoreOf e.1)
  obtain ⟨s', hrun, hc⟩ := run_querying (s := Clocked.atTime time s)
    (hsink' ▸ hsink) ht hmax
    (search_eq hi hlen he) server time
  have htop : Store.topMatches q.topK (Store.topMatches q.topK
      (matching.map fun r => r.toMatch q.includeVector (scoreOf r))) =
      (order.take q.topK).map toMatch := by
    rw [Store.topMatches_topMatches, topMatches_map he.number, hsort, ← List.map_take,
      List.map_map]
    · rfl
    · rw [List.all_map]
      exact List.all_eq_true.2 he.number
  have hblank := hsound.named q.name (List.mem_map_of_mem (mem_of_get? hi))
  have hquery := Store.run_query_ok (Store.requestOf_ok hblank hv hk hf) ht (htop ▸ hrun)
  have htaken : ∀ e ∈ order.take q.topK, e.1 ∈ matching := fun e he =>
    List.fst_mem_of_mem_zipIdx (hperm.mem_iff.1 (List.mem_of_mem_take he))
  refine ⟨order, _, s', Task.run_bind_ok hquery _,
    Session.backend_of_cleared (s := Clocked.atTime time s) hc, hperm, hpairwise,
    rfl, ?_, fun a ha b hb => ?_, ?_, fun m hm => ?_⟩
  · rw [List.length_map, List.length_take, hperm.length_eq, List.length_zipIdx]
  · have hsplit :=
      (List.pairwise_append.1 ((List.take_append_drop q.topK order).symm ▸ hpairwise)).2.2
    exact (hsplit a ha b hb).1
  · have hsub : (order.map fun e => e.1.id).Nodup := by
      have hfst : (order.map Prod.fst).Perm matching := by
        rw [← List.zipIdx_map_fst 0 matching]
        exact hperm.map _
      have := (hfst.map Record.id).nodup_iff.2 hids
      rwa [List.map_map] at this
    rw [List.map_map]
    exact hsub.sublist ((List.take_sublist _ _).map _)
  · obtain ⟨e, he, rfl⟩ := List.mem_map.1 hm
    obtain ⟨hget, hmeets⟩ := hmem e.1 (htaken e he)
    exact ⟨e.1, hget, hmeets, rfl⟩

/-- Of five records one has another color, and three of the others score the same. -/
def shoes : List Record :=
  [⟨"a", [0.5], [("color", .text "red")]⟩, ⟨"b", [2.0], [("color", .text "red")]⟩,
    ⟨"c", [3.0], [("color", .text "blue")]⟩, ⟨"d", [2.0], [("color", .text "red")]⟩,
    ⟨"e", [2.0], [("color", .text "red")]⟩]

/-- An index is made, and the records are written into it. -/
def shoesWritten : List Call :=
  [⟨.createIndex (.text "shoes") (.int 1) (.text "dotproduct"), none, 0⟩,
    ⟨.upsert (.text "shoes") (.list (shoes.map fun r => .ofVector r.vector))
      (.list (shoes.map fun r => .object r.metadata)) (.list (shoes.map fun r => .text r.id)),
      none, 0⟩]

theorem get?_shoes : get? ((store "memory" Config.default).serve shoesWritten
    (Session.start [] Session.takesAll)).2.backend "shoes" =
      some ⟨1, .dotproduct, shoes.map fun r => (r.id, r)⟩ := by
  obtain ⟨s₁, hs₁⟩ : ∃ s₁, s₁ = ((store "memory" Config.default).answer
      ⟨.createIndex (.text "shoes") (.int 1) (.text "dotproduct"), none, 0⟩
      (Session.start [] Session.takesAll)).2 := ⟨_, rfl⟩
  have hb : s₁.backend = [("shoes", ⟨1, .dotproduct, []⟩)] := by rw [hs₁]; rfl
  have hsink : s₁.sink = Session.takesAll := by rw [hs₁]; rfl
  have haccepted : Accepted Config.default (Clocked.atTime 0 s₁) (.text "shoes")
      (.list (shoes.map fun r => .ofVector r.vector))
      (.list (shoes.map fun r => .object r.metadata)) (.list (shoes.map fun r => .text r.id)) none
      "shoes" ⟨1, .dotproduct, []⟩ shoes :=
    ⟨rfl, rfl, Store.inTime_none _, congrArg (get? · "shoes") hb, by decide, by decide⟩
  have hfits : Index.Fits ⟨1, .dotproduct, []⟩ shoes := fun r hr => by
    revert r
    simp only [shoes, List.forall_mem_cons]
    exact ⟨rfl, rfl, rfl, rfl, rfl, nofun⟩
  have htakes : ∀ events e, (Clocked.atTime 0 s₁ : Session State).sink events e = none :=
    fun events e => congrFun (congrFun hsink events) e
  obtain ⟨⟨s₂, hrun, hs₂⟩, -⟩ := run_upsert_fit htakes haccepted hfits "memory"
  have hserve : ((store "memory" Config.default).serve shoesWritten
      (Session.start [] Session.takesAll)).2 = s₂ := by
    subst hs₁
    exact congrArg Prod.snd (Task.run_bind_ok hrun _)
  rw [hserve, hs₂]
  show get? (put s₁.backend "shoes" _) "shoes" = _
  rw [hb]
  rfl

/-- The best two of the red records are the first two of those that score the same. -/
theorem query_topK_shoes :
    let st := store "memory" Config.default
    let s := (st.serve shoesWritten (Session.start [] Session.takesAll)).2
    ∃ s', st.answer ⟨.query (.text "shoes") (.list [.float 1.5]) (.int 2)
        (.object [("color", .text "red")]) (.bool true), none, 0⟩ s =
      (.ok (.found [⟨"b", 3.0, [("color", .text "red")], some [2.0]⟩,
        ⟨"d", 3.0, [("color", .text "red")], some [2.0]⟩]), s') := by
  have hi := get?_shoes
  dsimp only
  generalize hs : ((store "memory" Config.default).serve shoesWritten
    (Session.start [] Session.takesAll)).2 = s at hi ⊢
  let q : QueryRequest := ⟨"shoes", [1.5], 2, some [("color", .text "red")], true⟩
  have hv : Record.vectorOf "vector" (.list [.float 1.5]) = .ok q.vector := rfl
  have hf : Store.requireFilter (.object [("color", .text "red")]) = .ok q.filter := rfl
  have he : Evaluates ⟨1, .dotproduct, shoes.map fun r => (r.id, r)⟩ q (fun r => r.id != "c")
      fun r => dot [1.5] r.vector := by
    refine ⟨?_, ?_, ?_⟩
    · simp only [shoes, List.map, List.forall_mem_cons]
      exact ⟨rfl, rfl, rfl, rfl, rfl, nofun⟩
    · intro r hr
      show score .dotproduct [1.5] r.vector = _
      rw [score]
    · decide +kernel
  obtain ⟨order, results, s', hrun, -, hperm, hpairwise, rfl, -⟩ := query_topK "memory"
    Config.default Session.takesAll shoesWritten 0 hs.symm (fun _ _ _ => rfl)
    hi hv rfl (by decide) (by decide) hf (Store.inTime_none _) he
  have hreds : (Index.matching ⟨1, .dotproduct, shoes.map fun r => (r.id, r)⟩
      fun r => r.id != "c").zipIdx = [(⟨"a", [0.5], [("color", .text "red")]⟩, 0)] ++
        [(⟨"b", [2.0], [("color", .text "red")]⟩, 1), (⟨"d", [2.0], [("color", .text "red")]⟩, 2),
          (⟨"e", [2.0], [("color", .text "red")]⟩, 3)] := rfl
  rw [hreds] at hperm
  have horder := Store.eq_of_precedes (hperm.trans List.perm_append_comm) hpairwise
    (by decide +kernel)
  have hscore : dot [1.5] [2.0] = 3.0 := by decide +kernel
  have hresults : (order.take 2).map (fun e => e.1.toMatch true (dot [1.5] e.1.vector)) =
      [⟨"b", 3.0, [("color", .text "red")], some [2.0]⟩,
        ⟨"d", 3.0, [("color", .text "red")], some [2.0]⟩] := by
    rw [horder, ← hscore]
    rfl
  exact ⟨s', hresults ▸ hrun⟩

end Memory

end VectorStore
