/-
  What holds of the store in memory after any calls.

  `standing` reads from a log which indexes were made and not dropped since, with the dimension
  and the metric that were asked for.

  * `Sound`: the indexes are those that stand, and their records sit under their own ids and
    have the dimension of their index;
  * `Sound.effect`: a request keeps this, `sound_serve`: so do all calls, and `Sound.write`: so
    does a chunk that is written in part;
  * `serve_invariant`: so what is described and listed is what stands, a new index is empty, and
    a request about one index leaves the others as they are.
-/
import Mathlib.Data.Finset.Card
import VectorStore.Proofs.Memory.Calls

namespace VectorStore.Memory

open Batch Fields

/-! ## Indexes that stand -/

/-- The name, the dimension and the metric of an index. -/
abbrev Shape := String × Int × String

/-- The indexes that stand when a call has been answered. -/
def standingAfter (standing : List Shape) : Call × Except Failure Answer → List Shape
  | (⟨.createIndex (.text n) (.int d) (.text m), _, _⟩, .ok _) => standing ++ [(n, d, m)]
  | (⟨.deleteIndex (.text n), _, _⟩, .ok _) => standing.filter (·.1 ≠ n)
  | _ => standing

/-- The indexes that were made and not dropped since, in the order in which they were made. -/
def standing (log : Log) : List Shape := log.foldl standingAfter []

/-- The shape of an index in the state. -/
def shapeOf (e : String × Index) : Shape := (e.1, e.2.dimension, e.2.metric.name)

theorem standingAfter_error (known : List Shape) (c : Call) (f : Failure) :
    standingAfter known (c, .error f) = known := by
  unfold standingAfter
  split <;> simp_all

theorem standingAfter_asked {c : Call} (h : c.request.asks = true) (known : List Shape)
    (r : Except Failure Answer) : standingAfter known (c, r) = known := by
  obtain ⟨request, ctx, time⟩ := c
  cases request <;> first | rfl | cases h

theorem standingAfter_written {c : Call} {args : Value × Value × Value × Value}
    (h : c.request.written? = some args) (known : List Shape) (r : Except Failure Answer) :
    standingAfter known (c, r) = known := by
  obtain ⟨request, ctx, time⟩ := c
  cases request <;> first | rfl | cases h

/-! ## The invariant -/

/-- The records of an index sit under their own ids, one for each, and have its dimension. -/
structure Index.Sound (i : Index) : Prop where
  positive : 0 < i.dimension
  distinct : (keys i.records).Nodup
  placed : ∀ id r, (id, r) ∈ i.records → r.id = id ∧ r.vector.length = i.dimension

/-- The indexes are those that stand. -/
structure Sound (known : List Shape) (state : State) : Prop where
  shapes : state.map shapeOf = known
  distinct : (keys state).Nodup
  named : ∀ n ∈ keys state, Text.allBlank n = false
  index : ∀ n i, (n, i) ∈ state → i.Sound

variable {known : List Shape} {state : State} {n : String} {i : Index} {rs : List Record}

theorem sound_nil : Sound [] [] := ⟨rfl, List.nodup_nil, nofun, nofun⟩

theorem Index.Sound.insert (h : i.Sound) (hfits : i.Fits rs) : (i.insert rs).Sound where
  positive := h.positive
  distinct := nodup_keys_insertAll h.distinct rs
  placed id r hr := by
    rcases mem_insertAll hr with hr | ⟨hr, hid⟩
    · exact h.placed id r hr
    · exact ⟨hid.symm, hfits r hr⟩

/-- A new index. -/
theorem Sound.created (h : Sound known state) (hn : get? state n = none)
    (hblank : Text.allBlank n = false) {d : Nat} (hd : 0 < d) (m : Metric) :
    Sound (known ++ [(n, (d : Int), m.name)]) (put state n ⟨d, m, []⟩) := by
  rw [put_of_get?_eq_none hn]
  have hkeys : keys (state ++ [(n, (⟨d, m, []⟩ : Index))]) = keys state ++ [n] := by
    simp [keys]
  refine ⟨?_, ?_, ?_, ?_⟩
  · rw [List.map_append, h.shapes]
    rfl
  · rw [hkeys, List.nodup_append']
    exact ⟨h.distinct, List.nodup_singleton n, by simpa using get?_eq_none_iff.1 hn⟩
  · intro n' hn'
    rw [hkeys] at hn'
    rcases List.mem_append.1 hn' with hn' | hn'
    · exact h.named n' hn'
    · exact List.mem_singleton.1 hn' ▸ hblank
  · intro n' i hi
    rcases List.mem_append.1 hi with hi | hi
    · exact h.index n' i hi
    · cases List.mem_singleton.1 hi
      exact ⟨hd, List.nodup_nil, by simp⟩

/-- An index is dropped. -/
theorem Sound.deleted (h : Sound known state) (n : String) :
    Sound (known.filter (·.1 ≠ n)) (erase state n) := by
  refine ⟨?_, ?_, ?_, ?_⟩
  · rw [← h.shapes, erase, List.filter_map]
    rfl
  · rw [keys_erase]
    exact h.distinct.filter _
  · intro n' hn'
    rw [keys_erase] at hn'
    exact h.named n' (List.mem_filter.1 hn').1
  · exact fun n' i hi => h.index n' i (List.mem_filter.1 hi).1

/-- Records are inserted into an index. -/
theorem Sound.inserted (h : Sound known state) (hi : get? state n = some i) (hfits : i.Fits rs) :
    Sound known (put state n (i.insert rs)) := by
  have hkeys : keys (put state n (i.insert rs)) = keys state := by
    rw [keys_put, if_pos]
    by_contra hn
    rw [get?_eq_none_iff.2 hn] at hi
    cases hi
  have hshapes : (put state n (i.insert rs)).map shapeOf = state.map shapeOf := map_put hi rfl
  refine ⟨hshapes.trans h.shapes, hkeys ▸ h.distinct, hkeys ▸ h.named, fun n' i' hi' => ?_⟩
  rcases mem_put hi' with he | hi'
  · cases he
    exact (h.index n i (mem_of_get? hi)).insert hfits
  · exact h.index n' i' hi'

/-- **A chunk that is written in part keeps the indexes sound too**: whatever can be copied, so
    does each chunk that is not refused as a whole. -/
theorem Sound.write {copy : Fields → Except Fault Fields} {c : Chunk Record} {state' : State}
    {written : Except Fault Unit} (h : Sound known state)
    (hw : Memory.write copy state n c = .ok (state', written)) : Sound known state' := by
  obtain ⟨i, hi, hfits, hput, -⟩ := write_eq_ok hw
  obtain ⟨rs, hrs, hof⟩ := exists_insertCopies copy i.records c.records
  rw [hrs] at hput
  refine hput ▸ h.inserted hi fun r hr => ?_
  obtain ⟨r', hr', -, hvector⟩ := hof r hr
  rw [hvector, hfits r' hr']

variable {server : String} {config : Config} {s : Session State} {r : Except Failure Answer}
  {b : State}

/-- **A request keeps the indexes sound.** -/
theorem Sound.effect {c : Call} (h : Sound known s.backend)
    (he : Effect config c.request c.ctx s r b) : Sound (standingAfter known (c, r)) b := by
  cases he with
  | refused => rwa [standingAfter_error]
  | asked hasks => rwa [standingAfter_asked hasks]
  | @created n d m hrequest hblank hd hn =>
    obtain ⟨request, ctx, time⟩ := c
    cases hrequest
    exact h.created hn hblank hd m
  | @deleted n hrequest =>
    obtain ⟨request, ctx, time⟩ := c
    cases hrequest
    exact h.deleted n
  | inserted hw ha hfits =>
    rw [standingAfter_written hw]
    exact h.inserted ha.index hfits
  | stopped hw ha _ _ hfits =>
    rw [standingAfter_written hw]
    exact h.inserted ha.index hfits

/-- **So do all calls**, whatever is asked and answered. -/
theorem sound_serve (server : String) (config : Config) (calls : List Call)
    (h : Sound known s.backend) :
    Sound (((store server config).serve calls s).1.foldl standingAfter known)
      ((store server config).serve calls s).2.backend := by
  induction calls generalizing s known with
  | nil => exact h
  | cons c calls ih =>
    have hs : Sound known (Clocked.atTime c.time s : Session State).backend := h
    exact ih (hs.effect (effect_perform server config c.request c.ctx _))

/-! ## Answers -/

theorem Effect.frame {request : Request} {ctx : Option Context}
    (he : Effect config request ctx s r b) {other : String}
    (h : request.index? ≠ some (.text other)) : get? b other = get? s.backend other := by
  have hne {name vectors metadata ids : Value} {n : String} {i : Index} {rs : List Record}
      (hw : request.written? = some (name, vectors, metadata, ids))
      (ha : Accepted config s name vectors metadata ids ctx n i rs) : other ≠ n := by
    rintro rfl
    obtain ⟨rfl, -⟩ := Store.requireText_ok ha.name_eq
    cases request <;> cases hw <;> exact h rfl
  cases he with
  | refused => rfl
  | asked => rfl
  | @created n d m hrequest =>
    subst hrequest
    exact get?_put_of_ne _ _ fun he => h (he ▸ rfl)
  | @deleted n hrequest =>
    subst hrequest
    exact get?_erase_of_ne _ fun he => h (he ▸ rfl)
  | inserted hw ha => exact get?_put_of_ne _ _ (hne hw ha)
  | stopped hw ha => exact get?_put_of_ne _ _ (hne hw ha)

/-- A created index has no records. -/
theorem Effect.created_empty {name : String} {dimension metric : Value} {ctx : Option Context}
    {a : Answer} (he : Effect config (.createIndex (.text name) dimension metric) ctx s (.ok a) b) :
    ∃ i, get? b name = some i ∧ i.records = [] := by
  generalize hr : (.ok a : Except Failure Answer) = r at he
  cases he with
  | created hrequest =>
    cases hrequest
    exact ⟨_, get?_put_self .., rfl⟩
  | asked hasks => cases hasks
  | deleted hrequest => cases hrequest
  | inserted hw => cases hw
  | _ => cases hr

/-- What is read in time is what there is. -/
theorem run_answer {α : Type} {f : State → Except Failure α} {a : α} {ctx : Option Context}
    (ht : Store.InTime ctx s.now) (hf : f s.backend = .ok a) :
    (Store.byDeadline ctx (answer f)).run s = (.ok a, s) := by
  rw [Store.run_byDeadline ht (atOnce_answer f s.backend), hf]
  rfl

/-- What is answered where an index is described in time. -/
theorem run_describeIndex (server : String) (config : Config) {ctx : Option Context}
    (hn : Text.allBlank n = false) (hi : get? s.backend n = some i)
    (ht : Store.InTime ctx s.now) :
    ∃ s', ((store server config).describeIndex (.text n) ctx).run s =
      (.ok ⟨i.dimension, i.metric, i.records.length⟩, s') := by
  have hdescribe : describe s.backend n = .ok ⟨i.dimension, i.metric, i.records.length⟩ := by
    rw [describe, find_of_get? hi]
    rfl
  rw [Store.describeIndex, Store.requireText_text hn, Task.run_bind_ofExcept]
  dsimp only
  rw [Task.run_bind_ok (Store.run_failIfExpired ht)]
  exact ⟨_, Store.run_measured_ok (Task.run_bind_ok (run_answer ht hdescribe) _)⟩

/-- What is answered where the indexes are listed in time. -/
theorem run_listIndexes (server : String) (config : Config) {ctx : Option Context}
    (ht : Store.InTime ctx s.now) :
    ∃ s', ((store server config).listIndexes ctx).run s = (.ok (keys s.backend), s') := by
  rw [Store.listIndexes, Task.run_bind_ok (Store.run_failIfExpired ht)]
  have hlist : (Store.byDeadline ctx (answer fun state => .ok (state.map (·.1)))).run s =
      (.ok (keys s.backend), s) := run_answer ht rfl
  exact ⟨_, Store.run_measured_ok (Task.run_bind_ok hlist _)⟩

/-- A sound index has as many records as there are ids. -/
theorem Index.Sound.count (h : i.Sound) :
    (i.records.map fun e => e.2.id).toFinset.card = i.records.length := by
  have hids : (i.records.map fun e => e.2.id) = keys i.records :=
    List.map_congr_left fun e he => (h.placed e.1 e.2 he).1
  rw [hids, List.toFinset_card_of_nodup h.distinct, keys, List.length_map]

/-! ## All runs -/

/-- **What holds after any calls**, from no index on.  The indexes are those that were made and
    not dropped since, with the dimension and the metric that were asked for, each once, in the
    order in which they were made, and so they are listed; each record sits under its own id and
    has the dimension of its index, and as many records as there are ids are described.  An index
    that is made has no records, whatever there was before, and a request about one index, or
    about none, leaves the others as they are. -/
theorem serve_invariant (server : String) (config : Config) (sink : Sink) (calls : List Call) :
    let st := store server config
    let log := (st.serve calls (Session.start [] sink)).1
    let s := (st.serve calls (Session.start [] sink)).2
    s.backend.map (fun e => (e.1, (e.2.dimension : Int), e.2.metric.name)) = standing log ∧
      (keys s.backend).Nodup ∧
      (∀ n i, (n, i) ∈ s.backend → 0 < i.dimension ∧ (keys i.records).Nodup ∧
        (∀ id r, (id, r) ∈ i.records → r.id = id ∧ r.vector.length = i.dimension) ∧
        ∀ ctx time, Store.InTime ctx (Clocked.atTime time s : Session State).now →
          (st.answer ⟨.describeIndex (.text n), ctx, time⟩ s).1 =
            .ok (.shape ⟨i.dimension, i.metric,
              (i.records.map fun e => e.2.id).toFinset.card⟩)) ∧
      (∀ ctx time, Store.InTime ctx (Clocked.atTime time s : Session State).now →
        (st.answer ⟨.listIndexes, ctx, time⟩ s).1 =
          .ok (.names ((standing log).map (·.1)))) ∧
      (∀ n dimension metric ctx time a s',
        st.answer ⟨.createIndex (.text n) dimension metric, ctx, time⟩ s = (.ok a, s') →
          ∃ i, get? s'.backend n = some i ∧ i.records = []) ∧
      ∀ (c : Call) (n : String), c.request.index? ≠ some (.text n) →
        get? (st.answer c s).2.backend n = get? s.backend n := by
  intro st log s
  have hsound : Sound (standing log) s.backend :=
    sound_serve server config calls (s := Session.start [] sink) sound_nil
  have heffect (c : Call) : Effect config c.request c.ctx (Clocked.atTime c.time s)
      (st.answer c s).1 (st.answer c s).2.backend :=
    effect_perform server config c.request c.ctx _
  refine ⟨hsound.shapes, hsound.distinct, fun n i hi => ?_, fun ctx time ht => ?_, ?_, ?_⟩
  · have hindex := hsound.index n i hi
    refine ⟨hindex.positive, hindex.distinct, hindex.placed, fun ctx time ht => ?_⟩
    obtain ⟨s', hrun⟩ := run_describeIndex (s := Clocked.atTime time s) server config
      (hsound.named n (List.mem_map_of_mem hi)) (get?_of_mem hsound.distinct hi) ht
    rw [hindex.count]
    exact congrArg Prod.fst (Task.run_bind_ok hrun _)
  · obtain ⟨s', hrun⟩ := run_listIndexes server config ht
    have hnames : keys s.backend = (standing log).map (·.1) := by
      rw [← hsound.shapes, List.map_map]
      rfl
    rw [← hnames]
    exact congrArg Prod.fst (Task.run_bind_ok hrun _)
  · intro n dimension metric ctx time a s' h
    have he := heffect ⟨.createIndex (.text n) dimension metric, ctx, time⟩
    rw [h] at he
    exact he.created_empty
  · exact fun c n h => (heffect c).frame h

/-- Two indexes are made, and one of them is dropped and made again. -/
def madeAgain : List Call :=
  [⟨.createIndex (.text "a") (.int 2) (.text "cosine"), none, 0⟩,
    ⟨.createIndex (.text "b") (.int 3) (.text "euclidean"), none, 0⟩,
    ⟨.deleteIndex (.text "a"), none, 0⟩,
    ⟨.createIndex (.text "a") (.int 5) (.text "dotproduct"), none, 0⟩]

/-- The index that is made again stands behind the other one. -/
theorem serve_invariant_madeAgain :
    let s := ((store "memory" Config.default).serve madeAgain (Session.start [] Session.takesAll)).2
    s.backend.map (fun e => (e.1, (e.2.dimension : Int), e.2.metric.name)) =
        [("b", 3, "euclidean"), ("a", 5, "dotproduct")] ∧
      ((store "memory" Config.default).answer ⟨.listIndexes, none, 0⟩ s).1 =
        .ok (.names ["b", "a"]) := by
  have hstanding : standing
      ((store "memory" Config.default).serve madeAgain (Session.start [] Session.takesAll)).1 =
      [("b", 3, "euclidean"), ("a", 5, "dotproduct")] := by decide +kernel
  obtain ⟨hshapes, -, -, hlist, -⟩ :=
    serve_invariant "memory" Config.default Session.takesAll madeAgain
  have hnames := hlist none 0 (Store.inTime_none _)
  rw [hstanding] at hshapes hnames
  exact ⟨hshapes, hnames⟩

end VectorStore.Memory
