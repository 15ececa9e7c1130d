/-
  Tasks that keep something more in their state.

  A task on a larger state, of which `view` is the part that matters, may do just what another
  task does on that part, and note something besides.

  * `Like` is this relation between tasks that wait or have ended, `Shows` between tasks about
    to go on from a state;
  * `Shows.andThen`, `Shows.attempt`, `Shows.part`: it passes to compound tasks;
  * `Shows.run`, `run_sideBySide_shows`: results are the same, and so is what `view` sees of
    the states, for one task and for tasks side by side.
-/
import Mathlib.Data.List.Forall2
import VectorStore.Proofs.Task.Steps

namespace VectorStore.Task

variable {σ τ ρ ε α β : Type} {view : τ → σ}

/-- The task, which waits or has ended, does what the other one does as far as `view` sees. -/
inductive Like (view : τ → σ) : Task τ ε α → Task σ ε α → Prop
  | done (r) : Like view (.done r) (.done r)
  | wait {u u' abandon abandon' next next'} : u = u'.comap view →
      (∀ q, view (abandon q) = abandon' (view q)) →
      (∀ q, view (next.advance q).1 = (next'.advance (view q)).1) →
      (∀ q, Like view (next.advance q).2 (next'.advance (view q)).2) →
      Like view (.wait u abandon next) (.wait u' abandon' next')

/-- From the state `q` on the task does what the other one does as far as `view` sees. -/
structure Shows (view : τ → σ) (q : τ) (t : Task τ ε α) (t' : Task σ ε α) : Prop where
  state : view (t.advance q).1 = (t'.advance (view q)).1
  rest : Like view (t.advance q).2 (t'.advance (view q)).2

/-! ## Compound tasks -/

theorem Like.shows {t : Task τ ε α} {t' : Task σ ε α} (h : Like view t t') (q : τ) :
    Shows view q t t' := by
  cases h with
  | done r => exact ⟨rfl, .done r⟩
  | wait hu ha hs hn => exact ⟨rfl, .wait hu ha hs hn⟩

theorem Like.waiting {u : Until τ} {u' : Until σ} {abandon : τ → τ} {abandon' : σ → σ}
    {next : Task τ ε α} {next' : Task σ ε α} (hu : u = u'.comap view)
    (ha : ∀ q, view (abandon q) = abandon' (view q)) (hn : ∀ q, Shows view q next next') :
    Like view (.wait u abandon next) (.wait u' abandon' next') :=
  .wait hu ha (fun q => (hn q).state) fun q => (hn q).rest

theorem Shows.read {q : τ} {next : τ → Task τ ε α} {next' : σ → Task σ ε α}
    (h : Shows view q (next q) (next' (view q))) : Shows view q (.read next) (.read next') :=
  ⟨h.state, h.rest⟩

theorem Shows.write {q q' : τ} {next : Task τ ε α} {next' : Task σ ε α}
    (h : Shows view q' next next') : Shows view q (.write q' next) (.write (view q') next') :=
  ⟨h.state, h.rest⟩

theorem shows_ret (a : α) (q : τ) : Shows view q (.ret a : Task τ ε α) (.ret a) := ⟨rfl, .done _⟩

theorem shows_turn (q : τ) : Shows view q (.turn : Task τ ε Unit) .turn := by
  have h : Like view (.wait (.holds fun _ => true) id (.ret ()) : Task τ ε Unit)
      (.wait (.holds fun _ => true) id (.ret ())) := .waiting rfl (fun _ => rfl) (shows_ret ())
  exact h.shows q

/-- Showing what follows a turn is enough. -/
theorem Shows.of_turn {q : τ} {t : Task τ ε α} {t' : Task σ ε α} {f : α → Task τ ε β}
    {f' : α → Task σ ε β} (hs : view (t.advance q).1 = (t'.advance (view q)).1)
    (h : Shows view (t.advance q).1 ((t.advance q).2.andThen f)
      ((t'.advance (view q)).2.andThen f')) :
    Shows view q (t.andThen f) (t'.andThen f') := by
  obtain ⟨hst, hr⟩ := h
  rw [hs, ← advance_andThen, ← advance_andThen] at hst hr
  exact ⟨hst, hr⟩

theorem Like.andThen {t : Task τ ε α} {t' : Task σ ε α} {f : α → Task τ ε β}
    {f' : α → Task σ ε β} (h : Like view t t') (hf : ∀ a q, Shows view q (f a) (f' a)) (q : τ) :
    Shows view q (t.andThen f) (t'.andThen f') := by
  induction h generalizing q with
  | done r =>
    cases r with
    | error e => exact ⟨rfl, .done _⟩
    | ok a => exact hf a q
  | wait hu ha hs _ ih => exact (Like.waiting hu ha fun q => .of_turn (hs q) (ih q _)).shows q

/-- One task after another. -/
theorem Shows.andThen {q : τ} {t : Task τ ε α} {t' : Task σ ε α} {f : α → Task τ ε β}
    {f' : α → Task σ ε β} (h : Shows view q t t') (hf : ∀ a q, Shows view q (f a) (f' a)) :
    Shows view q (t.andThen f) (t'.andThen f') :=
  .of_turn h.state (h.rest.andThen hf _)

theorem shows_attempt {ε' : Type} {q : τ} {t : Task τ ε α} {t' : Task σ ε α}
    (hs : view (t.advance q).1 = (t'.advance (view q)).1)
    (hr : Like view ((t.advance q).2.attempt : Task τ ε' (Except ε α))
      (t'.advance (view q)).2.attempt) :
    Shows view q (t.attempt : Task τ ε' (Except ε α)) t'.attempt := by
  refine ⟨?_, ?_⟩
  · rw [advance_attempt, advance_attempt]
    exact hs
  · rw [advance_attempt, advance_attempt]
    exact hr

theorem Like.attempt {ε' : Type} {t : Task τ ε α} {t' : Task σ ε α} (h : Like view t t') :
    Like view (t.attempt : Task τ ε' (Except ε α)) t'.attempt := by
  induction h with
  | done r => exact .done _
  | wait hu ha hs _ ih => exact .waiting hu ha fun q => shows_attempt (hs q) (ih q)

/-- A task with its failure as a value. -/
theorem Shows.attempt {ε' : Type} {q : τ} {t : Task τ ε α} {t' : Task σ ε α}
    (h : Shows view q t t') : Shows view q (t.attempt : Task τ ε' (Except ε α)) t'.attempt :=
  shows_attempt h.state h.rest.attempt

/-! ## Parts of a state -/

/-- A part of a state that can be looked at and changed without the rest. -/
structure Part (get : τ → ρ) (put : ρ → τ → τ) : Prop where
  put_get : ∀ q, put (get q) q = q
  get_put : ∀ r q, get (put r q) = r
  put_put : ∀ r r' q, put r (put r' q) = put r q

theorem part_fst : Part (Prod.fst : σ × τ → σ) (fun s p => (s, p.2)) :=
  ⟨fun _ => rfl, fun _ _ => rfl, fun _ _ _ => rfl⟩

/-- A turn on a part of a state. -/
theorem advance_zoom {get : τ → ρ} {put : ρ → τ → τ} (h : Part get put) (t : Task ρ ε α) (q : τ) :
    (t.zoom get put).advance q =
      (put (t.advance (get q)).1 q, (t.advance (get q)).2.zoom get put) := by
  induction t generalizing q with
  | done r => simp [zoom, advance, h.put_get]
  | read next ih => exact ih (get q) q
  | write r next ih =>
    have hr := ih (put r q)
    rw [h.get_put, h.put_put] at hr
    exact hr
  | wait u abandon next => simp [zoom, advance, h.put_get]

section

variable {ρ' : Type} {inner : ρ → ρ'} {get : τ → ρ} {put : ρ → τ → τ} {get' : σ → ρ'}
  {put' : ρ' → σ → σ} {t : Task ρ ε α} {t' : Task ρ' ε α}

theorem shows_part (h : Part get put) (h' : Part get' put')
    (hget : ∀ q, get' (view q) = inner (get q))
    (hput : ∀ r q, view (put r q) = put' (inner r) (view q)) {q : τ}
    (hs : inner (t.advance (get q)).1 = (t'.advance (inner (get q))).1)
    (hr : Like view ((t.advance (get q)).2.zoom get put)
      ((t'.advance (inner (get q))).2.zoom get' put')) :
    Shows view q (t.zoom get put) (t'.zoom get' put') := by
  constructor
  · rw [advance_zoom h, advance_zoom h', hget, hput, hs]
  · rw [advance_zoom h, advance_zoom h', hget]
    exact hr

theorem Like.part (h : Part get put) (h' : Part get' put')
    (hget : ∀ q, get' (view q) = inner (get q))
    (hput : ∀ r q, view (put r q) = put' (inner r) (view q)) (ht : Like inner t t') :
    Like view (t.zoom get put) (t'.zoom get' put') := by
  induction ht with
  | done r => exact .done r
  | @wait u u' _ _ _ _ hu ha hs _ ih =>
    refine .waiting ?_ (fun q => ?_) fun q => shows_part h h' hget hput (hs _) (ih _)
    · rw [hu]
      cases u' <;> simp [Until.comap, hget]
    · rw [hput, ha, hget]

/-- A task that shows itself on a part of the state shows itself on the whole. -/
theorem Shows.part (h : Part get put) (h' : Part get' put')
    (hget : ∀ q, get' (view q) = inner (get q))
    (hput : ∀ r q, view (put r q) = put' (inner r) (view q)) {q : τ}
    (ht : Shows inner (get q) t t') : Shows view q (t.zoom get put) (t'.zoom get' put') :=
  shows_part h h' hget hput ht.state (ht.rest.part h h' hget hput)

end

/-- A task on the first of two states. -/
theorem Shows.onFirst {q : τ} {t : Task τ ε α} {t' : Task σ ε α} (h : Shows view q t t')
    (p : ρ) : Shows (Prod.map view id) (q, p) t.onFirst t'.onFirst := by
  have hget (x : τ × ρ) : (Prod.map view (id : ρ → ρ) x).1 = view x.1 := rfl
  have hq : Shows view (q, p).1 t t' := h
  exact hq.part part_fst part_fst hget fun _ _ => rfl

/-! ## Lanes -/

/-- Lanes that do what other lanes do. -/
abbrev Alike (view : τ → σ) (lanes : List (Lane τ)) (lanes' : List (Lane σ)) : Prop :=
  List.Forall₂ (Like view) lanes lanes'

theorem Alike.getElem? {lanes : List (Lane τ)} {lanes' : List (Lane σ)}
    (h : Alike view lanes lanes') (i : Nat) : Option.Rel (Like view) lanes[i]? lanes'[i]? := by
  induction h generalizing i with
  | nil => exact .none
  | cons ht _ ih =>
    cases i with
    | zero => exact .some ht
    | succ i => exact ih i

theorem Alike.set {lanes : List (Lane τ)} {lanes' : List (Lane σ)} (h : Alike view lanes lanes')
    {t : Lane τ} {t' : Lane σ} (ht : Like view t t') (i : Nat) :
    Alike view (lanes.set i t) (lanes'.set i t') := by
  induction h generalizing i with
  | nil => exact .nil
  | cons h hs ih =>
    cases i with
    | zero => exact .cons ht hs
    | succ i => exact .cons h (ih i)

theorem Like.hasEnded {t : Lane τ} {t' : Lane σ} (h : Like view t t') :
    hasEnded t' = hasEnded t := by
  cases h <;> rfl

theorem Alike.all_hasEnded {lanes : List (Lane τ)} {lanes' : List (Lane σ)}
    (h : Alike view lanes lanes') : lanes'.all hasEnded = lanes.all hasEnded := by
  induction h with
  | nil => rfl
  | cons ht _ ih => rw [List.all_cons, List.all_cons, ht.hasEnded, ih]

theorem Alike.abandonAll {lanes : List (Lane τ)} {lanes' : List (Lane σ)}
    (h : Alike view lanes lanes') (q : τ) :
    abandonAll lanes' (view q) = view (abandonAll lanes q) := by
  induction h generalizing q with
  | nil => rfl
  | cons ht _ ih =>
    cases ht with
    | done => exact ih q
    | @wait u u' abandon abandon' next next' _ ha =>
      have hq := ih (abandon q)
      rw [ha] at hq
      exact hq

theorem isWoken_like {t : Option (Lane τ)} {t' : Option (Lane σ)}
    (h : Option.Rel (Like view) t t') (q : τ) : isWoken (view q) t' = isWoken q t := by
  cases h with
  | none => rfl
  | some h =>
    cases h with
    | done => rfl
    | @wait u u' _ _ _ _ hu =>
      rw [hu]
      cases u' <;> rfl

/-! ## Runs -/

/-- Both states have the same clock. -/
structure SameClock [Clocked τ] [Clocked σ] (view : τ → σ) : Prop where
  clock : ∀ q, Clocked.clock (view q) = Clocked.clock q
  atTime : ∀ time q, view (Clocked.atTime time q) = Clocked.atTime time (view q)

variable [Clocked τ] [Clocked σ]

theorem due_comap (hview : SameClock view) (u : Until σ) (q : τ) :
    (u.comap view).due? (Clocked.clock q) = u.due? (Clocked.clock (view q)) := by
  cases u <;> simp [Until.comap, Until.due?, hview.clock]

theorem Like.run {t : Task τ ε α} {t' : Task σ ε α} (h : Like view t t')
    (hview : SameClock view) (q : τ) : t'.run (view q) = Prod.map id view (t.run q) := by
  induction h generalizing q with
  | done r => rfl
  | wait hu _ hs _ ih =>
    rw [Task.run, Task.run, hu, due_comap hview]
    split
    · rw [run_advance, ← hs, ih, ← run_advance]
    · rw [← hview.atTime, run_advance, ← hs, ih, ← run_advance]

/-- The result is the same, and so is what `view` sees of the state. -/
theorem Shows.run {q : τ} {t : Task τ ε α} {t' : Task σ ε α} (h : Shows view q t t')
    (hview : SameClock view) : t'.run (view q) = Prod.map id view (t.run q) := by
  rw [run_advance, ← h.state, h.rest.run hview, ← run_advance]

theorem place_like {t : Lane τ} {t' : Lane σ} (h : Like view t t') (hview : SameClock view)
    (q : τ) (agenda : Agenda (Turn ε)) (i : Nat) :
    place (view q) agenda i t' = place q agenda i t := by
  have hw := isWoken_like (.some h) q
  cases h with
  | done => rfl
  | @wait u u' _ _ _ _ hu =>
    simp only [place]
    rw [hw, hu, due_comap hview]

/-- **Lanes that do what other lanes do give the same result, and so is what `view` sees of the
    state.** -/
theorem Alike.run_goOn {lanes : List (Lane τ)} {lanes' : List (Lane σ)}
    (h : Alike view lanes lanes') (hview : SameClock view) (line : List (Turn ε))
    (agenda : Agenda (Turn ε)) (parked : List Nat) (q : τ) :
    (goOn lanes' line agenda parked).run (view q) =
      Prod.map id view ((goOn lanes line agenda parked).run q) := by
  induction lanes, line, agenda, parked using goOn_induction generalizing lanes' q with
  | empty lanes agenda parked ih =>
    by_cases hall : lanes.all Task.hasEnded = true
    · rw [run_goOn_ended hall, run_goOn_ended (h.all_hasEnded ▸ hall)]
      rfl
    have hall' : ¬lanes'.all Task.hasEnded = true := h.all_hasEnded ▸ hall
    rcases hdue : agenda.popDue? with _ | ⟨time, due, rest⟩
    · rw [run_goOn_idle hall hdue, run_goOn_idle hall' hdue]
      rfl
    · rw [run_goOn_due hall hdue, run_goOn_due hall' hdue, ← hview.atTime]
      exact ih _ _ _ hdue h _
  | deadline lanes late line agenda parked =>
    rw [run_goOn_deadline, run_goOn_deadline, h.abandonAll]
    rfl
  | turn lanes i line agenda parked u abandon next hi ih =>
    have ht := h.getElem? i
    rw [hi] at ht
    generalize hi' : lanes'[i]? = t' at ht
    cases ht with
    | some ht =>
      cases ht with
      | @wait _ _ _ _ _ next' _ _ hs hn =>
        have hset := h.set (hn q) i
        rw [run_goOn_lane hi, run_goOn_lane hi']
        simp only [← hs, fun j => isWoken_like (hset.getElem? j) (next.advance q).1,
          place_like (hn q) hview]
        exact ih q _ _ _ hset _
  | past lanes i line agenda parked hi ih =>
    have hi' : ∀ u abandon next, lanes'[i]? ≠ some (.wait u abandon next) := fun u' a n he => by
      have ht := h.getElem? i
      rw [he] at ht
      generalize hi' : lanes[i]? = t at ht
      cases ht with
      | some ht => cases ht with | wait => exact hi _ _ _ hi'
    rw [run_goOn_past hi, run_goOn_past hi']
    exact ih h q

/-- The same of lanes from their start on. -/
theorem run_sideBySide_shows {lanes : List (Lane τ)} {lanes' : List (Lane σ)}
    (h : List.Forall₂ (fun t t' => ∀ q, Shows view q t t') lanes lanes') (hview : SameClock view)
    (d : Option (Deadline ε)) (q : τ) :
    (sideBySide d lanes').run (view q) = Prod.map id view ((sideBySide d lanes).run q) := by
  simp only [sideBySide, ← h.length_eq]
  refine Alike.run_goOn ?_ hview _ _ _ q
  exact List.forall₂_map_left_iff.2 <| List.forall₂_map_right_iff.2 <|
    h.imp fun _ _ ht => .waiting rfl (fun _ => rfl) ht

end VectorStore.Task
