/-
  Tasks that a part of their state does not matter to.

  A task on a part of the state does the same whatever the rest is (`shows_zoom`), with a
  deadline or without (`Shows.bounded`); if the part has the clock, it runs as it does there
  (`run_zoom`).  Where a task shows itself through a view, what the view
  changes makes no difference to it (`Shows.run`).
-/
import VectorStore.Proofs.Task.Erasure

namespace VectorStore.Task

variable {σ τ ρ ε α β : Type} {view : τ → σ}

/-- Tasks whose turns are those of other tasks. -/
theorem Shows.of_advance_eq {q p : τ} {t r : Task τ ε α} {t' r' : Task σ ε α}
    (h : Shows view p r r') (ht : t.advance q = r.advance p)
    (ht' : t'.advance (view q) = r'.advance (view p)) : Shows view q t t' := by
  refine ⟨?_, ?_⟩
  · rw [ht, ht']
    exact h.state
  · rw [ht, ht']
    exact h.rest

theorem shows_ofExcept (r : Except ε α) (q : τ) :
    Shows view q (.ofExcept r : Task τ ε α) (.ofExcept r) :=
  ⟨rfl, .done r⟩

/-- A task with others in place of its failures. -/
theorem Shows.recover {ε' : Type} {q : τ} {t : Task τ ε α} {t' : Task σ ε α}
    {handler : ε → Task τ ε' α} {handler' : ε → Task σ ε' α} (h : Shows view q t t')
    (hh : ∀ e q, Shows view q (handler e) (handler' e)) :
    Shows view q (t.recover handler) (t'.recover handler') :=
  h.attempt.andThen fun r q => by
    cases r with
    | error e => exact hh e q
    | ok a => exact shows_ret a q

/-! ## Parts of a state -/

theorem shows_modify {f : τ → τ} {f' : σ → σ} (h : ∀ q, view (f q) = f' (view q)) (q : τ) :
    Shows view q (.modify f : Task τ ε Unit) (.modify f') := by
  refine .read ?_
  rw [← h]
  exact .write (shows_ret () _)

/-- A task on a part of the state that can be seen through the view. -/
theorem shows_zoom {get : τ → ρ} {get' : σ → ρ} {put : ρ → τ → τ} {put' : ρ → σ → σ}
    (hget : ∀ q, get' (view q) = get q) (hput : ∀ r q, view (put r q) = put' r (view q))
    (t : Task ρ ε α) (q : τ) : Shows view q (t.zoom get put) (t.zoom get' put') := by
  induction t generalizing q with
  | done r => exact ⟨rfl, .done r⟩
  | read next ih =>
    refine .read ?_
    rw [hget]
    exact ih (get q) q
  | write r next ih =>
    refine .read ?_
    rw [← hput]
    exact .write (ih _)
  | wait u abandon next ih =>
    have hu : u.comap get = (u.comap get').comap view := by
      cases u <;> simp [Until.comap, hget]
    have hw : Like view (.wait (u.comap get) (fun q => put (abandon (get q)) q) (next.zoom get put))
        (.wait (u.comap get') (fun q => put' (abandon (get' q)) q) (next.zoom get' put')) :=
      .waiting hu (fun q => by rw [hput, hget]) ih
    exact hw.shows q

/-- A task on a part of the state that has its clock runs as it does on the part. -/
theorem run_zoom [Clocked τ] [Clocked ρ] {get : τ → ρ} {put : ρ → τ → τ} (h : Part get put)
    (hclock : ∀ q, Clocked.clock q = Clocked.clock (get q))
    (htime : ∀ time q, Clocked.atTime time q = put (Clocked.atTime time (get q)) q)
    (t : Task ρ ε α) (q : τ) :
    (t.zoom get put).run q = ((t.run (get q)).1, put (t.run (get q)).2 q) := by
  induction t generalizing q with
  | done r => simp [zoom, run, h.put_get]
  | read next ih => exact ih _ q
  | write s next ih =>
    rw [zoom, run, run, ih, h.get_put, h.put_put]
    rfl
  | wait u abandon next ih =>
    have hdue (now : Time) : (u.comap get).due? now = u.due? now := by cases u <;> rfl
    rw [zoom, run, run, ih, hdue, hclock]
    rcases u.due? (Clocked.clock (get q)) with _ | time
    · rfl
    · simp only [htime, h.get_put, h.put_put]

/-- A task on the first of two states, without the second. -/
theorem shows_fst (t : Task σ ε α) (q : σ × τ) : Shows Prod.fst q t.onFirst t := by
  induction t generalizing q with
  | done r => exact ⟨rfl, .done r⟩
  | read next ih => exact .read (ih q.1 q)
  | write s next ih => exact ⟨(ih (s, q.2)).state, (ih (s, q.2)).rest⟩
  | wait u abandon next ih =>
    exact (Like.waiting rfl (fun _ => rfl) ih : Like Prod.fst (onFirst (.wait u abandon next))
      (.wait u abandon next)).shows q

/-! ## Tasks that cannot fail -/

theorem advance_certain (t : Task τ Empty α) (q : τ) :
    (t.certain : Task τ ε α).advance q = ((t.advance q).1, (t.advance q).2.certain) := by
  induction t generalizing q with
  | done r =>
    cases r with
    | error e => exact e.elim
    | ok a => rfl
  | read next ih => exact ih q q
  | write q' next ih => exact ih q'
  | wait u abandon next => rfl

theorem shows_certain {q : τ} {t : Task τ Empty α} {t' : Task σ Empty α}
    (hs : view (t.advance q).1 = (t'.advance (view q)).1)
    (hr : Like view ((t.advance q).2.certain : Task τ ε α) (t'.advance (view q)).2.certain) :
    Shows view q (t.certain : Task τ ε α) t'.certain := by
  refine ⟨?_, ?_⟩
  · rw [advance_certain, advance_certain]
    exact hs
  · rw [advance_certain, advance_certain]
    exact hr

theorem Like.certain {t : Task τ Empty α} {t' : Task σ Empty α} (h : Like view t t') :
    Like view (t.certain : Task τ ε α) t'.certain := by
  induction h with
  | done r =>
    cases r with
    | error e => exact e.elim
    | ok a => exact .done _
  | wait hu ha hs _ ih => exact .waiting hu ha fun q => shows_certain (hs q) (ih q)

theorem Shows.certain {q : τ} {t : Task τ Empty α} {t' : Task σ Empty α} (h : Shows view q t t') :
    Shows view q (t.certain : Task τ ε α) t'.certain :=
  shows_certain h.state h.rest.certain

/-! ## Deadlines -/

theorem shows_failAfter {f : τ → τ} {f' : σ → σ} (h : ∀ q, view (f q) = f' (view q)) (e : ε)
    (q : τ) : Shows view q (.failAfter f e : Task τ ε α) (.failAfter f' e) := by
  refine .read ?_
  rw [← h]
  exact .write ⟨rfl, .done _⟩

theorem advance_withoutWait (late : ε) (t : Task τ ε α) (q : τ) :
    (t.withoutWait late).advance q =
      ((t.advance q).2.withoutWait late).advance (t.advance q).1 := by
  induction t generalizing q with
  | done r => rfl
  | read next ih => exact ih q q
  | write q' next ih => exact ih q'
  | wait u abandon next => rfl

theorem Like.withoutWait {t : Task τ ε α} {t' : Task σ ε α} (h : Like view t t') (late : ε)
    (q : τ) : Shows view q (t.withoutWait late) (t'.withoutWait late) := by
  cases h with
  | done r => exact ⟨rfl, .done r⟩
  | wait _ ha => exact shows_failAfter ha late q

theorem Shows.withoutWait {q : τ} {t : Task τ ε α} {t' : Task σ ε α} (h : Shows view q t t')
    (late : ε) : Shows view q (t.withoutWait late) (t'.withoutWait late) :=
  (h.rest.withoutWait late _).of_advance_eq (advance_withoutWait late t q)
    (h.state ▸ advance_withoutWait late t' (view q))

variable [Clocked τ] [Clocked σ]

theorem advance_within (d : Deadline ε) (t : Task τ ε α) (q : τ) :
    (t.within d).advance q = ((t.advance q).2.within d).advance (t.advance q).1 := by
  induction t generalizing q with
  | done r => rfl
  | read next ih => exact ih q q
  | write q' next ih => exact ih q'
  | wait u abandon next => rfl

theorem shows_within {q : τ} {t : Task τ ε α} {t' : Task σ ε α} {d : Deadline ε}
    (hs : view (t.advance q).1 = (t'.advance (view q)).1)
    (hr : Shows view (t.advance q).1 ((t.advance q).2.within d)
      ((t'.advance (view q)).2.within d)) :
    Shows view q (t.within d) (t'.within d) :=
  hr.of_advance_eq (advance_within d t q) (hs ▸ advance_within d t' (view q))

theorem Like.within {t : Task τ ε α} {t' : Task σ ε α} (h : Like view t t')
    (hview : SameClock view) (d : Deadline ε) (q : τ) :
    Shows view q (t.within d) (t'.within d) := by
  induction h generalizing q with
  | done r => exact ⟨rfl, .done r⟩
  | @wait u u' abandon abandon' next next' hu ha hs hn ih =>
    have hnext : ∀ q, Shows view q next next' := fun q => ⟨hs q, hn q⟩
    have hin : ∀ q, Shows view q (next.within d) (next'.within d) := fun q =>
      shows_within (hs q) (ih q _)
    refine .read ?_
    rw [hu, due_comap hview]
    rcases u'.due? (Clocked.clock (view q)) with _ | time
    · exact (Like.waiting rfl ha hin).shows q
    have hreached (time : Time) : (.reached time : Until τ) = (Until.reached time).comap view := rfl
    dsimp only
    split_ifs
    · exact (Like.waiting (hreached _) ha (shows_failAfter ha d.late)).shows q
    · exact (Like.waiting (hreached _) ha fun q => (hnext q).withoutWait d.late).shows q
    · exact (Like.waiting (hreached _) ha hin).shows q

/-- A task with a deadline, or without one. -/
theorem Shows.bounded {q : τ} {t : Task τ ε α} {t' : Task σ ε α} (h : Shows view q t t')
    (hview : SameClock view) (d : Option (Deadline ε)) :
    Shows view q (t.bounded d) (t'.bounded d) := by
  cases d with
  | none => exact h
  | some d => exact shows_within h.state (h.rest.within hview d _)

end VectorStore.Task
