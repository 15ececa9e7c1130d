/-
  Tasks that keep their deadlines.

  * `Punctual`: a task with a deadline ends no later than it, and it ends as the same task without
    it does or by being late, whichever the timeline of that task says;
  * `punctual_within`: a task that paces is punctual if it is given a deadline;
  * `Punctual.after`, `Punctual.andThen`, `Punctual.recover`: so is a task with what takes no time
    before it and after it.
-/
import VectorStore.Proofs.Task.Timeline

namespace VectorStore.Task

variable {σ τ ε α β : Type} [Clocked σ] {s : σ} {t t' : Task σ ε α} {apart : Prop}
  {d : Deadline ε} {time : Time}

/-- What ends at this time is in time.  Until the moment before a deadline is over it is open
    whether it is. -/
def Deadline.Meets (d : Deadline ε) (time : Time) : Prop :=
  time < d.time ∧ ¬d.time < time + Time.moment

/-- What ends at this time is late. -/
def Deadline.Misses (d : Deadline ε) (time : Time) : Prop :=
  d.time < time ∨ ¬time < d.time ∧ d.time < time + Time.moment

instance (d : Deadline ε) (time : Time) : Decidable (d.Meets time) :=
  inferInstanceAs (Decidable (_ ∧ _))

instance (d : Deadline ε) (time : Time) : Decidable (d.Misses time) :=
  inferInstanceAs (Decidable (_ ∨ _))

theorem Deadline.Misses.not_lt (h : d.Misses time) : ¬time < d.time := by
  rcases h with h | h
  · exact fun hlt => Number.not_le_of_lt h (Number.le_of_lt hlt)
  · exact h.1

/-- The task `t` keeps its deadline.  It ends no later, unless it takes no time at all.  `t'` is the
    same task without a deadline: if a wait of it is late so is `t`, and if all are in time `t` ends
    as `t'` does, in a state that `same` compares. -/
structure Punctual (same : σ → σ → Prop) (d : Deadline ε) (apart : Prop) (t t' : Task σ ε α)
    (s : σ) : Prop where
  clock : Clocked.clock (t.run s).2 = Clocked.clock s ∨ ¬d.time < Clocked.clock (t.run s).2
  late : apart → (∃ time ∈ t'.timeline s, d.Misses time) → (t.run s).1 = .error d.late
  inTime : apart → (∀ time ∈ t'.timeline s, d.Meets time) →
    (t.run s).1 = (t'.run s).1 ∧ same (t.run s).2 (t'.run s).2

theorem Punctual.mono {same : σ → σ → Prop} {apart' : Prop} (h : Punctual same d apart t t' s)
    (ha : apart' → apart) : Punctual same d apart' t t' s :=
  ⟨h.clock, fun h' => h.late (ha h'), fun h' => h.inTime (ha h')⟩

/-! ## Tasks with a deadline -/

/-- A task that takes no time keeps any deadline. -/
theorem punctual_of_quiet (d : Deadline ε) (apart : Prop) (hrun : t.run s = t'.run s)
    (h : t'.Quiet s) : Punctual (· = ·) d apart t t' s := by
  refine ⟨.inl (hrun ▸ h.clock), fun _ hmissed => ?_, fun _ _ => ⟨by rw [hrun], by rw [hrun]⟩⟩
  rw [h.timeline] at hmissed
  obtain ⟨_, hm, -⟩ := hmissed
  cases hm

/-- A task that is late, where it has to be. -/
theorem punctual_of_late {same : σ → σ → Prop}
    (hclock : Clocked.clock (t.run s).2 = Clocked.clock s ∨ ¬d.time < Clocked.clock (t.run s).2)
    (hlate : (∃ time ∈ t'.timeline s, d.Misses time) → (t.run s).1 = .error d.late)
    (htime : time ∈ t'.timeline s) (hnot : ¬d.Meets time) : Punctual same d apart t t' s :=
  ⟨hclock, fun _ => hlate, fun _ hall => absurd (hall time htime) hnot⟩

/-- A wait that is not late goes before. -/
theorem Punctual.afterWait [LawfulClock σ] {same : σ → σ → Prop} {u u' : Task σ ε α}
    (h : Punctual same d apart u u' (Clocked.atTime time s))
    (hrun : t.run s = u.run (Clocked.atTime time s))
    (hrun' : t'.run s = u'.run (Clocked.atTime time s))
    (htimes : t'.timeline s = time :: u'.timeline (Clocked.atTime time s))
    (hbefore : time < d.time) : Punctual same d apart t t' s := by
  have hnotLate : ¬d.time < time := fun hlt => Number.not_le_of_lt hlt (Number.le_of_lt hbefore)
  refine ⟨.inr ?_, fun ha hmissed => ?_, fun ha hall => ?_⟩
  · rw [hrun]
    rcases h.clock with hends | hends
    · rw [hends, LawfulClock.clock_atTime]
      exact hnotLate
    · exact hends
  · rw [htimes] at hmissed
    obtain ⟨time', hmem, hmiss⟩ := hmissed
    rcases List.mem_cons.1 hmem with rfl | hmem
    · exact absurd hbefore hmiss.not_lt
    · rw [hrun]
      exact h.late ha ⟨time', hmem, hmiss⟩
  · rw [htimes] at hall
    rw [hrun, hrun']
    exact h.inTime ha fun time' hmem => hall time' (List.mem_cons_of_mem _ hmem)

/-- Where the waits of a task would take time, it is late at once. -/
theorem run_withoutWait (t : Task σ ε α) (late : ε) (h : t.Paces s) :
    Clocked.clock ((t.withoutWait late).run s).2 = Clocked.clock s ∧
      (t.timeline s ≠ [] → ((t.withoutWait late).run s).1 = .error late) := by
  induction t generalizing s with
  | done r => exact ⟨rfl, fun h => absurd rfl h⟩
  | read next ih => exact ih s h
  | write s' next ih =>
    obtain ⟨hclock, hlate⟩ := ih h.2
    exact ⟨hclock.trans h.1, hlate⟩
  | wait u abandon next => exact ⟨(h.2 s).1, fun _ => rfl⟩

variable [LawfulClock σ]

/-- A wait for time, with a deadline: it is cut short, or what follows it is not to wait any more,
    or all goes on. -/
theorem punctual_wait {u : Until σ} {abandon : σ → σ} {next : Task σ ε α} (hd : 0 ≤ d.time)
    (h : (wait u abandon next).Paces s) (htime : 0 ≤ time)
    (hu : u.due? (Clocked.clock s) = some time)
    (ih : Punctual (· = ·) d apart (next.within d) next (Clocked.atTime time s)) :
    Punctual (· = ·) d apart ((wait u abandon next).within d) (wait u abandon next) s := by
  have htimes : (wait u abandon next).timeline s =
      time :: next.timeline (Clocked.atTime time s) := by rw [timeline, hu]
  have hmem : time ∈ (wait u abandon next).timeline s := htimes ▸ List.mem_cons_self ..
  by_cases hover : d.time ≤ time
  · have hrun : ((wait u abandon next).within d).run s =
        (.error d.late, abandon (Clocked.atTime d.time s)) := by
      rw [within, run, hu]
      dsimp only
      rw [if_pos hover]
      rfl
    refine punctual_of_late (.inr ?_) (fun _ => by rw [hrun]) hmem fun hmeets =>
      Number.not_le_of_lt hmeets.1 hover
    rw [hrun, (h.2 _).1, LawfulClock.clock_atTime]
    exact Number.lt_irrefl d.time
  have hbefore : time < d.time :=
    Number.lt_of_not_le (Number.isNumber_of_nonneg hd) (Number.isNumber_of_nonneg htime) hover
  by_cases hmoment : d.time < time + Time.moment
  · have hrun : ((wait u abandon next).within d).run s =
        (next.withoutWait d.late).run (Clocked.atTime time s) := by
      rw [within, run, hu]
      dsimp only
      rw [if_neg hover, if_pos hmoment]
      rfl
    obtain ⟨hstill, hlate⟩ := run_withoutWait next d.late (h.2 (Clocked.atTime time s)).2
    refine punctual_of_late (.inr ?_) ?_ hmem fun hmeets => hmeets.2 hmoment
    · rw [hrun, hstill, LawfulClock.clock_atTime]
      exact fun hlt => Number.not_le_of_lt hlt (Number.le_of_lt hbefore)
    · rintro ⟨time', hmem, hmiss⟩
      rw [htimes] at hmem
      rcases List.mem_cons.1 hmem with rfl | hmem
      · exact absurd hbefore hmiss.not_lt
      · rw [hrun]
        exact hlate (List.ne_nil_of_mem hmem)
  · have hrun : ((wait u abandon next).within d).run s =
        (next.within d).run (Clocked.atTime time s) := by
      rw [within, run, hu]
      dsimp only
      rw [if_neg hover, if_neg hmoment]
      rfl
    exact ih.afterWait hrun (by rw [run, hu]) htimes hbefore

/-- **A task with a deadline keeps it.** -/
theorem punctual_within (apart : Prop) (hd : 0 ≤ d.time) (h : t.Paces s)
    (hs : 0 ≤ Clocked.clock s) : Punctual (· = ·) d apart (t.within d) t s := by
  induction t generalizing s with
  | done r => exact punctual_of_quiet d apart rfl (quiet_done r s)
  | read next ih =>
    obtain ⟨hclock, hlate, hsame⟩ := ih s h hs
    exact ⟨hclock, hlate, hsame⟩
  | write s' next ih =>
    obtain ⟨hclock, hlate, hsame⟩ := ih h.2 (h.1 ▸ hs)
    exact ⟨h.1 ▸ hclock, hlate, hsame⟩
  | wait u abandon next ih =>
    rcases hu : u.due? (Clocked.clock s) with _ | time
    · have hrun : ((wait u abandon next).within d).run s = (next.within d).run s := by
        rw [within, run, hu, run, hu]
      have hrun' : (wait u abandon next).run s = next.run s := by rw [run, hu]
      have htimes : (wait u abandon next).timeline s = next.timeline s := by rw [timeline, hu]
      obtain ⟨hclock, hlate, hsame⟩ := ih (h.2 s).2 hs
      refine ⟨?_, ?_, ?_⟩
      · rw [hrun]
        exact hclock
      · rw [hrun, htimes]
        exact hlate
      · rw [hrun, hrun', htimes]
        exact hsame
    · have htime : 0 ≤ time := h.1.due hs hu
      have hclock : Clocked.clock (Clocked.atTime time s) = time := LawfulClock.clock_atTime time s
      exact punctual_wait hd h htime hu (ih (h.2 _).2 (hclock.symm ▸ htime))

/-! ## Tasks put together -/

omit [LawfulClock σ] in
/-- What is made of the end of a task without taking time. -/
theorem Punctual.ending [Clocked τ] {same : σ → σ → Prop} {same' : τ → τ → Prop} {q : τ}
    {u u' : Task τ ε β} (h : Punctual same d apart t t' s)
    (last last' : Except ε α × σ → Except ε β × τ) (hrun : u.run q = last (t.run s))
    (hrun' : u'.run q = last' (t'.run s)) (htimes : u'.timeline q = t'.timeline s)
    (hstart : Clocked.clock q = Clocked.clock s)
    (hclock : ∀ o, Clocked.clock (last o).2 = Clocked.clock o.2)
    (hlate : ∀ s, (last (.error d.late, s)).1 = .error d.late)
    (hsame : apart → ∀ r s₁ s₁', t.run s = (r, s₁) → t'.run s = (r, s₁') → same s₁ s₁' →
      (last (r, s₁)).1 = (last' (r, s₁')).1 ∧ same' (last (r, s₁)).2 (last' (r, s₁')).2) :
    Punctual same' d apart u u' q := by
  refine ⟨?_, fun ha hmissed => ?_, fun ha hall => ?_⟩
  · rw [hrun, hclock, hstart]
    exact h.clock
  · rw [htimes] at hmissed
    have he : t.run s = (.error d.late, (t.run s).2) := Prod.ext (h.late ha hmissed) rfl
    rw [hrun, he]
    exact hlate _
  · rw [htimes] at hall
    obtain ⟨hresult, hstates⟩ := h.inTime ha hall
    rw [hrun, hrun']
    have hplain : t'.run s = ((t.run s).1, (t'.run s).2) := Prod.ext hresult.symm rfl
    have hsame := hsame ha (t.run s).1 (t.run s).2 (t'.run s).2 rfl hplain hstates
    rw [hplain]
    exact hsame

omit [LawfulClock σ] in
theorem Punctual.withLocal {q : β} {t t' : Task (σ × β) ε α}
    (h : Punctual (· = ·) d apart t t' (s, q)) :
    Punctual (· = ·) d apart (t.withLocal q) (t'.withLocal q) s := by
  let last (o : Except ε α × σ × β) : Except ε (α × β) × σ := (o.1.map (·, o.2.2), o.2.1)
  refine h.ending last last (run_withLocal q t s) (run_withLocal q t' s) (timeline_withLocal q t' s)
    rfl (fun _ => rfl) (fun _ => rfl) ?_
  rintro - r s₁ _ - - rfl
  exact ⟨rfl, rfl⟩

omit [LawfulClock σ] in
/-- How a task ends that goes on with `k` where another ends. -/
def endedBy (k : α → Task σ ε β) : Except ε α × σ → Except ε β × σ
  | (.ok a, s) => (k a).run s
  | (.error e, s) => (.error e, s)

omit [LawfulClock σ] in
/-- How a task ends that handles the failure of another. -/
def handledBy (handler : ε → Task σ ε α) : Except ε α × σ → Except ε α × σ
  | (.ok a, s) => (.ok a, s)
  | (.error e, s) => (handler e).run s

omit [LawfulClock σ] in
/-- What takes no time follows. -/
theorem Punctual.andThen {same same' : σ → σ → Prop} {k k' : α → Task σ ε β}
    (h : Punctual same d apart t t' s) (hk : ∀ a s, (k a).Quiet s) (hk' : ∀ a s, (k' a).Quiet s)
    (hfail : ∀ s₁ s₁', same s₁ s₁' → same' s₁ s₁')
    (hsame : apart → ∀ a s₁ s₁', t.run s = (.ok a, s₁) → t'.run s = (.ok a, s₁') → same s₁ s₁' →
      ((k a).run s₁).1 = ((k' a).run s₁').1 ∧ same' ((k a).run s₁).2 ((k' a).run s₁').2) :
    Punctual same' d apart (t.andThen k) (t'.andThen k') s := by
  have htimes : (t'.andThen k').timeline s = t'.timeline s := by
    rw [timeline_andThen]
    rcases t'.run s with ⟨e | a, s₁⟩
    · exact List.append_nil _
    · dsimp only
      rw [(hk' a s₁).timeline, List.append_nil]
  refine h.ending (endedBy k) (endedBy k') (run_andThen t k s) (run_andThen t' k' s) htimes rfl ?_
    (fun _ => rfl) ?_
  · rintro ⟨e | a, s₁⟩
    · rfl
    · exact (hk a s₁).clock
  · rintro ha (e | a) s₁ s₁' hrun hrun' hs
    · exact ⟨rfl, hfail _ _ hs⟩
    · exact hsame ha a s₁ s₁' hrun hrun' hs

omit [LawfulClock σ] in
/-- A failure is passed on in the place of another. -/
theorem Punctual.recover {same same' : σ → σ → Prop} {handler handler' : ε → Task σ ε α}
    (h : Punctual same d apart t t' s) (hh : ∀ e s, (handler e).Quiet s)
    (hh' : ∀ e s, (handler' e).Quiet s)
    (hlate : ∀ s, ((handler d.late).run s).1 = .error d.late)
    (hok : ∀ s₁ s₁', same s₁ s₁' → same' s₁ s₁')
    (hsame : ∀ e s₁ s₁', same s₁ s₁' → ((handler e).run s₁).1 = ((handler' e).run s₁').1 ∧
      same' ((handler e).run s₁).2 ((handler' e).run s₁').2) :
    Punctual same' d apart (t.recover handler) (t'.recover handler') s := by
  have htimes : (t'.recover handler').timeline s = t'.timeline s := by
    rw [Task.recover, timeline_andThen, timeline_attempt, run_attempt]
    rcases t'.run s with ⟨e | a, s₁⟩
    · dsimp only
      rw [(hh' e s₁).timeline, List.append_nil]
    · exact List.append_nil _
  refine h.ending (handledBy handler) (handledBy handler') (run_recover t handler s)
    (run_recover t' handler' s) htimes rfl ?_ hlate ?_
  · rintro ⟨e | a, s₁⟩
    · exact (hh e s₁).clock
    · rfl
  · rintro - (e | a) s₁ s₁' - - hs
    · exact hsame e s₁ s₁' hs
    · exact ⟨rfl, hok _ _ hs⟩

omit [LawfulClock σ] in
/-- What takes no time, with the deadline or without, goes before. -/
theorem Punctual.after {same : σ → σ → Prop} {k k' : α → Task σ ε β} (hrun : t.run s = t'.run s)
    (hq : t'.Quiet s) (hrefl : ∀ s, same s s) (h : ∀ a s₁, t'.run s = (.ok a, s₁) →
      Punctual same d apart (k a) (k' a) s₁) :
    Punctual same d apart (t.andThen k) (t'.andThen k') s := by
  obtain ⟨hquiet, hclock⟩ := hq
  have hall (k : α → Task σ ε β) : (t.andThen k).run s = (t'.andThen k).run s := by
    rw [run_andThen, run_andThen, hrun]
  rcases hr : t'.run s with ⟨e | a, s₁⟩ <;> rw [hr] at hclock
  · have hend (k : α → Task σ ε β) : (t'.andThen k).run s = (.error e, s₁) := by
      rw [run_andThen, hr]
    have htimes : (t'.andThen k').timeline s = [] := by rw [timeline_andThen, hquiet, hr]; rfl
    refine ⟨.inl ?_, fun _ hmissed => ?_, fun _ _ => ?_⟩
    · rw [hall, hend]
      exact hclock
    · rw [htimes] at hmissed
      obtain ⟨_, hm, -⟩ := hmissed
      cases hm
    · rw [hall, hend, hend]
      exact ⟨rfl, hrefl s₁⟩
  · have hgoes (k : α → Task σ ε β) : (t'.andThen k).run s = (k a).run s₁ := by
      rw [run_andThen, hr]
    refine (h a s₁ hr).ending id id ((hall k).trans (hgoes k)) (hgoes k') ?_ hclock.symm
      (fun _ => rfl) (fun _ => rfl) fun _ _ _ _ _ _ hs => ⟨rfl, hs⟩
    rw [timeline_andThen, hquiet, hr]
    rfl

end VectorStore.Task
