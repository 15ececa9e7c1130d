/-
  Tasks that end at once.

  A task may go from a state to its end without ever waiting.

  * `AtOnce` says so, with the result and the state in the end;
  * `AtOnce.attempt`, `AtOnce.onFirst`, `AtOnce.certain`: compound tasks;
    `AtOnce.run`: such a task runs to this end, `AtOnce.within`: also where it has a deadline;
  * `run_sideBySide_turns`: lanes that wait for nothing but their turn all come to their end,
    before any time has passed, so no deadline cuts them short.
-/
import VectorStore.Proofs.Task.Steps

namespace VectorStore.Task

variable {σ τ ε ε' α β : Type}

/-- From the state `s` the task ends with `r`, leaving the state `s'`, without waiting. -/
def AtOnce (t : Task σ ε α) (s : σ) (r : Except ε α) (s' : σ) : Prop :=
  t.advance s = (s', .done r)

variable {t : Task σ ε α} {s s' : σ} {r : Except ε α}

/-! ## Compound tasks -/

theorem AtOnce.attempt (h : AtOnce t s r s') :
    AtOnce (t.attempt : Task σ ε' (Except ε α)) s (.ok r) s' := by
  rw [AtOnce, advance_attempt, h]
  rfl

theorem AtOnce.onFirst (h : AtOnce t s r s') (q : τ) : AtOnce t.onFirst (s, q) r (s', q) := by
  rw [AtOnce, advance_onFirst, h]
  rfl

theorem AtOnce.certain {t : Task σ Empty α} {a : α} (h : AtOnce t s (.ok a) s') :
    AtOnce (t.certain : Task σ ε α) s (.ok a) s' := by
  induction t generalizing s with
  | done r =>
    cases h
    rfl
  | read next ih => exact ih s h
  | write s'' next ih => exact ih h
  | wait u abandon next => cases h

/-! ## Runs -/

variable [Clocked σ]

theorem AtOnce.run (h : AtOnce t s r s') : t.run s = (r, s') := by
  rw [run_advance, h]
  rfl

/-- A deadline is nothing to a task that ends at once. -/
theorem AtOnce.within (h : AtOnce t s r s') (d : Deadline ε) : AtOnce (t.within d) s r s' := by
  induction t generalizing s with
  | done r => exact h
  | read next ih => exact ih s h
  | write s'' next ih => exact ih h
  | wait u abandon next => cases h

theorem AtOnce.bounded (h : AtOnce t s r s') (d : Option (Deadline ε)) :
    AtOnce (t.bounded d) s r s' := by
  cases d with
  | none => exact h
  | some d => exact h.within d

/-! ## Lanes that take turns -/

/-- A lane that has ended or waits for nothing but its turn. -/
inductive TakesTurns : Lane σ → Prop
  | ended {outcome : Except Empty Unit} : TakesTurns (.done outcome)
  | waits {abandon next} : TakesTurns (.wait (.holds fun _ => true) abandon next)

/-- What the turns of lanes keep, if the lanes wait for nothing but their turns. -/
structure KeptByTurns (I : List (Lane σ) → σ → Prop) : Prop where
  takesTurns {lanes s} : I lanes s → ∀ t ∈ lanes, TakesTurns t
  turn {lanes s i abandon next} : I lanes s →
    lanes[i]? = some (.wait (.holds fun _ => true) abandon next) →
    I (lanes.set i (next.advance s).2) (next.advance s).1

/-- Where a lane is entered that waits for nothing but its turn: at the end of the line. -/
theorem place_takesTurns {rest : Lane σ} (h : TakesTurns rest) (s : σ) (agenda : Agenda (Turn ε))
    (i : Nat) : ∃ inLine : List (Turn ε), place s agenda i rest = (inLine, agenda, []) ∧
      (∀ turn ∈ inLine, turn = .lane i) ∧ (hasEnded rest = true ∨ .lane i ∈ inLine) := by
  cases h with
  | ended => exact ⟨[], rfl, nofun, .inl rfl⟩
  | waits => exact ⟨[.lane i], rfl, fun _ => List.mem_singleton.1, .inr (List.mem_singleton_self _)⟩

/-- **Lanes that wait for nothing but their turns come to their end**, before time passes. -/
theorem run_goOn_turns {I : List (Lane σ) → σ → Prop} (hI : KeptByTurns I)
    (lanes : List (Lane σ)) (line : List (Turn ε)) (agenda : Agenda (Turn ε)) (parked : List Nat)
    (s : σ) (hs : I lanes s) (hparked : parked = []) (hline : ∀ late, .deadline late ∉ line)
    (hall : ∀ i t, lanes[i]? = some t → hasEnded t = true ∨ .lane i ∈ line) :
    ∃ lanes' s', I lanes' s' ∧ (∀ t ∈ lanes', hasEnded t = true) ∧
      lanes'.length = lanes.length ∧ (goOn lanes line agenda parked).run s = (.ok (), s') := by
  induction lanes, line, agenda, parked using goOn_induction generalizing s with
  | empty lanes agenda parked =>
    have hended : ∀ t ∈ lanes, hasEnded t = true := fun t ht => by
      obtain ⟨i, hi⟩ := List.getElem?_of_mem ht
      simpa using hall i t hi
    exact ⟨lanes, s, hs, hended, rfl, run_goOn_ended (List.all_eq_true.2 hended) s⟩
  | deadline lanes late line => exact absurd (List.mem_cons_self ..) (hline late)
  | turn lanes i line agenda parked u abandon next h ih =>
    have ht := hI.takesTurns hs _ (List.mem_of_getElem? h)
    obtain ⟨hlt, -⟩ := List.getElem?_eq_some_iff.1 h
    cases ht with
    | waits =>
      have hs' := hI.turn hs h
      have hr := hI.takesTurns hs' _ (List.mem_set hlt _)
      obtain ⟨inLine, hplace, hin, hentered⟩ :=
        place_takesTurns hr (next.advance s).1 agenda i
      subst hparked
      have hstep : (goOn lanes (.lane i :: line) agenda []).run s =
          (goOn (lanes.set i (next.advance s).2) (line ++ inLine) agenda []).run
            (next.advance s).1 := by
        simp [run_goOn_lane h, hplace]
      have hline' : ∀ late, Turn.deadline late ∉ line ++ inLine := fun late hlate => by
        rcases List.mem_append.1 hlate with hlate | hlate
        · exact hline late (List.mem_cons_of_mem _ hlate)
        · cases hin _ hlate
      have hall' : ∀ j t, (lanes.set i (next.advance s).2)[j]? = some t →
          hasEnded t = true ∨ Turn.lane j ∈ line ++ inLine := fun j t hj => by
        by_cases hij : i = j
        · subst hij
          rw [List.getElem?_set_self hlt] at hj
          cases hj
          exact hentered.imp_right (List.mem_append_right _)
        · rw [List.getElem?_set_ne hij] at hj
          refine (hall j t hj).imp_right fun hmem => List.mem_append_left _ ?_
          refine (List.mem_cons.1 hmem).resolve_left fun he => ?_
          cases he
          exact hij rfl
      obtain ⟨lanes', s', hI', hended, hlen, hrun⟩ := ih s _ _ _ _ hs' rfl hline' hall'
      rw [hstep]
      exact ⟨lanes', s', hI', hended, by simpa using hlen, hrun⟩
  | past lanes i line agenda parked h ih =>
    rw [run_goOn_past h]
    refine ih s hs hparked (fun late hl => hline late (List.mem_cons_of_mem _ hl)) fun j t hj => ?_
    refine (hall j t hj).elim .inl fun hmem => ?_
    rcases List.mem_cons.1 hmem with he | hmem
    · cases he
      cases hI.takesTurns hs t (List.mem_of_getElem? hj) with
      | ended => exact .inl rfl
      | waits => exact absurd hj (h _ _ _)
    · exact .inr hmem

/-- The same of lanes from their start on, with a deadline or without. -/
theorem run_sideBySide_turns {I : List (Lane σ) → σ → Prop} (hI : KeptByTurns I)
    (d : Option (Deadline ε)) (lanes : List (Lane σ)) (s : σ)
    (hs : I (lanes.map fun t => .wait (.holds fun _ => true) id t) s) :
    ∃ lanes' s', I lanes' s' ∧ (∀ t ∈ lanes', hasEnded t = true) ∧
      lanes'.length = lanes.length ∧ (sideBySide d lanes).run s = (.ok (), s') := by
  have hline : ∀ late, Turn.deadline late ∉ ((List.range lanes.length).map .lane : List (Turn ε)) :=
    by simp
  have hall : ∀ i t, (lanes.map fun t => .wait (.holds fun _ => true) id t)[i]? = some t →
      hasEnded t = true ∨ .lane i ∈ ((List.range lanes.length).map .lane : List (Turn ε)) :=
    fun i t hi => .inr <| by
      obtain ⟨hi, -⟩ := List.getElem?_eq_some_iff.1 hi
      rw [List.length_map] at hi
      exact List.mem_map.2 ⟨i, List.mem_range.2 hi, rfl⟩
  obtain ⟨lanes', s', h, hended, hlen, hrun⟩ := run_goOn_turns hI _ _ _ [] s hs rfl hline hall
  exact ⟨lanes', s', h, hended, by simpa using hlen, hrun⟩

end VectorStore.Task
