/-
  How lanes go on, step by step.

  * `place` is where a lane is entered that has had its turn;
  * `advance_goOn_lane` and the equations beside it say what one step of lanes side by side is,
    `run_goOn_lane` and those beside it how they run from there;
  * `steps` counts the steps out, for a run that is to be evaluated (`run_goOn_of_steps`);
  * `goOn_induction`: to show something of every run it is enough to show it from what it
    holds of after one step, wherever the step leads.
-/
import VectorStore.Proofs.Task.Turns

namespace VectorStore.Task

variable {σ ε : Type}

/-! ## Induction -/

/-- **Induction along the steps of lanes side by side.**  Time passes only when nobody stands
    in line; a turn leaves less of its lane. -/
theorem goOn_induction
    {motive : List (Lane σ) → List (Turn ε) → Agenda (Turn ε) → List Nat → Prop}
    (empty : ∀ lanes agenda parked, (∀ time line rest, agenda.popDue? = some (time, line, rest) →
      motive lanes line rest parked) → motive lanes [] agenda parked)
    (deadline : ∀ lanes late line agenda parked,
      motive lanes (.deadline late :: line) agenda parked)
    (turn : ∀ lanes i line agenda parked u abandon next, lanes[i]? = some (.wait u abandon next) →
      (∀ s line agenda parked, motive (lanes.set i (next.advance s).2) line agenda parked) →
      motive lanes (.lane i :: line) agenda parked)
    (past : ∀ lanes i line agenda parked, (∀ u abandon next,
      lanes[i]? ≠ some (.wait u abandon next)) → motive lanes line agenda parked →
      motive lanes (.lane i :: line) agenda parked)
    (lanes : List (Lane σ)) (line : List (Turn ε)) (agenda : Agenda (Turn ε))
    (parked : List Nat) : motive lanes line agenda parked := by
  match line with
  | [] =>
    refine empty lanes agenda parked fun time line rest h => ?_
    have := Agenda.size_popDue h
    exact goOn_induction empty deadline turn past lanes line rest parked
  | .deadline late :: line => exact deadline lanes late line agenda parked
  | .lane i :: line =>
    by_cases hw : ∃ u abandon next, lanes[i]? = some (.wait u abandon next)
    · obtain ⟨u, abandon, next, h⟩ := hw
      refine turn lanes i line agenda parked u abandon next h fun s line agenda parked => ?_
      have := ahead_set (.turn (reaches_advance next s)) h
      exact goOn_induction empty deadline turn past _ line agenda parked
    · exact past lanes i line agenda parked (fun u abandon next h => hw ⟨u, abandon, next, h⟩)
        (goOn_induction empty deadline turn past lanes line agenda parked)
termination_by ((⟨lanes⟩ : Lanes σ), 2 * agenda.size + line.length)
decreasing_by
  · exact .right _ (by simp only [List.length_nil]; omega)
  · exact .left _ _ (by assumption)
  · exact .right _ (by simp only [List.length_cons]; omega)

/-! ## Steps -/

variable [Clocked σ]

/-- Where a lane is entered that has had its turn: what is added to the line, the agenda, and
    what is added to those parked. -/
def place (s : σ) (agenda : Agenda (Turn ε)) (i : Nat) (rest : Lane σ) :
    List (Turn ε) × Agenda (Turn ε) × List Nat :=
  match rest with
  | .wait u _ _ =>
    match u.due? (Clocked.clock s) with
    | some time => ([], agenda.push time (.lane i), [])
    | none => if isWoken s (some rest) then ([.lane i], agenda, []) else ([], agenda, [i])
  | _ => ([], agenda, [])

variable {lanes : List (Lane σ)} {line : List (Turn ε)} {agenda : Agenda (Turn ε)}
  {parked : List Nat}

theorem goOn_ended (h : lanes.all hasEnded = true) :
    goOn lanes ([] : List (Turn ε)) agenda parked = ret () := by
  rw [goOn, if_pos h]

theorem goOn_idle (h : ¬lanes.all hasEnded = true) (hdue : agenda.popDue? = none) :
    goOn lanes [] agenda parked = ret () := by
  rw [goOn, if_neg h]
  split
  · rfl
  · next he => rw [hdue] at he; cases he

/-- Time passes. -/
theorem goOn_due (h : ¬lanes.all hasEnded = true) {time : Time} {rest : Agenda (Turn ε)}
    (hdue : agenda.popDue? = some (time, line, rest)) :
    goOn lanes [] agenda parked =
      .wait (.reached time) (abandonAll lanes) (goOn lanes line rest parked) := by
  rw [goOn, if_neg h]
  split
  · next he => rw [hdue] at he; cases he
  · next he => rw [hdue] at he; cases he; rfl

theorem goOn_deadline (late : ε) :
    goOn lanes (.deadline late :: line) agenda parked = failAfter (abandonAll lanes) late := by
  rw [goOn]

/-- **One turn of a lane**: of those that were parked some get in line, and the lane is entered
    behind them. -/
theorem advance_goOn_lane {i : Nat} {u : Until σ} {abandon : σ → σ} {next : Lane σ}
    (h : lanes[i]? = some (.wait u abandon next)) (s : σ) :
    (goOn lanes (.lane i :: line) agenda parked).advance s =
      let turn := next.advance s
      let lanes := lanes.set i turn.2
      let parting := parked.partition fun j => isWoken turn.1 lanes[j]?
      let placed := place turn.1 agenda i turn.2
      (goOn lanes (line ++ parting.1.map .lane ++ placed.1) placed.2.1
        (parting.2 ++ placed.2.2)).advance turn.1 := by
  rw [goOn]
  split
  · next u' abandon' next' h' =>
    rw [h] at h'
    cases h'
    rw [advance_upToWait]
    generalize reaches_advance next s = reached
    generalize next.advance s = turn at *
    obtain ⟨s', rest⟩ := turn
    rw [advance]
    cases rest with
    | wait u abandon next =>
      simp only [place]
      cases u.due? (Clocked.clock s') with
      | none => cases hc : isWoken s' (some (wait u abandon next)) <;> simp
      | some time => simp
    | _ => simp [place]
  · next h' => exact absurd h (h' u abandon next)

/-- The turn of a lane that does not wait is passed over. -/
theorem goOn_past {i : Nat} (h : ∀ u abandon next, lanes[i]? ≠ some (.wait u abandon next)) :
    goOn lanes (.lane i :: line) agenda parked = goOn lanes line agenda parked := by
  rw [goOn]
  split
  · next h' => exact absurd h' (h _ _ _)
  · rfl

/-! ## Runs -/

theorem run_goOn_ended (h : lanes.all hasEnded = true) (s : σ) :
    (goOn lanes ([] : List (Turn ε)) agenda parked).run s = (.ok (), s) := by
  rw [goOn_ended h]
  rfl

theorem run_goOn_idle (h : ¬lanes.all hasEnded = true) (hdue : agenda.popDue? = none) (s : σ) :
    (goOn lanes [] agenda parked).run s = (.ok (), s) := by
  rw [goOn_idle h hdue]
  rfl

theorem run_goOn_due (h : ¬lanes.all hasEnded = true) {time : Time} {rest : Agenda (Turn ε)}
    (hdue : agenda.popDue? = some (time, line, rest)) (s : σ) :
    (goOn lanes [] agenda parked).run s =
      (goOn lanes line rest parked).run (Clocked.atTime time s) := by
  rw [goOn_due h hdue]
  rfl

theorem run_goOn_deadline (late : ε) (s : σ) :
    (goOn lanes (.deadline late :: line) agenda parked).run s =
      (.error late, abandonAll lanes s) := by
  rw [goOn_deadline]
  rfl

theorem run_goOn_lane {i : Nat} {u : Until σ} {abandon : σ → σ} {next : Lane σ}
    (h : lanes[i]? = some (.wait u abandon next)) (s : σ) :
    (goOn lanes (.lane i :: line) agenda parked).run s =
      let turn := next.advance s
      let lanes := lanes.set i turn.2
      let parting := parked.partition fun j => isWoken turn.1 lanes[j]?
      let placed := place turn.1 agenda i turn.2
      (goOn lanes (line ++ parting.1.map .lane ++ placed.1) placed.2.1
        (parting.2 ++ placed.2.2)).run turn.1 := by
  rw [run_advance, advance_goOn_lane h s]
  exact (run_advance _ _).symm

theorem run_goOn_past {i : Nat} (h : ∀ u abandon next, lanes[i]? ≠ some (.wait u abandon next))
    (s : σ) :
    (goOn lanes (.lane i :: line) agenda parked).run s = (goOn lanes line agenda parked).run s := by
  rw [goOn_past h]

/-! ## Runs that can be counted out -/

/-- How lanes run from a state, if no more than so many steps are to be made. -/
def steps : Nat → List (Lane σ) → List (Turn ε) → Agenda (Turn ε) → List Nat → σ →
    Option (Except ε Unit × σ)
  | 0, _, _, _, _, _ => none
  | n + 1, lanes, [], agenda, parked, s =>
    if lanes.all hasEnded then some (.ok (), s)
    else match agenda.popDue? with
      | none => some (.ok (), s)
      | some (time, line, rest) => steps n lanes line rest parked (Clocked.atTime time s)
  | _ + 1, lanes, .deadline late :: _, _, _, s => some (.error late, abandonAll lanes s)
  | n + 1, lanes, .lane i :: line, agenda, parked, s =>
    match lanes[i]? with
    | some (.wait _ _ next) =>
      let turn := next.advance s
      let lanes := lanes.set i turn.2
      let parting := parked.partition fun j => isWoken turn.1 lanes[j]?
      let placed := place turn.1 agenda i turn.2
      steps n lanes (line ++ parting.1.map .lane ++ placed.1) placed.2.1 (parting.2 ++ placed.2.2)
        turn.1
    | _ => steps n lanes line agenda parked s

theorem run_goOn_of_steps {n : Nat} {s : σ} {r : Except ε Unit × σ}
    (h : steps n lanes line agenda parked s = some r) :
    (goOn lanes line agenda parked).run s = r := by
  induction n generalizing lanes line agenda parked s with
  | zero => cases h
  | succ n ih =>
    match line with
    | [] =>
      rw [steps] at h
      split at h
      · next hall =>
        rw [run_goOn_ended hall]
        exact Option.some.inj h
      · next hall =>
        rcases hdue : agenda.popDue? with _ | ⟨time, line, rest⟩ <;> simp only [hdue] at h
        · rw [run_goOn_idle hall hdue]
          exact Option.some.inj h
        · rw [run_goOn_due hall hdue]
          exact ih h
    | .deadline late :: line =>
      rw [run_goOn_deadline]
      exact Option.some.inj h
    | .lane i :: line =>
      rw [steps] at h
      split at h
      · next hi =>
        rw [run_goOn_lane hi]
        exact ih h
      · next hi =>
        rw [run_goOn_past fun u abandon next hw => hi u abandon next hw]
        exact ih h

/-- The same of lanes from their start on. -/
def stepsSideBySide (n : Nat) (d : Option (Deadline ε)) (lanes : List (Lane σ)) (s : σ) :
    Option (Except ε Unit × σ) :=
  let agenda := match d with
    | some d => Agenda.empty.push d.time (.deadline d.late)
    | none => .empty
  steps n (lanes.map fun t => .wait (.holds fun _ => true) id t)
    ((List.range lanes.length).map .lane) agenda [] s

theorem run_sideBySide_of_steps {n : Nat} {d : Option (Deadline ε)} {lanes : List (Lane σ)} {s : σ}
    {r : Except ε Unit × σ} (h : stepsSideBySide n d lanes s = some r) :
    (sideBySide d lanes).run s = r :=
  run_goOn_of_steps h

end VectorStore.Task
